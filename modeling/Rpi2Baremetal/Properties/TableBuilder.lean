import Rpi2Baremetal.Model.Mmu

/-!
# What a table builder leaves behind

A table builder whose entry of `va` is one write of `desc va` terminates after 4096 passes,
and the descriptor of every address is `desc` of the base of its section (`tblPass_spec`).
-/

namespace Rpi2Baremetal

open Framework

namespace Mmu

/-- The first address of section `i`. -/
def sectionBase (i : ℕ) : Word := .ofNat 32 (i * 2 ^ 20)

/-- The first address of the section of `va`. -/
def sectionOf (va : Word) : Word := sectionBase (va.toNat / 2 ^ 20)

lemma sectionBase_toNat {i : ℕ} (hi : i < 4096) : (sectionBase i).toNat = i * 2 ^ 20 := by
  rw [sectionBase, BitVec.toNat_ofNat, Nat.mod_eq_of_lt (by omega)]

lemma sectionOf_toNat (va : Word) : (sectionOf va).toNat = va.toNat / 2 ^ 20 * 2 ^ 20 :=
  sectionBase_toNat (by omega)

lemma sectionBase_succ (i : ℕ) : sectionBase i + SECTION_SIZE = sectionBase (i + 1) := by
  rw [sectionBase, sectionBase, Nat.succ_mul, BitVec.ofNat_add]
  rfl

lemma sectionBase_eq_last {i : ℕ} (hi : i < 4096) : sectionBase i = 0xFFF00000 ↔ i = 4095 := by
  have hlast : (0xFFF00000 : Word).toNat = 4095 * 2 ^ 20 := rfl
  rw [← BitVec.toNat_inj, sectionBase_toNat hi, hlast, Nat.mul_left_inj (by decide)]

/-- The descriptor of `va` in a 16KB-aligned table. -/
lemma l1descpa_toNat {ttba : Word} (h : 2 ^ 14 ∣ ttba.toNat) (va : Word) :
    (l1descpa va ttba).toNat = ttba.toNat + 4 * (va.toNat / 2 ^ 20) := by
  obtain ⟨k, hk⟩ := h
  have hoff : ((va >>> 20) <<< 2).toNat = 4 * (va.toNat / 2 ^ 20) := by
    simp only [BitVec.toNat_shiftLeft, BitVec.toNat_ushiftRight, Nat.shiftLeft_eq,
      Nat.shiftRight_eq_div_pow]
    omega
  have hlt : 4 * (va.toNat / 2 ^ 20) < 2 ^ 14 := by omega
  rw [l1descpa, BitVec.toNat_or, hoff, hk, ← Nat.two_pow_add_eq_or_of_lt hlt]

/-- The descriptor of an address is that of the base of its section. -/
lemma l1descpa_sectionOf {ttba : Word} (h : 2 ^ 14 ∣ ttba.toNat) (va : Word) :
    l1descpa (sectionOf va) ttba = l1descpa va ttba := by
  apply BitVec.eq_of_toNat_eq
  rw [l1descpa_toNat h, l1descpa_toNat h, sectionOf_toNat]
  omega

/-- The 4096 descriptors of an aligned table are pairwise different words. -/
lemma nodup_l1descpa {ttba : Word} (h : 2 ^ 14 ∣ ttba.toNat) :
    ((List.range 4096).map fun i => l1descpa (sectionBase i) ttba).Nodup := by
  refine (List.nodup_map_iff_inj_on List.nodup_range).mpr fun i hi j hj heq => ?_
  have := congrArg BitVec.toNat heq
  rw [List.mem_range] at hi hj
  simp only [l1descpa_toNat h, sectionBase_toNat hi, sectionBase_toNat hj] at this
  omega

variable {ttba : Word} {entry : Word → Mem → Mem} {desc : Word → Word}

/-- The passes and the writes of a table builder whose entries are single writes. -/
lemma trace_tblPass (hentry : ∀ va m, entry va m = m.write (l1descpa va ttba) (desc va))
    (n : ℕ) (hn : n < 4096) (m : Mem) :
    ∃ passes, Loop.Trace (tblPass entry) (m, sectionBase (4095 - n)) passes
        (m.writeAll (fun i => l1descpa (sectionBase i) ttba) (fun i => desc (sectionBase i))
          (List.range' (4095 - n) (n + 1))) ∧
      passes.map Prod.snd = (List.range' (4095 - n) (n + 1)).map sectionBase := by
  induction n generalizing m with
  | zero =>
      refine ⟨[(m, sectionBase 4095)], .leave ?_, rfl⟩
      have hlast : sectionBase 4095 = 0xFFF00000 := rfl
      simp [tblPass, hlast, hentry, List.range']
  | succ n ih =>
      have hne : sectionBase (4095 - (n + 1)) ≠ 0xFFF00000 := by
        rw [Ne, sectionBase_eq_last (by omega)]
        omega
      have hidx : 4095 - (n + 1) + 1 = 4095 - n := by omega
      have hagain : tblPass entry (m, sectionBase (4095 - (n + 1)))
          = .again (entry (sectionBase (4095 - (n + 1))) m, sectionBase (4095 - n)) := by
        simp only [tblPass, if_neg hne, sectionBase_succ, hidx]
      have hrange : List.range' (4095 - (n + 1)) (n + 2)
          = (4095 - (n + 1)) :: List.range' (4095 - n) (n + 1) := by
        rw [List.range'_succ, hidx]
      obtain ⟨passes, htrace, hpasses⟩ := ih (by omega) (entry (sectionBase (4095 - (n + 1))) m)
      refine ⟨(m, sectionBase (4095 - (n + 1))) :: passes, .again hagain ?_, ?_⟩
      · rw [hrange, Memory.writeAll_cons, ← hentry]
        exact htrace
      · rw [hrange, List.map_cons, List.map_cons, hpasses]

/-- **A table builder.**  It terminates, the descriptor of every address is the one meant for
the base of its section, and no word outside the table changes. -/
lemma tblPass_spec (hentry : ∀ va m, entry va m = m.write (l1descpa va ttba) (desc va))
    (halign : 2 ^ 14 ∣ ttba.toNat) (m : Mem) :
    ∃ m', Loop.run (tblPass entry) 4096 (m, 0) = some m' ∧
      (∀ va, m' (l1descpa va ttba) = desc (sectionOf va)) ∧
      ∀ a, (∀ va, l1descpa va ttba ≠ a) → m' a = m a := by
  obtain ⟨passes, htrace, hpasses⟩ := trace_tblPass hentry 4095 (by omega) m
  have hlength : passes.length = 4096 := by
    rw [← List.length_map (f := Prod.snd), hpasses, List.length_map, List.length_range']
  refine ⟨_, hlength ▸ htrace.run, fun va => ?_, fun a ha => ?_⟩
  · rw [← l1descpa_sectionOf halign, sectionOf, ← List.range_eq_range']
    have hmem : va.toNat / 2 ^ 20 ∈ List.range 4096 := List.mem_range.mpr (by omega)
    exact Memory.writeAll_apply m (fun i => l1descpa (sectionBase i) ttba)
      (fun i => desc (sectionBase i)) (nodup_l1descpa halign) hmem
  · exact Memory.writeAll_of_notMem m _ _ fun i _ => ha _

/-! ## Descriptor types -/

/-- The two low bits of a descriptor are those of its attributes. -/
lemma type_desc (pa flags : Word) :
    ((pa &&& FLD_SBA_MASK) ||| flags) &&& FLD_TYPE_MASK = flags &&& FLD_TYPE_MASK := by
  have hbase : FLD_TYPE_MASK &&& (pa &&& FLD_SBA_MASK) = 0#32 := by
    rw [BitVec.and_comm, BitVec.and_assoc]
    exact BitVec.and_zero
  rw [BitVec.and_comm, BitVec.and_or_distrib_left, hbase, BitVec.zero_or, BitVec.and_comm]

end Mmu

end Rpi2Baremetal
