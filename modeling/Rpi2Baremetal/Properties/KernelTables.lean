import Rpi2Baremetal.Model.KernelTables
import Rpi2Baremetal.Properties.TableBuilder

/-!
# What the kernels' table builders leave behind

A table that `amp_tbl_setup` or `smp_tbl_setup` has filled maps every section to itself or
faults on it, as the range tests say (`KernelTbl.setup_spec`, `Holds.walk`), and filling another
table leaves it alone (`Holds.setup`).
-/

namespace Rpi2Baremetal

open Framework

namespace Mmu

/-! ## Section bases -/

lemma sba_mask_bit {i : ℕ} (hi : i < 32) : FLD_SBA_MASK.getLsbD i = decide (20 ≤ i) := by
  have hall : ∀ i : Fin 32, FLD_SBA_MASK.getLsbD i = decide (20 ≤ i.val) := by decide
  exact hall ⟨i, hi⟩

lemma and_sba_mask (va : Word) : va &&& FLD_SBA_MASK = (va >>> 20) <<< 20 := by
  refine BitVec.eq_of_getLsbD_eq fun i hi => ?_
  rw [BitVec.getLsbD_and, sba_mask_bit hi, BitVec.getLsbD_shiftLeft, BitVec.getLsbD_ushiftRight]
  by_cases h : 20 ≤ i
  · have hadd : 20 + (i - 20) = i := by omega
    have hlt : ¬ i < 20 := by omega
    simp [h, hi, hadd, hlt]
  · have hlt : i < 20 := by omega
    simp [h, hlt]

/-- The base of the section of an address is the address with the low bits cleared. -/
lemma sectionOf_eq_and (va : Word) : sectionOf va = va &&& FLD_SBA_MASK := by
  apply BitVec.eq_of_toNat_eq
  rw [and_sba_mask, sectionOf_toNat]
  simp only [BitVec.toNat_shiftLeft, BitVec.toNat_ushiftRight, Nat.shiftLeft_eq,
    Nat.shiftRight_eq_div_pow]
  omega

lemma sectionOf_and_mask (va : Word) : sectionOf va &&& FLD_SBA_MASK = va &&& FLD_SBA_MASK := by
  rw [sectionOf_eq_and, BitVec.and_assoc, BitVec.and_self]

lemma and_or_and_not (va mask : Word) : (va &&& mask) ||| (va &&& ~~~ mask) = va := by
  refine BitVec.eq_of_getLsbD_eq fun i hi => ?_
  simp only [BitVec.getLsbD_or, BitVec.getLsbD_and, BitVec.getLsbD_not, hi, decide_true,
    Bool.true_and]
  cases va.getLsbD i <;> cases mask.getLsbD i <;> rfl

/-! ## Descriptors -/

/-- Flags that leave the type, the base and the domain of a descriptor alone. -/
structure AttributesOnly (flags : Word) : Prop where
  type : flags &&& FLD_TYPE_MASK = 0
  base : flags &&& FLD_SBA_MASK = 0
  domain : flags &&& FLD_DOMAIN_MASK = 0

instance (flags : Word) : Decidable (AttributesOnly flags) :=
  decidable_of_iff (flags &&& FLD_TYPE_MASK = 0 ∧ flags &&& FLD_SBA_MASK = 0 ∧
    flags &&& FLD_DOMAIN_MASK = 0)
    ⟨fun h => ⟨h.1, h.2.1, h.2.2⟩, fun h => ⟨h.type, h.base, h.domain⟩⟩

/-- The descriptor `mmu_section` writes to map the section at `va` to itself. -/
def sectionDesc (va flags : Word) : Word := (va &&& FLD_SBA_MASK) ||| flags ||| FLD_SECTION_TYPE

/-- A part of a descriptor that `mmu_section` takes from the flags. -/
lemma sectionDesc_and {mask : Word} (hbase : FLD_SBA_MASK &&& mask = 0)
    (htype : FLD_SECTION_TYPE &&& mask = 0) (va flags : Word) :
    sectionDesc va flags &&& mask = flags &&& mask := by
  rw [sectionDesc, BitVec.and_comm, BitVec.and_or_distrib_left, BitVec.and_or_distrib_left,
    BitVec.and_comm mask (va &&& FLD_SBA_MASK), BitVec.and_assoc, hbase, BitVec.and_comm mask flags,
    BitVec.and_comm mask FLD_SECTION_TYPE, htype]
  simp

lemma AttributesOnly.type_sectionDesc {flags : Word} (h : AttributesOnly flags) (va : Word) :
    sectionDesc va flags &&& FLD_TYPE_MASK = FLD_SECTION_TYPE := by
  rw [sectionDesc, BitVec.or_assoc, type_desc, BitVec.and_comm, BitVec.and_or_distrib_left,
    BitVec.and_comm, h.type]
  rfl

lemma AttributesOnly.base_sectionDesc {flags : Word} (h : AttributesOnly flags) (va : Word) :
    sectionDesc va flags &&& FLD_SBA_MASK = va &&& FLD_SBA_MASK := by
  rw [sectionDesc, BitVec.and_comm, BitVec.and_or_distrib_left, BitVec.and_or_distrib_left,
    BitVec.and_comm FLD_SBA_MASK flags, h.base, BitVec.and_comm, BitVec.and_assoc,
    BitVec.and_self]
  show _ ||| 0#32 ||| 0#32 = _
  rw [BitVec.or_zero, BitVec.or_zero]

/-- Through a descriptor of `mmu_section` every address of its section is translated to
itself. -/
lemma walk_sectionDesc {m : Mem} {ttba va flags : Word} (hattr : AttributesOnly flags)
    (h : m (l1descpa va ttba) = sectionDesc (sectionOf va) flags) :
    walk m ttba va = .section va := by
  rw [walk, h, hattr.type_sectionDesc, if_neg (by decide), if_neg (by decide),
    hattr.base_sectionDesc, sectionOf_and_mask, and_or_and_not]

/-- A descriptor of `mmu_fault` translates nothing. -/
lemma walk_faultDesc {m : Mem} {ttba va pa : Word}
    (h : m (l1descpa va ttba) = (pa &&& FLD_SBA_MASK) ||| FLD_FAULT_TYPE) :
    walk m ttba va = .fault := by
  rw [walk, h]
  exact if_pos (type_desc pa FLD_FAULT_TYPE)

namespace KernelTbl

variable {K K' : KernelTbl}

/-- The flags of a table builder are attributes. -/
lemma attributesOnly {va flags : Word} (h : K.flags va = some flags) : AttributesOnly flags := by
  cases K with
  | amp kramArea uramArea kheapArea spBottom =>
      rw [KernelTbl.flags, ampFlags] at h
      split_ifs at h <;> obtain rfl := Option.some.inj h <;> decide
  | smp kramArea uramArea kheapArea spBottom numCpu =>
      rw [KernelTbl.flags, smpFlags] at h
      split_ifs at h <;> obtain rfl := Option.some.inj h <;> decide

/-- The descriptor of the section at `va`. -/
def desc (K : KernelTbl) (va : Word) : Word :=
  match K.flags va with
  | some flags => sectionDesc va flags
  | none => (va &&& FLD_SBA_MASK) ||| FLD_FAULT_TYPE

lemma entry_eq (K : KernelTbl) (ttba va : Word) (m : Mem) :
    K.entry ttba va m = m.write (l1descpa va ttba) (K.desc va) := by
  unfold entry desc
  cases K.flags va <;> rfl

/-- The table at `ttba` is that of `K`. -/
def Holds (K : KernelTbl) (m : Mem) (ttba : Word) : Prop :=
  ∀ va, m (l1descpa va ttba) = K.desc (sectionOf va)

/-- A table builder terminates, fills the table, and writes no word outside it. -/
lemma setup_spec (K : KernelTbl) {ttba : Word} (halign : 2 ^ 14 ∣ ttba.toNat) (m : Mem) :
    ∃ m', K.setup 4096 ttba m = some m' ∧ K.Holds m' ttba ∧
      ∀ a, (∀ va, l1descpa va ttba ≠ a) → m' a = m a :=
  tblPass_spec (K.entry_eq ttba) halign m

/-- Tables at different multiples of 16KB have no word in common. -/
lemma l1descpa_ne {ttba ttba' : Word} (h : 2 ^ 14 ∣ ttba.toNat) (h' : 2 ^ 14 ∣ ttba'.toNat)
    (hne : ttba ≠ ttba') (va va' : Word) : l1descpa va ttba ≠ l1descpa va' ttba' := by
  intro heq
  have hnat := congrArg BitVec.toNat heq
  rw [l1descpa_toNat h, l1descpa_toNat h'] at hnat
  obtain ⟨k, hk⟩ := h
  obtain ⟨k', hk'⟩ := h'
  have hva := va.isLt
  have hva' := va'.isLt
  exact hne (BitVec.eq_of_toNat_eq (by omega))

/-- Filling another table leaves the table of a kernel alone. -/
lemma Holds.setup {m m' : Mem} {ttba ttba' : Word} (h : K.Holds m ttba)
    (halign : 2 ^ 14 ∣ ttba.toNat) (halign' : 2 ^ 14 ∣ ttba'.toNat) (hne : ttba ≠ ttba')
    (hrun : K'.setup 4096 ttba' m = some m') : K.Holds m' ttba := by
  obtain ⟨m'', hrun', -, hother⟩ := K'.setup_spec halign' m
  obtain rfl := Option.some.inj (hrun.symm.trans hrun')
  intro va
  rw [hother _ fun va' => l1descpa_ne halign' halign hne.symm va' va]
  exact h va

/-- The walk through the table of a kernel: a section is mapped to itself, or faults. -/
lemma Holds.walk {m : Mem} {ttba : Word} (h : K.Holds m ttba) (va : Word) :
    walk m ttba va = if (K.flags (sectionOf va)).isSome then .section va else .fault := by
  have hva := h va
  rw [KernelTbl.desc] at hva
  cases hflags : K.flags (sectionOf va) with
  | none =>
      rw [hflags] at hva
      exact walk_faultDesc hva
  | some flags =>
      rw [hflags] at hva
      exact walk_sectionDesc (attributesOnly hflags) hva

lemma Holds.walk_section {m : Mem} {ttba va flags : Word} (h : K.Holds m ttba)
    (hflags : K.flags (sectionOf va) = some flags) : Mmu.walk m ttba va = .section va := by
  rw [h.walk, hflags]
  rfl

lemma Holds.walk_fault {m : Mem} {ttba va : Word} (h : K.Holds m ttba) :
    Mmu.walk m ttba va = .fault ↔ K.flags (sectionOf va) = none := by
  rw [h.walk]
  cases K.flags (sectionOf va) <;> simp

end KernelTbl

end Mmu

end Rpi2Baremetal
