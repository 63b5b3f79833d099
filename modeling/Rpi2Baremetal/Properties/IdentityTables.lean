import Rpi2Baremetal.Properties.KernelTables
import Rpi2Baremetal.Properties.UserIsolation

/-!
# Identity tables

All three table builders map what they map to itself, and each of them fills its table with one
store to each of its 4096 words.  The range tests of the kernels' builders are a list of ranges
here (`KernelTbl.ranges`): a section gets the attributes of the first range it lies in.
-/

namespace Rpi2Baremetal

open Framework

namespace Mmu

/-! ## Ranges -/

/-- A range of the address space and the attributes of its sections. -/
structure Range where
  bottom : ℕ
  limit : ℕ
  flags : Word

/-- The address `va` passes the range test. -/
def Range.Contains (r : Range) (va : Word) : Prop := r.bottom ≤ va.toNat ∧ va.toNat < r.limit

instance (r : Range) (va : Word) : Decidable (r.Contains va) :=
  inferInstanceAs (Decidable (_ ∧ _))

/-- The range test of an area, which its `limit` does not pass. -/
def Area.range (area : Area) (flags : Word) : Range := ⟨area.bottom.toNat, area.limit.toNat, flags⟩

/-- The ranges of the tests in the loop of a table builder, in the order of the chain.  The end
of the window of the stacks is computed in 32 bits. -/
def KernelTbl.ranges : KernelTbl → List Range
  | .amp kramArea uramArea kheapArea spBottom =>
      [⟨0, SP_BASE.toNat, SHAREABLE_SECTION ||| WB_WA ||| FLD_FULL_ACCESS⟩,
        ⟨spBottom.toNat, (spBottom + SECTION_SIZE).toNat, WT_NWA ||| FLD_PLV_ACCESS⟩,
        ⟨SHARED_BOTTOM.toNat, SHARED_LIMIT.toNat, SHAREABLE_SECTION ||| WT_NWA ||| FLD_FULL_ACCESS⟩,
        Area.range kramArea (WB_WA ||| FLD_PLV_ACCESS),
        Area.range kheapArea (SHAREABLE_SECTION ||| WB_WA ||| FLD_PLV_ACCESS),
        Area.range uramArea (WB_WA ||| FLD_FULL_ACCESS),
        ⟨PERIPH_BOTTOM.toNat, PERIPH_LIMIT.toNat, SHAREABLE_DEV ||| FLD_FULL_ACCESS⟩]
  | .smp kramArea uramArea kheapArea spBottom numCpu =>
      [⟨0, SP_BASE.toNat, SHAREABLE_SECTION ||| WB_NWA ||| FLD_FULL_ACCESS⟩,
        ⟨spBottom.toNat, (spBottom + SECTION_SIZE * numCpu).toNat, WT_NWA ||| FLD_PLV_ACCESS⟩,
        ⟨SHARED_BOTTOM.toNat, SHARED_LIMIT.toNat, SHAREABLE_SECTION ||| WT_NWA ||| FLD_FULL_ACCESS⟩,
        Area.range kramArea (SHAREABLE_SECTION ||| WB_NWA ||| FLD_PLV_ACCESS),
        Area.range kheapArea (SHAREABLE_SECTION ||| WB_NWA ||| FLD_PLV_ACCESS),
        Area.range uramArea (WB_NWA ||| FLD_FULL_ACCESS),
        ⟨PERIPH_BOTTOM.toNat, PERIPH_LIMIT.toNat, SHAREABLE_DEV ||| FLD_FULL_ACCESS⟩,
        ⟨PERIPH_LIMIT.toNat + 1, 2 ^ 32, SHAREABLE_DEV ||| FLD_FULL_ACCESS⟩]

/-- The flags of the first range an address lies in. -/
def firstFlags (rs : List Range) (va : Word) : Option Word :=
  (rs.find? fun r => r.Contains va).map Range.flags

lemma firstFlags_cons (r : Range) (rs : List Range) (va : Word) :
    firstFlags (r :: rs) va = if r.Contains va then some r.flags else firstFlags rs va := by
  rw [firstFlags, List.find?_cons]
  by_cases h : r.Contains va
  · rw [decide_eq_true h, if_pos h]
    rfl
  · rw [decide_eq_false h, if_neg h]
    rfl

/-- A section has the flags of the first range it lies in. -/
lemma KernelTbl.flags_eq (K : KernelTbl) (va : Word) : K.flags va = firstFlags K.ranges va := by
  cases K with
  | amp kramArea uramArea kheapArea spBottom =>
      simp only [ranges, firstFlags_cons]
      rfl
  | smp kramArea uramArea kheapArea spBottom numCpu =>
      have hlast : Range.Contains ⟨PERIPH_LIMIT.toNat + 1, 2 ^ 32,
          SHAREABLE_DEV ||| FLD_FULL_ACCESS⟩ va ↔ va > PERIPH_LIMIT :=
        and_iff_left va.isLt
      simp only [ranges, firstFlags_cons, hlast]
      rfl

lemma firstFlags_eq_none {rs : List Range} {va : Word} :
    firstFlags rs va = none ↔ ∀ r ∈ rs, ¬ r.Contains va := by
  simp [firstFlags]

lemma exists_of_firstFlags {rs : List Range} {va flags : Word}
    (h : firstFlags rs va = some flags) : ∃ r ∈ rs, r.Contains va ∧ r.flags = flags := by
  rw [firstFlags, Option.map_eq_some_iff] at h
  obtain ⟨r, hr, heq⟩ := h
  have hin := List.find?_some hr
  exact ⟨r, List.mem_of_find?_eq_some hr, of_decide_eq_true hin, heq⟩

lemma firstFlags_append {pre post : List Range} {r : Range} {va : Word}
    (hpre : ∀ q ∈ pre, ¬ q.Contains va) (hr : r.Contains va) :
    firstFlags (pre ++ r :: post) va = some r.flags := by
  induction pre with
  | nil => rw [List.nil_append, firstFlags_cons, if_pos hr]
  | cons q pre ih =>
      obtain ⟨hq, hrest⟩ := List.forall_mem_cons.mp hpre
      rw [List.cons_append, firstFlags_cons, if_neg hq, ih hrest]

/-! ## The stores of a table builder -/

/-- The 4096 words of the table at `ttba`, upwards. -/
def tableWords (ttba : Word) : List Word :=
  (List.range 4096).map fun i => ttba + 4 * .ofNat 32 i

/-- The table builder with the body `entry` makes one store to each word of the table at `ttba`,
and no other: every pass is one store, at an address and of a value that do not depend on what
was stored before. -/
def FillsOnce (entry : Word → Mem → Mem) (ttba : Word) (m m' : Mem) : Prop :=
  ∃ addr value : Word → Word, (∀ va m, entry va m = m.write (addr va) (value va)) ∧
    ∃ passes, Loop.Trace (tblPass entry) (m, 0) passes m' ∧
      passes.map (fun s => addr s.2) = tableWords ttba

section Stores

variable {ttba : Word}

lemma l1descpa_sectionBase (halign : 2 ^ 14 ∣ ttba.toNat) {i : ℕ} (hi : i < 4096) :
    l1descpa (sectionBase i) ttba = ttba + 4 * .ofNat 32 i := by
  obtain ⟨k, hk⟩ := halign
  apply BitVec.eq_of_toNat_eq
  rw [l1descpa_toNat ⟨k, hk⟩, sectionBase_toNat hi, BitVec.toNat_add, BitVec.toNat_mul,
    BitVec.toNat_ofNat, show (4 : Word).toNat = 4 from rfl]
  omega

lemma tableWords_eq (halign : 2 ^ 14 ∣ ttba.toNat) :
    tableWords ttba = (List.range 4096).map fun i => l1descpa (sectionBase i) ttba := by
  rw [tableWords]
  refine List.map_congr_left fun i hi => ?_
  rw [l1descpa_sectionBase halign (List.mem_range.mp hi)]

/-- The words of a table are the aligned addresses of its 16KB. -/
lemma mem_tableWords (halign : 2 ^ 14 ∣ ttba.toNat) {a : Word} :
    a ∈ tableWords ttba ↔
      4 ∣ a.toNat ∧ ttba.toNat ≤ a.toNat ∧ a.toNat < ttba.toNat + 2 ^ 14 := by
  obtain ⟨k, hk⟩ := halign
  rw [tableWords, List.mem_map]
  have hnat : ∀ i < 4096, (ttba + 4 * BitVec.ofNat 32 i).toNat = ttba.toNat + 4 * i := by
    intro i hi
    rw [BitVec.toNat_add, BitVec.toNat_mul, BitVec.toNat_ofNat, show (4 : Word).toNat = 4 from rfl]
    omega
  constructor
  · rintro ⟨i, hi, rfl⟩
    rw [List.mem_range] at hi
    rw [hnat i hi]
    omega
  · rintro ⟨⟨j, hj⟩, hlow, hhigh⟩
    refine ⟨j - ttba.toNat / 4, List.mem_range.mpr (by omega), BitVec.eq_of_toNat_eq ?_⟩
    rw [hnat _ (by omega)]
    omega

/-- A table builder whose entries are single writes fills its table once. -/
lemma fillsOnce {entry : Word → Mem → Mem} {desc : Word → Word}
    (hentry : ∀ va m, entry va m = m.write (l1descpa va ttba) (desc va))
    (halign : 2 ^ 14 ∣ ttba.toNat) {m m' : Mem}
    (hrun : Loop.run (tblPass entry) 4096 (m, 0) = some m') : FillsOnce entry ttba m m' := by
  obtain ⟨passes, htrace, hpasses⟩ := trace_tblPass hentry 4095 (by omega) m
  refine ⟨fun va => l1descpa va ttba, desc, hentry, passes, ?_, ?_⟩
  · have hsame := Loop.Returns.unique ⟨4096, hrun⟩ ⟨passes.length, htrace.run⟩
    rw [hsame]
    exact htrace
  · have hvas := congrArg (List.map fun va => l1descpa va ttba) hpasses
    rw [List.map_map, List.map_map] at hvas
    rw [tableWords_eq halign, List.range_eq_range']
    exact hvas

end Stores

/-! ## The tables of tasks -/

/-- The descriptors of `cre_usr_tbl` map a section to itself, or fault. -/
lemma usrDesc_cases (ttba va : Word) :
    (∃ flags, AttributesOnly flags ∧ usrDesc ttba va = sectionDesc va flags) ∨
      usrDesc ttba va = (va &&& FLD_SBA_MASK) ||| FLD_FAULT_TYPE := by
  unfold usrDesc
  split_ifs with heq
  · rw [← heq]
    exact .inl ⟨_, by decide, rfl⟩
  · exact .inl ⟨_, by decide, rfl⟩
  · exact .inl ⟨_, by decide, rfl⟩
  · exact .inl ⟨_, by decide, rfl⟩
  · exact .inr rfl

/-- `cre_usr_tbl` terminates, and its table maps what it maps to itself. -/
lemma creUsrTbl_identity {ttba : Word} (halign : 2 ^ 14 ∣ ttba.toNat) (m : Mem) :
    ∃ m', creUsrTbl 4096 ttba m = some m' ∧ FillsOnce (creUsrEntry ttba) ttba m m' ∧
      ∀ va, walk m' ttba va = .fault ∨ walk m' ttba va = .section va := by
  obtain ⟨m', hrun, hdesc, -⟩ := tblPass_spec (creUsrEntry_eq ttba) halign m
  refine ⟨m', hrun, fillsOnce (creUsrEntry_eq ttba) halign hrun, fun va => ?_⟩
  have hva := hdesc va
  obtain ⟨flags, hattr, hflags⟩ | hfault := usrDesc_cases ttba (sectionOf va)
  · exact .inr (walk_sectionDesc hattr (hva.trans hflags))
  · exact .inl (walk_faultDesc (hva.trans hfault))

/-! ## The tables of kernels -/

/-- What `mmu_section` takes from the flags. -/
def ATTRIBUTES : Word := ~~~ (FLD_SBA_MASK ||| FLD_TYPE_MASK)

lemma AttributesOnly.attributes {flags : Word} (h : AttributesOnly flags) (va : Word) :
    sectionDesc va flags &&& ATTRIBUTES = flags := by
  rw [sectionDesc_and (by decide) (by decide)]
  have hsplit := and_or_and_not flags (FLD_SBA_MASK ||| FLD_TYPE_MASK)
  rwa [BitVec.and_or_distrib_left, h.base, h.type, show (0 : Word) ||| 0 = 0#32 from rfl,
    BitVec.zero_or] at hsplit

section Kernels

variable {K : KernelTbl} {m : Mem} {ttba va : Word}

lemma KernelTbl.Holds.identity (h : K.Holds m ttba) (va : Word) :
    Mmu.walk m ttba va = .fault ∨ Mmu.walk m ttba va = .section va := by
  rw [h.walk]
  split_ifs
  · exact .inr rfl
  · exact .inl rfl

/-- A section is mapped when it lies in a range of the chain. -/
lemma KernelTbl.Holds.walk_section_iff (h : K.Holds m ttba) :
    Mmu.walk m ttba va = .section va ↔ ∃ r ∈ K.ranges, r.Contains (sectionOf va) := by
  rw [h.walk, K.flags_eq]
  cases hflags : firstFlags K.ranges (sectionOf va) with
  | none =>
      refine iff_of_false (by simp) ?_
      rintro ⟨r, hr, hin⟩
      exact firstFlags_eq_none.mp hflags r hr hin
  | some flags =>
      obtain ⟨r, hr, hin, -⟩ := exists_of_firstFlags hflags
      exact iff_of_true rfl ⟨r, hr, hin⟩

/-- A section has the attributes of the first range it lies in. -/
lemma KernelTbl.Holds.attributes (h : K.Holds m ttba) {pre post : List Range} {r : Range}
    (hsplit : K.ranges = pre ++ r :: post) (hpre : ∀ q ∈ pre, ¬ q.Contains (sectionOf va))
    (hr : r.Contains (sectionOf va)) : m (l1descpa va ttba) &&& ATTRIBUTES = r.flags := by
  have hflags : K.flags (sectionOf va) = some r.flags := by
    rw [K.flags_eq, hsplit]
    exact firstFlags_append hpre hr
  rw [h va, KernelTbl.desc, hflags]
  exact (KernelTbl.attributesOnly hflags).attributes _

end Kernels

/-- **Identity tables.**  For every table address that is a multiple of 16KB, all areas and every
stack: `amp_tbl_setup`, `smp_tbl_setup` and `cre_usr_tbl` come to an end after one store to each
of the 4096 words of the table and no other store, and the table they leave translates an address
to itself or faults on it.  In the table of `amp_tbl_setup` an address is translated exactly when
the base of its section is in one of the seven ranges, and its descriptor has the attributes of
the first of them; the window of the stack is the section at `sp_bottom`, if that does not wrap
around. -/
theorem table_builders_identity {ttba : Word} (halign : 2 ^ 14 ∣ ttba.toNat) (m : Mem) :
    ((tableWords ttba).Nodup ∧ ∀ a, a ∈ tableWords ttba ↔
      4 ∣ a.toNat ∧ ttba.toNat ≤ a.toNat ∧ a.toNat < ttba.toNat + 2 ^ 14) ∧
    (∀ K : KernelTbl, ∃ m', K.setup 4096 ttba m = some m' ∧ FillsOnce (K.entry ttba) ttba m m' ∧
      ∀ va, walk m' ttba va = .fault ∨ walk m' ttba va = .section va) ∧
    (∃ m', creUsrTbl 4096 ttba m = some m' ∧ FillsOnce (creUsrEntry ttba) ttba m m' ∧
      ∀ va, walk m' ttba va = .fault ∨ walk m' ttba va = .section va) ∧
    ∀ kramArea uramArea kheapArea spBottom,
      let amp := KernelTbl.amp kramArea uramArea kheapArea spBottom
      (spBottom.toNat + 2 ^ 20 < 2 ^ 32 →
        (spBottom + SECTION_SIZE).toNat = spBottom.toNat + 2 ^ 20) ∧
      ∃ m', amp.setup 4096 ttba m = some m' ∧
        (∀ va, walk m' ttba va = .section va ↔ ∃ r ∈ amp.ranges, r.Contains (sectionOf va)) ∧
        ∀ va pre r post, amp.ranges = pre ++ r :: post →
          (∀ q ∈ pre, ¬ q.Contains (sectionOf va)) → r.Contains (sectionOf va) →
          m' (l1descpa va ttba) &&& ATTRIBUTES = r.flags := by
  refine ⟨⟨?_, fun a => mem_tableWords halign⟩, fun K => ?_, creUsrTbl_identity halign m, ?_⟩
  · rw [tableWords_eq halign]
    exact nodup_l1descpa halign
  · obtain ⟨m', hrun, hholds, -⟩ := K.setup_spec halign m
    exact ⟨m', hrun, fillsOnce (K.entry_eq ttba) halign hrun, hholds.identity⟩
  · intro kramArea uramArea kheapArea spBottom
    refine ⟨fun hstack => ?_, ?_⟩
    · rw [BitVec.toNat_add, show SECTION_SIZE.toNat = 2 ^ 20 from rfl, Nat.mod_eq_of_lt hstack]
    · obtain ⟨m', hrun, hholds, -⟩ :=
        (KernelTbl.amp kramArea uramArea kheapArea spBottom).setup_spec halign m
      exact ⟨m', hrun, fun va => hholds.walk_section_iff, fun va pre r post => hholds.attributes⟩

/-- The tables at the address of the first table the kernel builds. -/
theorem table_builders_identity_base : ∃ m',
    creUsrTbl 4096 TTBA_BASE (fun _ => 0) = some m' ∧
      FillsOnce (creUsrEntry TTBA_BASE) TTBA_BASE (fun _ => 0) m' ∧
      ∀ va, walk m' TTBA_BASE va = .fault ∨ walk m' TTBA_BASE va = .section va := by
  have halign : 2 ^ 14 ∣ TTBA_BASE.toNat := by decide
  exact (table_builders_identity halign fun _ => 0).2.2.1

end Mmu

end Rpi2Baremetal
