import Rpi2Baremetal.Properties.KernelTables
import Rpi2Baremetal.Properties.SysinfoLookup

/-!
# Isolation between kernels

Two kernels whose areas and stacks are disjoint have tables in which each is mapped and the
other faults.  The kernels that are active together under a valid mode are such kernels.
-/

namespace Rpi2Baremetal

open Framework

/-- An area of whole sections. -/
structure Area.Sections (a : Area) : Prop where
  bottom : 2 ^ 20 ∣ a.bottom.toNat
  limit : 2 ^ 20 ∣ a.limit.toNat + 1

instance (a : Area) : Decidable a.Sections :=
  decidable_of_iff (2 ^ 20 ∣ a.bottom.toNat ∧ 2 ^ 20 ∣ a.limit.toNat + 1)
    ⟨fun h => ⟨h.1, h.2⟩, fun h => ⟨h.bottom, h.limit⟩⟩

namespace Mmu

namespace KernelTbl

/-- Kernel RAM, kernel heap and user RAM. -/
def areas : KernelTbl → List Area
  | amp kramArea uramArea kheapArea _ => [kramArea, kheapArea, uramArea]
  | smp kramArea uramArea kheapArea _ _ => [kramArea, kheapArea, uramArea]

def spBottom : KernelTbl → Word
  | amp _ _ _ spBottom => spBottom
  | smp _ _ _ spBottom _ => spBottom

/-- The number of stack sections, one for each core. -/
def stackSections : KernelTbl → Word
  | amp _ _ _ _ => 1
  | smp _ _ _ _ numCpu => numCpu

/-- The areas consist of sections between the shared ones and the peripherals, and so do the
stacks between `SP_BASE` and the shared sections. -/
structure Valid (K : KernelTbl) : Prop where
  areas : ∀ a ∈ K.areas, a.Sections ∧ SHARED_LIMIT ≤ a.bottom ∧ a.limit < PERIPH_BOTTOM
  stack : 2 ^ 20 ∣ K.spBottom.toNat
  stack_bottom : SP_BASE ≤ K.spBottom
  stack_limit : K.spBottom.toNat + 2 ^ 20 * K.stackSections.toNat ≤ SHARED_BOTTOM.toNat

/-- The address is in a stack section. -/
def InStack (K : KernelTbl) (va : Word) : Prop :=
  K.spBottom.toNat ≤ va.toNat ∧ va.toNat < K.spBottom.toNat + 2 ^ 20 * K.stackSections.toNat

/-- The address is in a private area or in a stack section. -/
def Private (K : KernelTbl) (va : Word) : Prop :=
  K.InStack va ∨ ∃ a ∈ K.areas, a.Contains va

/-- Every section of one kernel is mapped in its table and faults in the other's, and what is
mapped in both is shared. -/
structure Isolated (m : Mem) (ttba : Word) (K : KernelTbl) (ttba' : Word) (K' : KernelTbl) :
    Prop where
  fst : ∀ va, K.Private va → walk m ttba va = .section va ∧ walk m ttba' va = .fault
  snd : ∀ va, K'.Private va → walk m ttba' va = .section va ∧ walk m ttba va = .fault
  shared : ∀ va, walk m ttba va ≠ .fault → walk m ttba' va ≠ .fault →
    va < SP_BASE ∨ SHARED_BOTTOM ≤ va ∧ va < SHARED_LIMIT ∨ PERIPH_BOTTOM ≤ va

variable {K K' : KernelTbl} {va : Word}

/-! ## The range tests on whole sections -/

/-- The stack window of the range tests. -/
def stackTest (K : KernelTbl) (va : Word) : Prop :=
  va ≥ K.spBottom ∧ va < K.spBottom + SECTION_SIZE * K.stackSections

lemma section_one : SECTION_SIZE * 1 = SECTION_SIZE := rfl

/-- Where the range tests find nothing, there is neither a stack nor an area. -/
lemma not_private_tests (h : K.flags va = none) :
    ¬ K.stackTest va ∧ ∀ a ∈ K.areas, ¬ (va ≥ a.bottom ∧ va < a.limit) := by
  cases K with
  | amp kramArea uramArea kheapArea spBottom =>
      rw [KernelTbl.flags, ampFlags] at h
      split_ifs at h with h1 h2 h3 h4 h5 h6
      constructor
      · simpa only [stackTest, KernelTbl.spBottom, stackSections, section_one] using h2
      · simp only [KernelTbl.areas, List.forall_mem_cons]
        exact ⟨h4, h5, h6, List.forall_mem_nil _⟩
  | smp kramArea uramArea kheapArea spBottom numCpu =>
      rw [KernelTbl.flags, smpFlags] at h
      split_ifs at h with h1 h2 h3 h4 h5 h6
      refine ⟨h2, ?_⟩
      simp only [KernelTbl.areas, List.forall_mem_cons]
      exact ⟨h4, h5, h6, List.forall_mem_nil _⟩

/-- Between `SP_BASE` and the peripherals the range tests find the stacks, the shared sections
and the areas only. -/
lemma flags_eq_none (hbase : SP_BASE ≤ va) (hstack : ¬ K.stackTest va)
    (hshared : ¬ (va ≥ SHARED_BOTTOM ∧ va < SHARED_LIMIT))
    (hareas : ∀ a ∈ K.areas, ¬ (va ≥ a.bottom ∧ va < a.limit)) (hperiph : va < PERIPH_BOTTOM) :
    K.flags va = none := by
  have hlow : ¬ (va ≥ 0x00000000 ∧ va < SP_BASE) := fun h => BitVec.not_lt.mpr hbase h.2
  have hdev : ¬ (va ≥ PERIPH_BOTTOM ∧ va < PERIPH_LIMIT) := fun h =>
    BitVec.not_lt.mpr h.1 hperiph
  have hhigh : ¬ va > PERIPH_LIMIT := fun h =>
    absurd (Nat.lt_trans h hperiph) (by decide)
  cases K with
  | amp kramArea uramArea kheapArea spBottom =>
      simp only [KernelTbl.areas, List.forall_mem_cons] at hareas
      simp only [stackTest, KernelTbl.spBottom, stackSections, section_one] at hstack
      rw [KernelTbl.flags, ampFlags, if_neg hlow, if_neg hstack, if_neg hshared,
        if_neg hareas.1, if_neg hareas.2.1, if_neg hareas.2.2.1, if_neg hdev]
  | smp kramArea uramArea kheapArea spBottom numCpu =>
      simp only [KernelTbl.areas, List.forall_mem_cons] at hareas
      simp only [stackTest, KernelTbl.spBottom, stackSections] at hstack
      rw [KernelTbl.flags, smpFlags, if_neg hlow, if_neg hstack, if_neg hshared,
        if_neg hareas.1, if_neg hareas.2.1, if_neg hareas.2.2.1, if_neg hdev, if_neg hhigh]

/-- On whole sections the exclusive limit of the tests is as good as an inclusive one. -/
lemma contains_iff {a : Area} (ha : a.Sections) (va : Word) :
    a.Contains va ↔ sectionOf va ≥ a.bottom ∧ sectionOf va < a.limit := by
  obtain ⟨k, hk⟩ := ha.bottom
  obtain ⟨l, hl⟩ := ha.limit
  rw [Area.Contains, ge_iff_le, BitVec.le_def, BitVec.le_def, BitVec.le_def, BitVec.lt_def,
    sectionOf_toNat]
  omega

lemma Valid.inStack_iff (h : K.Valid) (va : Word) : K.InStack va ↔ K.stackTest (sectionOf va) := by
  obtain ⟨k, hk⟩ := h.stack
  have hlimit := h.stack_limit
  have hshared : SHARED_BOTTOM.toNat = 0x500000 := rfl
  have hsize : (SECTION_SIZE * K.stackSections).toNat = 2 ^ 20 * K.stackSections.toNat := by
    rw [BitVec.toNat_mul, show SECTION_SIZE.toNat = 2 ^ 20 from rfl, Nat.mod_eq_of_lt (by omega)]
  rw [InStack, stackTest, ge_iff_le, BitVec.le_def, BitVec.lt_def, BitVec.toNat_add, hsize,
    sectionOf_toNat, Nat.mod_eq_of_lt (by omega)]
  omega

lemma Valid.private_iff (h : K.Valid) (va : Word) :
    K.Private va ↔ K.stackTest (sectionOf va) ∨
      ∃ a ∈ K.areas, sectionOf va ≥ a.bottom ∧ sectionOf va < a.limit := by
  rw [Private, h.inStack_iff]
  exact or_congr_right (exists_congr fun a => and_congr_right fun ha =>
    contains_iff (h.areas a ha).1 va)

/-- What is private lies above `SP_BASE`, below the peripherals and outside the shared
sections. -/
lemma Valid.bounds (h : K.Valid) (hva : K.Private va) :
    ¬ va < SP_BASE ∧ ¬ (SHARED_BOTTOM ≤ va ∧ va < SHARED_LIMIT) ∧ va < PERIPH_BOTTOM := by
  have hbase : SP_BASE.toNat = 0x100000 := rfl
  have hbottom : SHARED_BOTTOM.toNat = 0x500000 := rfl
  have hlimit : SHARED_LIMIT.toNat = 0x1F000000 := rfl
  have hperiph : PERIPH_BOTTOM.toNat = 0x3F000000 := rfl
  simp only [BitVec.lt_def, BitVec.le_def]
  rcases hva with hstack | ⟨a, ha, hmem⟩
  · have hlo : SP_BASE.toNat ≤ K.spBottom.toNat := h.stack_bottom
    have hhi := h.stack_limit
    obtain ⟨h1, h2⟩ := hstack
    omega
  · obtain ⟨-, hlo, hhi⟩ := h.areas a ha
    rw [BitVec.le_def] at hlo
    rw [BitVec.lt_def] at hhi
    obtain ⟨h1, h2⟩ := hmem
    rw [BitVec.le_def] at h1 h2
    omega

/-! ## The walks -/

variable {m : Mem} {ttba ttba' : Word}

/-- What is private to a kernel is mapped in its table. -/
lemma Holds.walk_private (h : K.Holds m ttba) (hK : K.Valid) (hva : K.Private va) :
    Mmu.walk m ttba va = .section va := by
  cases hflags : K.flags (sectionOf va) with
  | some flags => exact h.walk_section hflags
  | none =>
      obtain ⟨hstack, hareas⟩ := not_private_tests hflags
      rcases (hK.private_iff va).mp hva with hin | ⟨a, ha, hin⟩
      · exact absurd hin hstack
      · exact absurd hin (hareas a ha)

/-- The table of a kernel faults on what is neither private to it nor shared. -/
lemma Holds.walk_other (h : K.Holds m ttba) (hK : K.Valid) (hva : ¬ K.Private va)
    (hbase : ¬ va < SP_BASE) (hshared : ¬ (SHARED_BOTTOM ≤ va ∧ va < SHARED_LIMIT))
    (hperiph : va < PERIPH_BOTTOM) : Mmu.walk m ttba va = .fault := by
  rw [hK.private_iff] at hva
  obtain ⟨hstack, hareas⟩ := not_or.mp hva
  have h1 : SP_BASE.toNat = 0x100000 := rfl
  have h2 : SHARED_BOTTOM.toNat = 0x500000 := rfl
  have h3 : SHARED_LIMIT.toNat = 0x1F000000 := rfl
  have h4 : PERIPH_BOTTOM.toNat = 0x3F000000 := rfl
  simp only [BitVec.lt_def, BitVec.le_def] at hbase hshared hperiph
  rw [h.walk_fault]
  refine flags_eq_none ?_ hstack ?_ (fun a ha hin => hareas ⟨a, ha, hin⟩) ?_
  all_goals
    simp only [ge_iff_le, BitVec.lt_def, BitVec.le_def, sectionOf_toNat]
    omega

/-- Two kernels with nothing private in common are isolated in any memory that holds both
tables. -/
lemma isolated_of_holds (h : K.Holds m ttba) (h' : K'.Holds m ttba') (hK : K.Valid)
    (hK' : K'.Valid) (hdisjoint : ∀ va, ¬ (K.Private va ∧ K'.Private va)) :
    Isolated m ttba K ttba' K' := by
  refine ⟨fun va hva => ⟨h.walk_private hK hva, ?_⟩, fun va hva => ⟨h'.walk_private hK' hva, ?_⟩,
    fun va hmap hmap' => ?_⟩
  · obtain ⟨h1, h2, h3⟩ := hK.bounds hva
    exact h'.walk_other hK' (fun hva' => hdisjoint va ⟨hva, hva'⟩) h1 h2 h3
  · obtain ⟨h1, h2, h3⟩ := hK'.bounds hva
    exact h.walk_other hK (fun hva' => hdisjoint va ⟨hva', hva⟩) h1 h2 h3
  · by_contra hno
    simp only [not_or] at hno
    obtain ⟨h1, h2, h3⟩ := hno
    have h4 := BitVec.not_le.mp h3
    by_cases hva : K.Private va
    · exact hmap' (h'.walk_other hK' (fun hva' => hdisjoint va ⟨hva, hva'⟩) h1 h2 h4)
    · exact hmap (h.walk_other hK hva h1 h2 h4)

/-! ## The kernels of `init_ttbs` -/

/-- The kernel of an entry of `SYSStructTop`. -/
def ofEntry (i : Fin NUM_SYS_STRUCT) : KernelTbl :=
  if i.val < 4 then
    .amp (kramAreas i) (uramAreas i) (kheapAreas i) (SP_BASE + SECTION_SIZE * .ofNat 32 i)
  else .smp (kramAreas i) (uramAreas i) (kheapAreas i) SP_BASE (.ofNat 32 (8 - i))

lemma initTtbsCall_eq (baseTtba : Word) (i : Fin NUM_SYS_STRUCT) :
    initTtbsCall (initSysinfos baseTtba) i = some (ofEntry i) := by
  fin_cases i <;> rfl

/-- The cores of the kernel of an entry. -/
def coresOf (i : Fin NUM_SYS_STRUCT) : Finset ℕ :=
  if i.val < 4 then {i.val} else Finset.range (8 - i)

/-- Under a valid mode an SMP core runs the kernel of all SMP cores, an AMP core one of its
own. -/
lemma coresOf_entry {cpuid pm : Word} (h : ValidPair cpuid pm) :
    ∃ i, getSysStructInfo cpuid pm = some i ∧
      coresOf i = if cpuid.toNat ∈ smpCores pm then smpCores pm else {cpuid.toNat} := by
  rw [smpCores_coreBits]
  exact getSysStructInfo_cases
    (P := fun cpuid pm r => ∃ i, r = some i ∧
      coresOf i = if cpuid.toNat ∈ smpCores pm then smpCores pm else {cpuid.toNat})
    (by decide) h.1 ((isValidPm_iff pm).mpr h.2)

/-- The stacks and the areas of a kernel, from the first address to the one after the last. -/
def regions (K : KernelTbl) : List (ℕ × ℕ) :=
  (K.spBottom.toNat, K.spBottom.toNat + 2 ^ 20 * K.stackSections.toNat) ::
    K.areas.map fun a => (a.bottom.toNat, a.limit.toNat + 1)

lemma private_iff_regions (va : Word) :
    K.Private va ↔ ∃ r ∈ K.regions, r.1 ≤ va.toNat ∧ va.toNat < r.2 := by
  simp only [Private, InStack, regions, List.exists_mem_cons_iff, List.mem_map,
    exists_exists_and_eq_and, Area.Contains, BitVec.le_def, Nat.lt_succ_iff]

lemma disjoint_of_regions
    (h : ∀ r ∈ K.regions, ∀ r' ∈ K'.regions, r.2 ≤ r'.1 ∨ r'.2 ≤ r.1) (va : Word) :
    ¬ (K.Private va ∧ K'.Private va) := by
  rw [private_iff_regions, private_iff_regions]
  rintro ⟨⟨r, hr, h1, h2⟩, ⟨r', hr', h3, h4⟩⟩
  rcases h r hr r' hr' with hle | hle <;> omega

lemma ofEntry_valid (i : Fin NUM_SYS_STRUCT) : (ofEntry i).Valid := by
  have hareas : ∀ i, ∀ a ∈ (ofEntry i).areas,
      a.Sections ∧ SHARED_LIMIT ≤ a.bottom ∧ a.limit < PERIPH_BOTTOM := by decide
  have hstack : ∀ i, 2 ^ 20 ∣ (ofEntry i).spBottom.toNat ∧ SP_BASE ≤ (ofEntry i).spBottom ∧
      (ofEntry i).spBottom.toNat + 2 ^ 20 * (ofEntry i).stackSections.toNat
        ≤ SHARED_BOTTOM.toNat := by decide
  exact ⟨hareas i, (hstack i).1, (hstack i).2.1, (hstack i).2.2⟩

/-- Kernels of different cores have nothing private in common. -/
lemma ofEntry_disjoint {i i' : Fin NUM_SYS_STRUCT} (h : Disjoint (coresOf i) (coresOf i'))
    (va : Word) : ¬ ((ofEntry i).Private va ∧ (ofEntry i').Private va) := by
  have hall : ∀ i i', Disjoint (coresOf i) (coresOf i') → ∀ r ∈ (ofEntry i).regions,
      ∀ r' ∈ (ofEntry i').regions, r.2 ≤ r'.1 ∨ r'.2 ≤ r.1 := by decide
  exact disjoint_of_regions (hall i i' h) va

/-- Two kernels active together run on different cores. -/
lemma coresOf_disjoint {cpuid cpuid' pm : Word} {i i' : Fin NUM_SYS_STRUCT}
    (h : ValidPair cpuid pm) (h' : ValidPair cpuid' pm)
    (hi : getSysStructInfo cpuid pm = some i) (hi' : getSysStructInfo cpuid' pm = some i')
    (hne : i ≠ i') : Disjoint (coresOf i) (coresOf i') := by
  obtain ⟨j, hj, hcores⟩ := coresOf_entry h
  obtain rfl := Option.some.inj (hi.symm.trans hj)
  obtain ⟨j', hj', hcores'⟩ := coresOf_entry h'
  obtain rfl := Option.some.inj (hi'.symm.trans hj')
  have hcpuid : cpuid ≠ cpuid' := by
    rintro rfl
    exact hne (Option.some.inj (hi.symm.trans hi'))
  have hnat : cpuid.toNat ≠ cpuid'.toNat := fun heq => hcpuid (BitVec.eq_of_toNat_eq heq)
  rw [hcores, hcores']
  by_cases hm : cpuid.toNat ∈ smpCores pm <;> by_cases hm' : cpuid'.toNat ∈ smpCores pm
  · -- both are SMP cores, which share an entry
    have hshared := ((EntryExact.of_some h hi).shared cpuid' h' hcpuid.symm).mpr ⟨hm, hm'⟩
    rw [lookupSysStructInfo_iff, hi'] at hshared
    exact absurd (Option.some.inj hshared).symm hne
  · rw [if_pos hm, if_neg hm']
    exact Finset.disjoint_singleton_right.mpr hm'
  · rw [if_neg hm, if_pos hm']
    exact Finset.disjoint_singleton_left.mpr hm
  · rw [if_neg hm, if_neg hm']
    exact Finset.disjoint_singleton.mpr hnat

/-- The tables of `init_ttbs` are at different multiples of 16KB. -/
lemma ttba_entries : (∀ i, 2 ^ 14 ∣ (initSysinfos TTBA_BASE i).ttba.toNat) ∧
    ∀ i i', i ≠ i' → (initSysinfos TTBA_BASE i).ttba ≠ (initSysinfos TTBA_BASE i').ttba := by
  decide

/-! ## `init_ttbs` -/

/-- The address of the table of an entry. -/
def tableAt (i : ℕ) : Word := TTBA_BASE + SECTION_TBL_SIZE * .ofNat 32 i

lemma tableAt_succ (i : ℕ) : tableAt (i + 1) = tableAt i + SECTION_TBL_SIZE := by
  unfold tableAt
  rw [BitVec.ofNat_add, BitVec.mul_add, BitVec.add_assoc]
  rfl

lemma ttba_initSysinfos (i : Fin NUM_SYS_STRUCT) : (initSysinfos TTBA_BASE i).ttba = tableAt i := by
  fin_cases i <;> rfl

lemma tableAt_aligned (i : Fin NUM_SYS_STRUCT) : 2 ^ 14 ∣ (tableAt i).toNat := by
  rw [← ttba_initSysinfos]
  exact ttba_entries.1 i

lemma tableAt_ne {i i' : Fin NUM_SYS_STRUCT} (h : i ≠ i') : tableAt i ≠ tableAt i' := by
  rw [← ttba_initSysinfos, ← ttba_initSysinfos]
  exact ttba_entries.2 i i' h

/-- The last passes of `init_ttbs` fill the tables they are for and leave any other alone. -/
lemma initTtbsFrom_spec {j n : ℕ} (hj : j + n = NUM_SYS_STRUCT) (m : Mem) :
    ∃ m', initTtbsFrom 4096 (initSysinfos TTBA_BASE) (List.range' j n) (tableAt j) m = some m' ∧
      (∀ i : Fin NUM_SYS_STRUCT, j ≤ i.val → (ofEntry i).Holds m' (tableAt i)) ∧
      ∀ (K : KernelTbl) (ttba : Word), 2 ^ 14 ∣ ttba.toNat →
        (∀ i : Fin NUM_SYS_STRUCT, j ≤ i.val → ttba ≠ tableAt i) →
        K.Holds m ttba → K.Holds m' ttba := by
  induction n generalizing j m with
  | zero =>
      refine ⟨m, rfl, fun i hi => ?_, fun K ttba _ _ h => h⟩
      exact absurd i.isLt (by omega)
  | succ n ih =>
      obtain ⟨first, rfl⟩ : ∃ first : Fin NUM_SYS_STRUCT, first.val = j := ⟨⟨j, by omega⟩, rfl⟩
      have halign := tableAt_aligned first
      have hne : ∀ i : Fin NUM_SYS_STRUCT, first.val + 1 ≤ i.val → tableAt first ≠ tableAt i := by
        intro i hi
        apply tableAt_ne
        rintro rfl
        omega
      obtain ⟨m₁, hrun, hholds, -⟩ := (ofEntry first).setup_spec halign m
      obtain ⟨m', hrun', hholds', hkept⟩ := ih (j := first + 1) (by omega) m₁
      refine ⟨m', ?_, fun i hi => ?_, fun K ttba hK hother h => ?_⟩
      · rw [List.range'_succ, initTtbsFrom, initTtbsCall_eq]
        simp only [Option.bind_eq_bind, Option.bind_some, hrun, ← tableAt_succ]
        exact hrun'
      · by_cases hfirst : i = first
        · rw [hfirst]
          exact hkept _ _ halign hne hholds
        · apply hholds' i
          have hval := Fin.val_ne_of_ne hfirst
          omega
      · apply hkept K ttba hK fun i hi => hother i (by omega)
        exact h.setup hK halign (hother first le_rfl) hrun

/-- `init_ttbs` fills the table of every entry. -/
lemma initTtbs_spec (m : Mem) :
    ∃ m', initTtbs 4096 (initSysinfos TTBA_BASE) TTBA_BASE m = some m' ∧
      ∀ i : Fin NUM_SYS_STRUCT, (ofEntry i).Holds m' (initSysinfos TTBA_BASE i).ttba := by
  obtain ⟨m', hrun, hholds, -⟩ := initTtbsFrom_spec (Nat.zero_add NUM_SYS_STRUCT) m
  refine ⟨m', ?_, fun i => ?_⟩
  · rw [initTtbs, List.range_eq_range']
    exact hrun
  · rw [ttba_initSysinfos]
    exact hholds i (Nat.zero_le _)

/-- After `init_ttbs` any two kernels that are active together are isolated. -/
theorem initTtbs_isolates (m : Mem) :
    ∃ m', initTtbs 4096 (initSysinfos TTBA_BASE) TTBA_BASE m = some m' ∧
      ∀ (cpuid cpuid' pm : Word) (i i' : Fin NUM_SYS_STRUCT), ValidPair cpuid pm →
        ValidPair cpuid' pm → getSysStructInfo cpuid pm = some i →
        getSysStructInfo cpuid' pm = some i' → i ≠ i' →
        Isolated m' (initSysinfos TTBA_BASE i).ttba (ofEntry i)
          (initSysinfos TTBA_BASE i').ttba (ofEntry i') := by
  obtain ⟨m', hrun, hholds⟩ := initTtbs_spec m
  refine ⟨m', hrun, fun cpuid cpuid' pm i i' h h' hi hi' hne => ?_⟩
  apply isolated_of_holds (hholds i) (hholds i') (ofEntry_valid i) (ofEntry_valid i')
  exact ofEntry_disjoint (coresOf_disjoint h h' hi hi' hne)

end KernelTbl

open KernelTbl

/-- **Isolation between kernels.**  Of two kernels with nothing private in common and tables at
different multiples of 16KB, both tables can be built in either order, and then isolate the
kernels.  Any two kernels that are active together under a valid mode are such kernels, with the
tables and the arguments of `init_ttbs`. -/
theorem kernels_isolated :
    (∀ (K K' : KernelTbl) (ttba ttba' : Word) (m : Mem), K.Valid → K'.Valid →
      (∀ va, ¬ (K.Private va ∧ K'.Private va)) →
      2 ^ 14 ∣ ttba.toNat → 2 ^ 14 ∣ ttba'.toNat → ttba ≠ ttba' →
      (∃ m₁ m₂, K.setup 4096 ttba m = some m₁ ∧ K'.setup 4096 ttba' m₁ = some m₂ ∧
        Isolated m₂ ttba K ttba' K') ∧
      (∃ m₁ m₂, K'.setup 4096 ttba' m = some m₁ ∧ K.setup 4096 ttba m₁ = some m₂ ∧
        Isolated m₂ ttba K ttba' K')) ∧
    ∀ (cpuid cpuid' pm : Word) (i i' : Fin NUM_SYS_STRUCT), cpuid < 4 → cpuid' < 4 →
      isValidPm pm = true → getSysStructInfo cpuid pm = some i →
      getSysStructInfo cpuid' pm = some i' → i ≠ i' →
      ∃ K K', initTtbsCall (initSysinfos TTBA_BASE) i = some K ∧
        initTtbsCall (initSysinfos TTBA_BASE) i' = some K' ∧ K.Valid ∧ K'.Valid ∧
        (∀ va, ¬ (K.Private va ∧ K'.Private va)) ∧
        2 ^ 14 ∣ (initSysinfos TTBA_BASE i).ttba.toNat ∧
        2 ^ 14 ∣ (initSysinfos TTBA_BASE i').ttba.toNat ∧
        (initSysinfos TTBA_BASE i).ttba ≠ (initSysinfos TTBA_BASE i').ttba := by
  constructor
  · intro K K' ttba ttba' m hK hK' hdisjoint halign halign' hne
    constructor
    · obtain ⟨m₁, hrun, hholds, -⟩ := K.setup_spec halign m
      obtain ⟨m₂, hrun', hholds', -⟩ := K'.setup_spec halign' m₁
      have hkept := hholds.setup halign halign' hne hrun'
      exact ⟨m₁, m₂, hrun, hrun', isolated_of_holds hkept hholds' hK hK' hdisjoint⟩
    · obtain ⟨m₁, hrun', hholds', -⟩ := K'.setup_spec halign' m
      obtain ⟨m₂, hrun, hholds, -⟩ := K.setup_spec halign m₁
      have hkept := hholds'.setup halign' halign hne.symm hrun
      exact ⟨m₁, m₂, hrun', hrun, isolated_of_holds hholds hkept hK hK' hdisjoint⟩
  · intro cpuid cpuid' pm i i' hc hc' hpm hi hi' hne
    have hpair := (isValidPm_iff pm).mp hpm
    have hcores := coresOf_disjoint ⟨hc, hpair⟩ ⟨hc', hpair⟩ hi hi' hne
    exact ⟨ofEntry i, ofEntry i', initTtbsCall_eq _ i, initTtbsCall_eq _ i', ofEntry_valid i,
      ofEntry_valid i', ofEntry_disjoint hcores, ttba_entries.1 i, ttba_entries.1 i',
      ttba_entries.2 i i' hne⟩

/-- The kernel of the SMP cores 0 to 2 and that of core 3 are isolated. -/
theorem kernels_isolated_threeCores : ∃ K K' m₁ m₂,
    K.setup 4096 0x34000 (fun _ => 0) = some m₁ ∧ K'.setup 4096 0x2C000 m₁ = some m₂ ∧
      Isolated m₂ 0x34000 K 0x2C000 K' := by
  obtain ⟨K, K', -, -, hK, hK', hdisjoint, halign, halign', hne⟩ :=
    kernels_isolated.2 0 3 0x8 5 3 (by decide) (by decide) (by decide) (by decide) (by decide)
      (by decide)
  obtain ⟨⟨m₁, m₂, hrun, hrun', hiso⟩, -⟩ :=
    kernels_isolated.1 K K' _ _ (fun _ => 0) hK hK' hdisjoint halign halign' hne
  exact ⟨K, K', m₁, m₂, hrun, hrun', hiso⟩

end Mmu

end Rpi2Baremetal
