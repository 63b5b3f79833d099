import Rpi2Baremetal.Model.Sysinfo
import Rpi2Baremetal.Properties.TableBuilder

/-!
# Isolation of user address spaces

A task's table should fault on every kernel and user section but the task's own.  The test
`va < ttba` in `cre_usr_tbl` maps everything below the task's base instead, so the table
isolates the task exactly from what lies above it: of two tasks, the one with the higher base
can reach the other.
-/

namespace Rpi2Baremetal

open Framework

namespace Mmu

/-- The base of a task space: a section of user RAM. -/
structure UserBase (ttba : Word) : Prop where
  aligned : 2 ^ 20 ∣ ttba.toNat
  bottom : SMP_USER_RAM_BOTTOM ≤ ttba
  below : ttba < PERIPH_BOTTOM

/-- The address lies in some kernel RAM, kernel heap or user RAM area. -/
def InRam (va : Word) : Prop :=
  ∃ i, (kramAreas i).Contains va ∨ (kheapAreas i).Contains va ∨ (uramAreas i).Contains va

/-- The space of the task with base `ttba`. -/
def InSpace (ttba va : Word) : Prop := ttba ≤ va ∧ va < ttba + SECTION_SIZE

lemma InRam.bounds {va : Word} (h : InRam va) : SHARED_LIMIT ≤ va ∧ va < PERIPH_BOTTOM := by
  have key : ∀ i, ∀ a ∈ [kramAreas i, kheapAreas i, uramAreas i],
      SHARED_LIMIT ≤ a.bottom ∧ a.limit < PERIPH_BOTTOM := by decide
  obtain ⟨i, h | h | h⟩ := h
  · obtain ⟨hb, hl⟩ := key i (kramAreas i) (by simp)
    exact ⟨BitVec.le_trans hb h.1, Nat.lt_of_le_of_lt h.2 hl⟩
  · obtain ⟨hb, hl⟩ := key i (kheapAreas i) (by simp)
    exact ⟨BitVec.le_trans hb h.1, Nat.lt_of_le_of_lt h.2 hl⟩
  · obtain ⟨hb, hl⟩ := key i (uramAreas i) (by simp)
    exact ⟨BitVec.le_trans hb h.1, Nat.lt_of_le_of_lt h.2 hl⟩

lemma UserBase.space_toNat {ttba va : Word} (h : UserBase ttba) :
    InSpace ttba va ↔ ttba.toNat ≤ va.toNat ∧ va.toNat < ttba.toNat + 2 ^ 20 := by
  have hlt : ttba.toNat < 0x3F000000 := h.below
  have hadd : (ttba + SECTION_SIZE).toNat = ttba.toNat + 2 ^ 20 := by
    rw [BitVec.toNat_add, show SECTION_SIZE.toNat = 2 ^ 20 from rfl]
    omega
  rw [InSpace, BitVec.le_def, BitVec.lt_def, hadd]

/-- A task space lies in user RAM. -/
lemma UserBase.inRam {ttba va : Word} (h : UserBase ttba) (hva : InSpace ttba va) :
    InRam va := by
  have hb : 0x24000000 ≤ ttba.toNat := h.bottom
  have hlt : ttba.toNat < 0x3F000000 := h.below
  obtain ⟨k, hk⟩ := h.aligned
  rw [h.space_toNat] at hva
  refine ⟨4, .inr (.inr ⟨?_, ?_⟩)⟩
  · show 0x24000000 ≤ va.toNat
    omega
  · show va.toNat ≤ 0x3EFFFFFF
    omega

/-! ## The descriptors of `cre_usr_tbl` -/

/-- The descriptor `cre_usr_tbl` writes for the section at `va`. -/
def usrDesc (ttba va : Word) : Word :=
  if va = ttba then
    (ttba &&& FLD_SBA_MASK) ||| (SHAREABLE_SECTION ||| WB_WA ||| FLD_FULL_ACCESS)
      ||| FLD_SECTION_TYPE
  else if va < ttba then
    (va &&& FLD_SBA_MASK) ||| (SHAREABLE_SECTION ||| WB_WA ||| FLD_FULL_ACCESS)
      ||| FLD_SECTION_TYPE
  else if va ≥ SHARED_BOTTOM ∧ va < SHARED_LIMIT then
    (va &&& FLD_SBA_MASK) ||| (SHAREABLE_SECTION ||| WT_NWA ||| FLD_FULL_ACCESS)
      ||| FLD_SECTION_TYPE
  else if va ≥ PERIPH_BOTTOM ∧ va < PERIPH_LIMIT then
    (va &&& FLD_SBA_MASK) ||| (SHAREABLE_DEV ||| FLD_FULL_ACCESS) ||| FLD_SECTION_TYPE
  else (va &&& FLD_SBA_MASK) ||| FLD_FAULT_TYPE

lemma creUsrEntry_eq (ttba va : Word) (m : Mem) :
    creUsrEntry ttba va m = m.write (l1descpa va ttba) (usrDesc ttba va) := by
  unfold creUsrEntry usrDesc
  split_ifs <;> rfl

/-- Between the shared sections and the peripherals exactly the sections up to the task's own
are mapped. -/
lemma usrDesc_fault {ttba va : Word} (hlo : SHARED_LIMIT ≤ va) (hhi : va < PERIPH_BOTTOM) :
    usrDesc ttba va &&& FLD_TYPE_MASK = FLD_FAULT_TYPE ↔ ttba < va := by
  have hshared : ¬ (va ≥ SHARED_BOTTOM ∧ va < SHARED_LIMIT) := fun h =>
    BitVec.not_lt.mpr hlo h.2
  have hperiph : ¬ (va ≥ PERIPH_BOTTOM ∧ va < PERIPH_LIMIT) := fun h =>
    BitVec.not_lt.mpr h.1 hhi
  unfold usrDesc
  rw [if_neg hshared, if_neg hperiph]
  split_ifs with heq hlt
  · rw [BitVec.or_assoc, type_desc, heq]
    exact iff_of_false (by decide) (BitVec.lt_irrefl _)
  · rw [BitVec.or_assoc, type_desc]
    exact iff_of_false (by decide) (BitVec.not_lt.mpr (BitVec.le_of_lt hlt))
  · rw [type_desc]
    refine iff_of_true rfl (BitVec.lt_of_le_ne (BitVec.not_lt.mp hlt) (Ne.symm heq))

/-- `cre_usr_tbl` terminates, and its table faults on an address of RAM exactly when the
section of the address is above the task's own. -/
lemma creUsrTbl_spec {ttba : Word} (h : UserBase ttba) (m : Mem) :
    ∃ m', creUsrTbl 4096 ttba m = some m' ∧
      ∀ va, InRam va → (walk m' ttba va = .fault ↔ ttba < sectionOf va) := by
  have halign : 2 ^ 14 ∣ ttba.toNat := Dvd.dvd.trans (by decide) h.aligned
  obtain ⟨m', hrun, hdesc, -⟩ := tblPass_spec (creUsrEntry_eq ttba) halign m
  refine ⟨m', hrun, fun va hva => ?_⟩
  obtain ⟨hlo, hhi⟩ := hva.bounds
  have hlo' : SHARED_LIMIT ≤ sectionOf va := by
    rw [BitVec.le_def, sectionOf_toNat]
    have : 0x1F000000 ≤ va.toNat := hlo
    show 0x1F000000 ≤ _
    omega
  have hhi' : sectionOf va < PERIPH_BOTTOM := by
    rw [BitVec.lt_def, sectionOf_toNat]
    have : va.toNat < 0x3F000000 := hhi
    show _ < 0x3F000000
    omega
  rw [← usrDesc_fault hlo' hhi', ← hdesc va, walk]
  split_ifs <;> simp_all

/-- Off the task's own section, being in a higher section is being at a higher address. -/
lemma UserBase.lt_sectionOf {ttba va : Word} (h : UserBase ttba) (hva : ¬ InSpace ttba va) :
    ttba < sectionOf va ↔ ttba < va := by
  obtain ⟨k, hk⟩ := h.aligned
  rw [h.space_toNat] at hva
  rw [BitVec.lt_def, BitVec.lt_def, sectionOf_toNat]
  omega

/-! ## Isolation -/

/-- The table at `ttba` translates no address of the space at `other`. -/
def Isolated (m : Mem) (ttba other : Word) : Prop :=
  ∀ va, InSpace other va → walk m ttba va = .fault

/-- A space is isolated from a task exactly when it lies above the task's own. -/
lemma isolated_iff {ttba other : Word} (h : UserBase ttba) (ho : UserBase other)
    (hne : other ≠ ttba) {m : Mem}
    (hm : ∀ va, InRam va → (walk m ttba va = .fault ↔ ttba < sectionOf va)) :
    Isolated m ttba other ↔ ttba < other := by
  obtain ⟨k, hk⟩ := h.aligned
  obtain ⟨l, hl⟩ := ho.aligned
  have hsep : ∀ va, InSpace other va → ¬ InSpace ttba va := by
    intro va hva hown
    rw [ho.space_toNat] at hva
    rw [h.space_toNat] at hown
    exact hne (BitVec.eq_of_toNat_eq (by omega))
  have hbase : InSpace other other := by
    rw [ho.space_toNat]
    omega
  constructor
  · intro hiso
    have hfault := (hm other (ho.inRam hbase)).mp (hiso other hbase)
    exact (h.lt_sectionOf (hsep other hbase)).mp hfault
  · intro hlt va hva
    rw [hm va (ho.inRam hva), h.lt_sectionOf (hsep va hva)]
    exact Nat.lt_of_lt_of_le hlt hva.1

/-- **Isolation.**  The table `cre_usr_tbl` builds for a task faults on an address of kernel
or user RAM outside the task's section exactly when the address is above the task's base.
So it isolates the task from exactly the tasks above it, and of two tasks never both are
isolated from each other. -/
theorem user_table_isolates_iff {ttba : Word} (h : UserBase ttba) (m : Mem) :
    ∃ m', creUsrTbl 4096 ttba m = some m' ∧
      (∀ va, InRam va → ¬ InSpace ttba va → (walk m' ttba va = .fault ↔ ttba < va)) ∧
      ∀ other, UserBase other → other ≠ ttba →
        (Isolated m' ttba other ↔ ttba < other) ∧
        ∀ n n', creUsrTbl 4096 other n = some n' →
          ¬ (Isolated m' ttba other ∧ Isolated n' other ttba) := by
  obtain ⟨m', hrun, hm'⟩ := creUsrTbl_spec h m
  refine ⟨m', hrun, fun va hva hown => ?_, fun other ho hne => ⟨?_, ?_⟩⟩
  · rw [hm' va hva, h.lt_sectionOf hown]
  · exact isolated_iff h ho hne hm'
  · rintro n n' hn ⟨hiso, hiso'⟩
    obtain ⟨n'', hrun', hn'⟩ := creUsrTbl_spec ho n
    obtain rfl := Option.some.inj (hn.symm.trans hrun')
    have h1 := (isolated_iff h ho hne hm').mp hiso
    have h2 := (isolated_iff ho h hne.symm hn').mp hiso'
    exact absurd (Nat.lt_trans h1 h2) (Nat.lt_irrefl _)

lemma userBase_second : UserBase 0x24100000 :=
  ⟨by decide, by decide, by decide⟩

/-- The task in the second section of user RAM is isolated from the one in the third. -/
theorem user_table_isolates_second :
    UserBase 0x24100000 ∧ ∃ m', creUsrTbl 4096 0x24100000 (fun _ => 0) = some m' ∧
      Isolated m' 0x24100000 0x24200000 := by
  obtain ⟨m', hrun, -, hiso⟩ := user_table_isolates_iff userBase_second fun _ => 0
  refine ⟨userBase_second, m', hrun, ?_⟩
  exact ((hiso 0x24200000 ⟨by decide, by decide, by decide⟩ (by decide)).1).mpr (by decide)

/-- The same task reaches the one in the first section, and the kernel below. -/
theorem user_table_maps_first :
    ¬ ∀ (ttba va : Word) (m m' : Mem), UserBase ttba → InRam va → ¬ InSpace ttba va →
      creUsrTbl 4096 ttba m = some m' → walk m' ttba va = .fault := by
  intro hclaim
  obtain ⟨m', hrun, hm'⟩ := creUsrTbl_spec userBase_second fun _ => 0
  have hram : InRam 0x24000000 := ⟨4, .inr (.inr (by decide))⟩
  have hfault := hclaim _ 0x24000000 _ m' userBase_second hram (by unfold InSpace; decide) hrun
  exact absurd ((hm' _ hram).mp hfault) (by decide)

end Mmu

end Rpi2Baremetal
