import Rpi2Baremetal.Properties.SpaceMigration

/-!
# Destroying the tasks of a partition

`destroy_core_tasks` should leave no task in the partition of its core, from the bottom of the
core's kernel RAM to the limit of its user RAM.  The slots are counted from
`SMP_USER_RAM_BOTTOM`.  The partition of core 0 begins below it, where the count wraps and no
slot is looked at; and a limit is the last address of an area, so that the scan of another core
ends one slot before the last of its partition.
-/

namespace Rpi2Baremetal

namespace Kernel

open Framework

variable {k₀ k k' : Kernel} {live : Set Word} {task : Word} {i : ℕ}

/-- The AMP partition of a core. -/
def ampPartition (ssi : SysStructInfo) : Area := ⟨ssi.kernelRamArea.bottom, ssi.userRamArea.limit⟩

/-- The section of a slot lies outside the partition. -/
def Outside (ssi : SysStructInfo) (i : ℕ) : Prop :=
  ∀ a, Mmu.InSpace (mapBase i) a → ¬ (ampPartition ssi).Contains a

/-- What `destroy_core_tasks` should do. -/
structure PartitionEmptied (ssi : SysStructInfo) (k k' : Kernel) : Prop where
  emptied : ∀ i, InUse k' i → Outside ssi i
  others : ∀ i, InUse k i → Outside ssi i → k'.smpTskAlcMap i = k.smpTskAlcMap i ∧
    bare (k'.tcb (k.smpTskAlcMap i).task) = bare (k.tcb (k.smpTskAlcMap i).task) ∧
    ∀ a, Mmu.InSpace (mapBase i) a → k'.mem a = k.mem a

/-- The slots of the partition that `destroy_core_tasks` does not look at. -/
def missedSlots : Fin NUM_SYS_STRUCT → List ℕ
  | 0 => List.range 48
  | 1 => [175]
  | 2 => [303]
  | _ => []

/-! ## The sections of the slots -/

/-- The zeros `destroy_task` writes stay in the space. -/
lemma inSpace_of_mem_spaceOffsets {bottom offset : Word} (h : offset ∈ spaceOffsets bottom) :
    Mmu.InSpace bottom (bottom + offset) := by
  unfold spaceOffsets at h
  split at h
  · exact absurd h List.not_mem_nil
  · next hwrap =>
      obtain ⟨n, hn, rfl⟩ := List.mem_map.mp h
      have hn' := List.mem_range.mp hn
      have hbottom := bottom.isLt
      have hsize : Mmu.SECTION_SIZE.toNat = 2 ^ 20 := rfl
      rw [BitVec.lt_def, BitVec.toNat_add, hsize] at hwrap
      rw [Mmu.InSpace, BitVec.le_def, BitVec.lt_def, BitVec.toNat_add, BitVec.toNat_add,
        BitVec.toNat_ofNat, hsize]
      omega

/-- Outside its space `clearSpace` changes nothing. -/
lemma clear_frame (m : Mem) {bottom a : Word} (ha : ¬ Mmu.InSpace bottom a) :
    m.writeAll (bottom + ·) (fun _ => 0) (spaceOffsets bottom) a = m a := by
  apply Memory.writeAll_of_notMem
  rintro offset hoffset rfl
  exact ha (inSpace_of_mem_spaceOffsets hoffset)

lemma mapBase_toNat (hi : i < 431) : (mapBase i).toNat = 0x24000000 + i * 2 ^ 20 := by
  have hbottom : SMP_USER_RAM_BOTTOM.toNat = 0x24000000 := rfl
  have hsize : Mmu.SECTION_SIZE.toNat = 2 ^ 20 := rfl
  rw [mapBase, BitVec.toNat_add, BitVec.toNat_mul, BitVec.toNat_ofNat, hbottom, hsize]
  omega

lemma inSpace_mapBase_iff (hi : i < 431) (a : Word) :
    Mmu.InSpace (mapBase i) a ↔
      0x24000000 + i * 2 ^ 20 ≤ a.toNat ∧ a.toNat < 0x24000000 + (i + 1) * 2 ^ 20 := by
  have hsize : Mmu.SECTION_SIZE.toNat = 2 ^ 20 := rfl
  rw [Mmu.InSpace, BitVec.le_def, BitVec.lt_def, BitVec.toNat_add, mapBase_toNat hi, hsize]
  omega

/-- Two slots have no address in common. -/
lemma mapBase_disjoint {i' : ℕ} (hi : i < 431) (hi' : i' < 431) (hne : i ≠ i') {a : Word}
    (ha : Mmu.InSpace (mapBase i) a) : ¬ Mmu.InSpace (mapBase i') a := by
  rw [inSpace_mapBase_iff hi] at ha
  rw [inSpace_mapBase_iff hi']
  omega

/-- A section lies outside an area exactly if it ends below it or begins above it. -/
lemma outside_iff (ssi : SysStructInfo) (hi : i < 431)
    (hle : (ampPartition ssi).bottom.toNat ≤ (ampPartition ssi).limit.toNat) :
    Outside ssi i ↔ 0x24000000 + (i + 1) * 2 ^ 20 ≤ (ampPartition ssi).bottom.toNat ∨
      (ampPartition ssi).limit.toNat < 0x24000000 + i * 2 ^ 20 := by
  simp only [Outside, inSpace_mapBase_iff hi, Area.Contains, BitVec.le_def]
  constructor
  · intro h
    by_contra hmeet
    obtain ⟨hbottom, hlimit⟩ := not_or.mp hmeet
    have hlt := (ampPartition ssi).limit.isLt
    let a : Word := .ofNat 32 (max (0x24000000 + i * 2 ^ 20) (ampPartition ssi).bottom.toNat)
    have ha : a.toNat = max (0x24000000 + i * 2 ^ 20) (ampPartition ssi).bottom.toNat := by
      rw [BitVec.toNat_ofNat]
      apply Nat.mod_eq_of_lt
      omega
    have hmem := h a
    rw [ha] at hmem
    omega
  · intro h a ha
    omega

/-- The partitions, and the slots `destroy_core_tasks` looks at. -/
lemma core_slots (baseTtba : Word) {j : Fin NUM_SYS_STRUCT} (hj : j.val < 4) :
    ∃ bottom limit first size, (ampPartition (initSysinfos baseTtba j)).bottom.toNat = bottom ∧
      (ampPartition (initSysinfos baseTtba j)).limit.toNat = limit ∧
      vacated (initSysinfos baseTtba j) = List.range' first size ∧
      (j = 0 ∧ bottom = 0x1F000000 ∧ limit = 0x26FFFFFF ∧ size = 0 ∨
        j = 1 ∧ bottom = 0x27000000 ∧ limit = 0x2EFFFFFF ∧ first = 48 ∧ size = 127 ∨
        j = 2 ∧ bottom = 0x2F000000 ∧ limit = 0x36FFFFFF ∧ first = 176 ∧ size = 127 ∨
        j = 3 ∧ bottom = 0x37000000 ∧ limit = 0x3EFFFFFF ∧ first = 304 ∧ size = 127) := by
  have hscan : ∀ j, vacated (initSysinfos baseTtba j)
      = mapidsOf (kramAreas j).bottom (uramAreas j).limit := fun _ => rfl
  obtain rfl | rfl | rfl | rfl : j = 0 ∨ j = 1 ∨ j = 2 ∨ j = 3 := by
    revert j
    decide
  · exact ⟨0x1F000000, 0x26FFFFFF, 0, 0, rfl, rfl, (hscan 0).trans (by decide), by decide⟩
  · exact ⟨0x27000000, 0x2EFFFFFF, 48, 127, rfl, rfl, (hscan 1).trans (by decide), by decide⟩
  · exact ⟨0x2F000000, 0x36FFFFFF, 176, 127, rfl, rfl, (hscan 2).trans (by decide), by decide⟩
  · exact ⟨0x37000000, 0x3EFFFFFF, 304, 127, rfl, rfl, (hscan 3).trans (by decide), by decide⟩

lemma missedSlots_three : missedSlots 3 = [] := rfl

/-- The slots of a partition are those `destroy_core_tasks` looks at and those it misses. -/
lemma outside_iff_missed (baseTtba : Word) {j : Fin NUM_SYS_STRUCT} (hj : j.val < 4)
    (hi : i < 431) : ¬ Outside (initSysinfos baseTtba j) i ↔
      i ∈ vacated (initSysinfos baseTtba j) ∨ i ∈ missedSlots j := by
  obtain ⟨bottom, limit, first, size, hbottom, hlimit, hrange, hcore⟩ := core_slots baseTtba hj
  rw [outside_iff _ hi (by rw [hbottom, hlimit]; omega), hbottom, hlimit, hrange,
    List.mem_range'_1]
  obtain ⟨rfl, rfl, rfl, rfl⟩ | ⟨rfl, rfl, rfl, rfl, rfl⟩ | ⟨rfl, rfl, rfl, rfl, rfl⟩ |
    ⟨rfl, rfl, rfl, rfl, rfl⟩ := hcore
  · simp only [missedSlots, List.mem_range]
    omega
  · simp only [missedSlots, List.mem_singleton]
    omega
  · simp only [missedSlots, List.mem_singleton]
    omega
  · simp only [missedSlots_three, List.not_mem_nil, or_false]
    omega

lemma missed_notMem_vacated (baseTtba : Word) {j : Fin NUM_SYS_STRUCT} (hj : j.val < 4)
    (hi : i ∈ missedSlots j) : i ∉ vacated (initSysinfos baseTtba j) := by
  obtain ⟨bottom, limit, first, size, -, -, hrange, hcore⟩ := core_slots baseTtba hj
  rw [hrange, List.mem_range'_1]
  obtain ⟨rfl, -, -, rfl⟩ | ⟨rfl, -, -, rfl, rfl⟩ | ⟨rfl, -, -, rfl, rfl⟩ | ⟨rfl, -⟩ := hcore
  · omega
  · rw [missedSlots, List.mem_singleton] at hi
    omega
  · rw [missedSlots, List.mem_singleton] at hi
    omega
  · rw [missedSlots_three] at hi
    exact absurd hi List.not_mem_nil

/-! ## The scan -/

/-- The scan of `destroy_core_tasks` has come from `k₀` to `k` over the slots `done`: those in
use were freed and their sections cleared. -/
structure Cleared (k₀ : Kernel) (done : List ℕ) (k : Kernel) : Prop where
  held : k.held = k₀.held
  smpTskAlcMap : ∀ i, k.smpTskAlcMap i =
    if i ∈ done ∧ InUse k₀ i then ⟨INIT_MAP, NULL⟩ else k₀.smpTskAlcMap i
  bare : ∀ t, bare (k.tcb t) = bare (k₀.tcb t)
  mem : ∀ a, (∀ i ∈ done, InUse k₀ i → ¬ Mmu.InSpace (mapBase i) a) → k.mem a = k₀.mem a

lemma Cleared.refl (k : Kernel) : Cleared k [] k :=
  ⟨rfl, fun i => by simp, fun _ => rfl, fun _ _ => rfl⟩

lemma Cleared.mapid {done : List ℕ} (h : Cleared k₀ done k) (t : Word) :
    (k.tcb t).mapid = (k₀.tcb t).mapid :=
  mapid_of_bare (h.bare t)

lemma Cleared.ttba {done : List ℕ} (h : Cleared k₀ done k) (t : Word) :
    (k.tcb t).ttba = (k₀.tcb t).ttba :=
  ttba_of_bare (h.bare t)

lemma Cleared.pass {done : List ℕ} (h : Cleared k₀ done k) (hmap : WellFormedMap live k₀)
    (hslot : InUse k₀ i → i < 431) (hheld : k₀.held .smpQueueLock = false) (hi : i ∉ done) :
    ∃ k', destroyCoreTasksPass i k = .ok () k' ∧ Cleared k₀ (done ++ [i]) k' := by
  have hentry : k.smpTskAlcMap i = k₀.smpTskAlcMap i := by
    rw [h.smpTskAlcMap, if_neg fun hmem => hi hmem.1]
  have huse : InUse k i ↔ InUse k₀ i := by rw [InUse, InUse, hentry]
  by_cases hinUse : InUse k₀ i
  · have hmapid : (k.tcb (k₀.smpTskAlcMap i).task).mapid.toNat = i := by
      rw [h.mapid, hmap.mapid i hinUse, BitVec.toNat_ofNat]
      exact Nat.mod_eq_of_lt (lt_trans (hslot hinUse) (by decide))
    have httba : (k.tcb (k₀.smpTskAlcMap i).task).ttba = mapBase i := by
      rw [h.ttba, hmap.ttba i hinUse]
    rw [destroyCoreTasksPass_inUse (huse.mpr hinUse), hentry]
    refine ⟨_, destroyTask_free (k := { k with mapAccesses := i :: i :: k.mapAccesses }) _
      (h.held ▸ hheld), h.held, fun i' => ?_, fun t => ?_, fun a ha => ?_⟩
    · show Function.update k.smpTskAlcMap (k.tcb _).mapid.toNat _ i' = _
      rw [hmapid]
      by_cases hi' : i' = i
      · rw [hi', Function.update_self, if_pos ⟨by simp, hinUse⟩]
      · rw [Function.update_of_ne hi', h.smpTskAlcMap]
        simp [hi']
    · exact (unlink_bare k.tcb _ t).trans (h.bare t)
    · show k.mem.writeAll ((k.tcb _).ttba + ·) (fun _ => 0) (spaceOffsets (k.tcb _).ttba) a = _
      rw [httba, clear_frame k.mem (ha i (by simp) hinUse)]
      exact h.mem a fun i' hi' => ha i' (List.mem_append_left _ hi')
  · refine ⟨_, destroyCoreTasksPass_free (huse.not.mpr hinUse), h.held, fun i' => ?_, h.bare,
      fun a ha => h.mem a fun i' hi' => ha i' (List.mem_append_left _ hi')⟩
    rw [h.smpTskAlcMap]
    by_cases hi' : i' = i
    · rw [hi', if_neg fun hmem => hinUse hmem.2, if_neg fun hmem => hinUse hmem.2]
    · simp [hi']

lemma Cleared.forM {l : List ℕ} (hmap : WellFormedMap live k)
    (hslots : ∀ i, InUse k i → i < 431) (hheld : k.held .smpQueueLock = false) (hl : l.Nodup) :
    ∃ k', forM l destroyCoreTasksPass k = .ok () k' ∧ Cleared k l k' :=
  forM_returns_of_nodup hl (Cleared.refl k) fun _ i hi _ h => h.pass hmap (hslots i) hheld hi

/-- A scan without the queue lock has found every slot free. -/
lemma forM_destroyCoreTasksPass_spins {l : List ℕ} (hheld : k.held .smpQueueLock = true)
    (hok : forM l destroyCoreTasksPass k = .ok () k') : ∀ i ∈ l, ¬ InUse k i := by
  refine forM_looks_of_ok (fun i accesses => ?_) hok
  by_cases hi : InUse k i
  · have hspins := destroyCoreTasksPass_inUse (k := { k with mapAccesses := accesses }) hi
    rw [destroyTask_held (k := { k with mapAccesses := i :: i :: accesses }) _ hheld] at hspins
    exact .inr ⟨_, _, hspins⟩
  · exact .inl ⟨hi, destroyCoreTasksPass_free (k := { k with mapAccesses := accesses }) hi⟩

/-- A scan over free slots only looks at them. -/
lemma forM_destroyCoreTasksPass_free {l : List ℕ} (hfree : ∀ i ∈ l, ¬ InUse k i) :
    forM l destroyCoreTasksPass k
      = .ok () { k with mapAccesses := l.reverse ++ k.mapAccesses } :=
  forM_looks fun i hi accesses =>
    destroyCoreTasksPass_free (k := { k with mapAccesses := accesses }) (hfree i hi)

/-- What the scan over `l` has left in use. -/
lemma Cleared.inUse_iff {l : List ℕ} (h : Cleared k₀ l k) (i : ℕ) :
    InUse k i ↔ InUse k₀ i ∧ i ∉ l := by
  rw [InUse, h.smpTskAlcMap]
  split
  · next hmem => simp [hmem.1]
  · next hmem =>
      constructor
      · exact fun huse => ⟨huse, fun hi => hmem ⟨hi, huse⟩⟩
      · exact And.left

/-- `destroy_core_tasks` looks at the slots of the partition, and frees those in use if the
queue lock is free. -/
lemma destroyCoreTasks_cleared {j : Fin NUM_SYS_STRUCT} (hj : k.prid.toNat = j.val)
    (hmap : WellFormedMap live k) (hslots : ∀ i, InUse k i → i < 431)
    (hscan : k.held .smpQueueLock = false ∨ ∀ i ∈ vacated (k.sysStructTop j), ¬ InUse k i) :
    ∃ k', destroyCoreTasks k = .ok () k' ∧ Cleared k (vacated (k.sysStructTop j)) k' := by
  rw [destroyCoreTasks_eq hj]
  by_cases hheld : k.held .smpQueueLock = false
  · exact Cleared.forM hmap hslots hheld List.nodup_range'
  · have hfree := hscan.resolve_left hheld
    refine ⟨_, forM_destroyCoreTasksPass_free hfree, rfl, fun i => ?_, fun _ => rfl,
      fun _ _ => rfl⟩
    rw [if_neg fun hmem => hfree i hmem.1 hmem.2]

/-- **The partition of a core.**  With a well-formed map of the all-SMP mode,
`destroy_core_tasks` returns and leaves no task in the partition of its core, and those outside
it as they were, exactly if no slot that it misses is in use, and it gets the queue lock where
it needs it.  Messages are taken to return (`Model/Kernel.lean`). -/
theorem destroy_core_tasks_empties_iff {baseTtba : Word} {j : Fin NUM_SYS_STRUCT}
    (hsys : k.sysStructTop = initSysinfos baseTtba) (hj : k.prid.toNat = j.val)
    (hcore : k.prid < 4) (hmap : WellFormedMap live k)
    (hslots : ∀ i, InUse k i → i < (k.sysStructTop 4).maxNumTaskSpace.toNat) :
    (∃ k', destroyCoreTasks k = .ok () k' ∧ PartitionEmptied (k.sysStructTop j) k k') ↔
      (∀ i ∈ missedSlots j, ¬ InUse k i) ∧
        (k.held .smpQueueLock = false ∨ ∀ i ∈ vacated (k.sysStructTop j), ¬ InUse k i) := by
  have hj' : j.val < 4 := hj ▸ BitVec.lt_def.mp hcore
  have hbound : ∀ i, InUse k i → i < 431 := by
    rw [hsys] at hslots
    exact hslots
  have hiff : ∀ i, InUse k i → (¬ Outside (k.sysStructTop j) i ↔
      i ∈ vacated (k.sysStructTop j) ∨ i ∈ missedSlots j) := by
    intro i hi
    rw [hsys]
    exact outside_iff_missed baseTtba hj' (hbound i hi)
  constructor
  · rintro ⟨k', hok, hempty⟩
    have hscan : k.held .smpQueueLock = false ∨
        ∀ i ∈ vacated (k.sysStructTop j), ¬ InUse k i := by
      by_cases hheld : k.held .smpQueueLock = false
      · exact .inl hheld
      · rw [destroyCoreTasks_eq hj] at hok
        exact .inr (forM_destroyCoreTasksPass_spins (by simpa using hheld) hok)
    refine ⟨fun i hi huse => ?_, hscan⟩
    obtain ⟨k₁, hok₁, hcleared⟩ := destroyCoreTasks_cleared hj hmap hbound hscan
    rw [hok] at hok₁
    cases hok₁
    have hnot : i ∉ vacated (k.sysStructTop j) := by
      rw [hsys]
      exact missed_notMem_vacated baseTtba hj' hi
    exact (hiff i huse).mpr (.inr hi) (hempty.emptied i ((hcleared.inUse_iff i).mpr ⟨huse, hnot⟩))
  · rintro ⟨hmissed, hscan⟩
    obtain ⟨k', hok, hcleared⟩ := destroyCoreTasks_cleared hj hmap hbound hscan
    refine ⟨k', hok, fun i hi => ?_, fun i hi hout => ⟨?_, hcleared.bare _, fun a ha => ?_⟩⟩
    · obtain ⟨huse, hnot⟩ := (hcleared.inUse_iff i).mp hi
      by_contra hmeet
      rcases (hiff i huse).mp hmeet with hmem | hmem
      · exact hnot hmem
      · exact hmissed i hmem huse
    · rw [hcleared.smpTskAlcMap, if_neg]
      exact fun hmem => (hiff i hi).mpr (.inl hmem.1) hout
    · refine hcleared.mem a fun i' hi' huse' => ?_
      refine mapBase_disjoint (hbound i hi) (hbound i' huse') ?_ ha
      rintro rfl
      exact (hiff i hi).mpr (.inl hi') hout

/-- On core 1 the task in slot 48 is destroyed. -/
theorem destroy_core_tasks_empties_iff_slot48 : ∃ k', destroyCoreTasks (oneTask 48) = .ok () k' ∧
    PartitionEmptied ((oneTask 48).sysStructTop 1) (oneTask 48) k' := by
  have hsys : (oneTask 48).sysStructTop = initSysinfos TTBA_BASE := rfl
  rw [destroy_core_tasks_empties_iff hsys rfl (by decide) (oneTask_wellFormed 48) fun i hi => by
    rw [(oneTask_inUse 48 i).mp hi]
    decide]
  refine ⟨fun i hi huse => ?_, .inl rfl⟩
  rw [missedSlots, List.mem_singleton] at hi
  rw [oneTask_inUse] at huse
  omega

/-- The task in slot 175, whose section is the last of the partition of core 1, stays. -/
theorem destroy_core_tasks_misses : ¬ ∀ (k : Kernel) (live : Set Word) (j : Fin NUM_SYS_STRUCT),
    (∃ baseTtba, k.sysStructTop = initSysinfos baseTtba) → k.prid.toNat = j.val → k.prid < 4 →
      k.held .smpQueueLock = false → WellFormedMap live k →
      (∀ i, InUse k i → i < (k.sysStructTop 4).maxNumTaskSpace.toNat) →
      ∃ k', destroyCoreTasks k = .ok () k' ∧ PartitionEmptied (k.sysStructTop j) k k' := by
  intro hempties
  have hslots : ∀ i, InUse (oneTask 175) i →
      i < ((oneTask 175).sysStructTop 4).maxNumTaskSpace.toNat := by
    intro i hi
    rw [(oneTask_inUse 175 i).mp hi]
    decide
  obtain ⟨k', hok, hempty⟩ := hempties (oneTask 175) {8} 1 ⟨TTBA_BASE, rfl⟩ rfl (by decide) rfl
    (oneTask_wellFormed 175) hslots
  have hbound : ∀ i, InUse (oneTask 175) i → i < 431 := hslots
  obtain ⟨k₁, hok₁, hcleared⟩ := destroyCoreTasks_cleared (j := 1) rfl (oneTask_wellFormed 175)
    hbound (.inl rfl)
  rw [hok] at hok₁
  cases hok₁
  have hnot : 175 ∉ vacated ((oneTask 175).sysStructTop 1) :=
    missed_notMem_vacated TTBA_BASE (by decide) (List.mem_singleton_self 175)
  have huse := (hcleared.inUse_iff 175).mpr ⟨(oneTask_inUse 175 175).mpr rfl, hnot⟩
  exact (outside_iff_missed TTBA_BASE (j := 1) (by decide) (by decide)).mpr
    (.inr (List.mem_singleton_self 175)) (hempty.emptied 175 huse)

end Kernel

end Rpi2Baremetal
