import Rpi2Baremetal.Framework.Transition
import Rpi2Baremetal.Properties.Modes
import Rpi2Baremetal.Properties.TaskOps

/-!
# Accesses to the task map

`init_smp_kernel` allocates `smp_tsk_alc_map` with the number of task spaces of
`SYSStructTop[ALL_SMP_MODE]`.  `ALL_SMP_MODE` is a mode and not an index: the entry is that of
core 0 in AMP mode, with 95 spaces.  The scans of `task.c` run over the spaces of other entries,
up to 431.  They stay within the map when they run over the spaces of an AMP core, counted from
its own bottom, and when they come to a halt early enough.
-/

namespace Rpi2Baremetal

namespace Kernel

open Framework

variable {k₀ k k' : Kernel}

/-! ## Staying in bounds -/

/-- A call that began in `k₀` has come to `k`: every access to the map was within it, and so is
the slot of every task. -/
structure InBounds (k₀ k : Kernel) : Prop where
  sysStructTop : k.sysStructTop = k₀.sysStructTop
  pm : k.common.pm = k₀.common.pm
  mapEntries : k.mapEntries = k₀.mapEntries
  mapid : ∀ t, (k.tcb t).mapid.toNat < k₀.mapEntries
  accesses : ∀ i ∈ k.mapAccesses, i < k₀.mapEntries

/-- A change that touches no slot and makes no access. -/
lemma InBounds.congr (h : InBounds k₀ k) (hsys : k'.sysStructTop = k.sysStructTop)
    (hpm : k'.common.pm = k.common.pm) (hentries : k'.mapEntries = k.mapEntries)
    (hmapid : ∀ t, (k'.tcb t).mapid = (k.tcb t).mapid)
    (haccesses : k'.mapAccesses = k.mapAccesses) : InBounds k₀ k' := by
  refine ⟨hsys.trans h.sysStructTop, hpm.trans h.pm, hentries.trans h.mapEntries, ?_, ?_⟩
  · intro t
    rw [hmapid]
    exact h.mapid t
  · rw [haccesses]
    exact h.accesses

/-- An access within the map. -/
lemma InBounds.access (h : InBounds k₀ k) {i : ℕ} (hi : i < k₀.mapEntries) :
    InBounds k₀ { k with mapAccesses := i :: k.mapAccesses } :=
  ⟨h.sysStructTop, h.pm, h.mapEntries, h.mapid, List.forall_mem_cons.mpr ⟨hi, h.accesses⟩⟩

/-- A TCB is written whose slot is within the map. -/
lemma InBounds.setTcb (h : InBounds k₀ k) (t : Word) {v : TCB}
    (hv : v.mapid.toNat < k₀.mapEntries) :
    InBounds k₀ { k with tcb := Function.update k.tcb t v } := by
  refine ⟨h.sysStructTop, h.pm, h.mapEntries, fun a => ?_, h.accesses⟩
  show (Function.update k.tcb t v a).mapid.toNat < k₀.mapEntries
  by_cases ha : a = t
  · rwa [ha, Function.update_self]
  · rw [Function.update_of_ne ha]
    exact h.mapid a

section Ops

variable {i : ℕ}

lemma bounds_readMap (hi : i < k₀.mapEntries) :
    Triple (InBounds k₀) (readMap i) (fun _ => InBounds k₀) (InBounds k₀) :=
  .ok (fun _ => rfl) fun _ h => h.access hi

lemma bounds_modifyMap (hi : i < k₀.mapEntries) (f : TaskMap → TaskMap) :
    Triple (InBounds k₀) (modifyMap i f) (fun _ => InBounds k₀) (InBounds k₀) :=
  .ok (fun _ => rfl) fun _ h => (h.access hi).congr rfl rfl rfl (fun _ => rfl) rfl

lemma bounds_modifyMem (f : Mem → Mem) :
    Triple (InBounds k₀) (modifyMem f) (fun _ => InBounds k₀) (InBounds k₀) :=
  .ok (fun _ => rfl) fun _ h => h.congr rfl rfl rfl (fun _ => rfl) rfl

lemma bounds_readTcb (t : Word) :
    Triple (InBounds k₀) (readTcb t) (fun _ => InBounds k₀) (InBounds k₀) :=
  .ok (fun _ => rfl) fun _ h => h

lemma bounds_setAsid (t asid : Word) :
    Triple (InBounds k₀) (modifyTcb t (.setAsid asid)) (fun _ => InBounds k₀) (InBounds k₀) :=
  .ok (fun _ => rfl) fun _ h => h.setTcb t (h.mapid t)

lemma bounds_invalidateTlbs (asid : Word) :
    Triple (InBounds k₀) (invalidateTlbs asid) (fun _ => InBounds k₀) (InBounds k₀) :=
  .ok (fun _ => rfl) fun _ h => h.congr rfl rfl rfl (fun _ => rfl) rfl

lemma bounds_writeAsidHead (asid v : Word) :
    Triple (InBounds k₀) (writeAsidHead asid v) (fun _ => InBounds k₀) (InBounds k₀) :=
  .ok (fun _ => rfl) fun _ h => h.congr rfl rfl rfl (fun _ => rfl) rfl

end Ops

/-! ## The functions -/

lemma bounds_destroyTask (task : Word) :
    Triple (InBounds k₀) (destroyTask task) (fun _ => InBounds k₀) (InBounds k₀) := by
  intro k h
  have hrelease : InBounds k₀ (releaseAsid task k) := h.congr rfl rfl rfl (fun _ => rfl) rfl
  cases hheld : k.held .smpQueueLock with
  | true =>
      rw [destroyTask_held task hheld]
      exact hrelease
  | false =>
      rw [destroyTask_free task hheld]
      exact ((hrelease.access (h.mapid task)).access (h.mapid task)).congr rfl rfl rfl
        (unlink_mapid k.tcb task) rfl

lemma bounds_endTask (task : Word) :
    Triple (InBounds k₀) (endTask task) (fun _ => InBounds k₀) (InBounds k₀) := by
  intro k h
  rw [endTask_ok]
  exact ((h.access (h.mapid task)).setTcb (v := (k.tcb task).setState TASK_STATE_FINISHED) task
    (h.mapid task)).congr rfl rfl rfl (fun _ => rfl) rfl

lemma bounds_setUserAsid (task cpuid pm : Word) :
    Triple (InBounds k₀) (setUserAsid task cpuid pm) (fun _ => InBounds k₀) (InBounds k₀) := by
  intro k h
  obtain ⟨e, hk⟩ | ⟨r, -, hk⟩ | ⟨asid, -, -, -, hk⟩ := setUserAsid_cases task cpuid pm k
  · rw [hk]
    exact h
  · rw [hk]
    exact h
  · rw [hk]
    exact (h.setTcb (v := (k.tcb task).setAsid asid) task (h.mapid task)).congr rfl rfl rfl
      (fun _ => rfl) rfl

/-- One pass over a slot within the map. -/
lemma bounds_startTaskPass (task : Word) (lock : LockWord) (ssi : SysStructInfo) {i : ℕ}
    (hi : i < k₀.mapEntries) :
    Triple (InBounds k₀) (startTaskPass task lock ssi i) (fun _ => InBounds k₀) (InBounds k₀) := by
  intro k h
  cases hheld : k.held lock with
  | true =>
      rw [startTaskPass_held hheld]
      exact h
  | false =>
      by_cases hfree : (k.smpTskAlcMap i).state = INIT_MAP
      · rw [startTaskPass_free hheld hfree]
        have hmapid : (place ssi i (k.tcb task)).mapid.toNat < k₀.mapEntries :=
          Nat.lt_of_le_of_lt (Nat.mod_le i _) hi
        exact ((((h.access hi).access hi).access hi).setTcb task hmapid).congr rfl rfl rfl
          (fun _ => rfl) rfl
      · rw [startTaskPass_used hheld hfree]
        exact h.access hi

/-- A slot that is not free. -/
def InUse (k : Kernel) (i : ℕ) : Prop := (k.smpTskAlcMap i).state ≠ INIT_MAP

instance (k : Kernel) (i : ℕ) : Decidable (InUse k i) := by unfold InUse; infer_instance

/-- One pass of `destroy_core_tasks` without the queue lock goes on over a free slot, and spins
at one in use. -/
lemma destroyCoreTasksPass_free {i : ℕ} (hi : ¬ InUse k i) :
    destroyCoreTasksPass i k = .ok () { k with mapAccesses := i :: k.mapAccesses } := by
  rw [destroyCoreTasksPass, bind_ok (readMap_ok i k), if_pos (not_not.mp hi)]
  rfl

lemma destroyCoreTasksPass_inUse {i : ℕ} (hi : InUse k i) :
    destroyCoreTasksPass i k = destroyTask (k.smpTskAlcMap i).task
      { k with mapAccesses := i :: i :: k.mapAccesses } := by
  rw [destroyCoreTasksPass, bind_ok (readMap_ok i k), if_neg hi, bind_ok (readMap_ok i _)]

/-- The scan of `destroy_core_tasks` while the queue lock is held. -/
lemma bounds_destroyCoreTasksPass {i : ℕ} (hi : i < k₀.mapEntries) :
    Triple (fun k => InBounds k₀ k ∧ k.held .smpQueueLock = true ∧ k.smpTskAlcMap = k₀.smpTskAlcMap)
      (destroyCoreTasksPass i)
      (fun _ k => ¬ InUse k₀ i ∧ InBounds k₀ k ∧ k.held .smpQueueLock = true ∧
        k.smpTskAlcMap = k₀.smpTskAlcMap) (InBounds k₀) := by
  rintro k ⟨h, hheld, hmap⟩
  by_cases huse : InUse k i
  · rw [destroyCoreTasksPass_inUse huse,
      destroyTask_held (k := { k with mapAccesses := i :: i :: k.mapAccesses }) _ hheld]
    exact ((h.access hi).access hi).congr rfl rfl rfl (fun _ => rfl) rfl
  · rw [destroyCoreTasksPass_free huse]
    rw [InUse, hmap] at huse
    exact ⟨huse, h.access hi, hheld, hmap⟩

/-- What `move_task_space` does with a slot it has found. -/
lemma bounds_moveTaskSpaceTo {taskMap mapid : ℕ} (htask : taskMap < k₀.mapEntries)
    (hmapid : mapid < k₀.mapEntries) (asidLimit resource : Word) :
    Triple (InBounds k₀) (moveTaskSpaceTo taskMap asidLimit resource mapid)
      (fun _ => InBounds k₀) (InBounds k₀) := by
  refine (bounds_readMap htask).bind fun _ => (bounds_modifyMap hmapid _).bind fun _ => ?_
  refine (bounds_readMap htask).bind fun _ => (bounds_modifyMap hmapid _).bind fun _ => ?_
  refine (bounds_readMap htask).bind fun map => (bounds_readTcb _).bind fun t => ?_
  have hcopy : ∀ target : Word, Triple (InBounds k₀)
      (copySpace target resource >>= fun _ => creUsrTbl target) (fun _ => InBounds k₀)
      (InBounds k₀) :=
    fun target => (bounds_modifyMem _).bind fun _ => bounds_modifyMem _
  refine .ite (fun _ => ?_) fun _ => hcopy _
  exact (bounds_invalidateTlbs _).bind fun _ => (bounds_writeAsidHead _ _).bind fun _ =>
    (bounds_setAsid _ _).bind fun _ => hcopy _

/-- The state in which a pass has taken the queue lock and read slot `i`. -/
def lockedRead (i : ℕ) (k : Kernel) : Kernel := { k with
  held := Function.update k.held .smpQueueLock true
  mapAccesses := i :: k.mapAccesses }

lemma lockedRead_ok {α : Type} (hheld : k.held .smpQueueLock = false) (i : ℕ)
    (f : TaskMap → KernelM α) :
    (spinReq .smpQueueLock >>= fun _ => readMap i >>= f) k
      = f (k.smpTskAlcMap i) (lockedRead i k) := by
  rw [bind_ok (spinReq_free hheld)]
  rfl

lemma lockedRead_held (i : ℕ) (k : Kernel) : (lockedRead i k).held .smpQueueLock = true := by
  simp [lockedRead]

lemma InBounds.lockedRead (h : InBounds k₀ k) {i : ℕ} (hi : i < k₀.mapEntries) :
    InBounds k₀ (lockedRead i k) :=
  (h.access hi).congr rfl rfl rfl (fun _ => rfl) rfl

/-- The scan of `move_task_space` over slots within the map, up to a free one. -/
lemma bounds_moveTaskSpaceScan {taskMap : ℕ} (htask : taskMap < k₀.mapEntries)
    (asidLimit resource : Word) {l : List ℕ}
    (hl : ScansOnly (· < k₀.mapEntries) (fun i => ¬ InUse k₀ i) l) :
    Triple (fun k => InBounds k₀ k ∧ k.smpTskAlcMap = k₀.smpTskAlcMap)
      (moveTaskSpaceScan taskMap asidLimit resource l) (fun _ => InBounds k₀) (InBounds k₀) := by
  induction l with
  | nil => exact .pure _ fun _ h => h.1
  | cons i l ih =>
      obtain ⟨hi, hstop⟩ := hl
      rintro k ⟨h, hmap⟩
      cases hheld : k.held .smpQueueLock with
      | true =>
          rw [moveTaskSpaceScan, bind_error (spinReq_held hheld)]
          exact h
      | false =>
          rw [moveTaskSpaceScan, lockedRead_ok hheld]
          by_cases huse : (k.smpTskAlcMap i).state ≠ 0
          · have hrest : ScansOnly (· < k₀.mapEntries) (fun i => ¬ InUse k₀ i) l := by
              refine hstop.resolve_left (not_not.mpr ?_)
              rwa [hmap] at huse
            rw [if_pos huse, bind_ok (spinRel_held (lockedRead_held i k))]
            exact ih hrest _ ⟨(h.lockedRead hi).congr rfl rfl rfl (fun _ => rfl) rfl, hmap⟩
          · rw [if_neg huse]
            exact bounds_moveTaskSpaceTo htask hi asidLimit resource _ (h.lockedRead hi)

/-- The number of slots `move_task_space` scans. -/
def numMapId (ssi : SysStructInfo) : ℕ :=
  ((ssi.userRamArea.limit - ssi.userRamArea.bottom) / Mmu.SECTION_SIZE).toNat

lemma moveTaskSpace_eq {j : Fin NUM_SYS_STRUCT}
    (hj : getSysStructInfo k.prid k.common.pm = some j) (taskMap : ℕ) :
    moveTaskSpace taskMap k = moveTaskSpaceScan taskMap (k.sysStructTop j).asidArea.limit
      (k.tcb (k.smpTskAlcMap taskMap).task).ttba (List.range (numMapId (k.sysStructTop j)))
      { k with mapAccesses := taskMap :: k.mapAccesses } := by
  rw [moveTaskSpace, bind_ok (show getPrid k = .ok k.prid k from rfl),
    bind_ok (show getPm k = .ok k.common.pm k from rfl), bind_ok (ssiIndex_ok hj)]
  rfl

/-- `move_task_space` spins if the queue lock is held. -/
lemma moveTaskSpace_held {j : Fin NUM_SYS_STRUCT}
    (hj : getSysStructInfo k.prid k.common.pm = some j) (hpos : 0 < numMapId (k.sysStructTop j))
    (hheld : k.held .smpQueueLock = true) (taskMap : ℕ) :
    moveTaskSpace taskMap k = .error (.spins .smpQueueLock)
      { k with mapAccesses := taskMap :: k.mapAccesses } := by
  obtain ⟨n, hn⟩ := Nat.exists_eq_succ_of_ne_zero hpos.ne'
  rw [moveTaskSpace_eq hj, hn, List.range_succ_eq_map, moveTaskSpaceScan]
  exact bind_error (spinReq_held hheld)

lemma moveTaskSpacesPass_held (hheld : k.held .smpQueueLock = true) (i : ℕ) :
    moveTaskSpacesPass i k = .error (.spins .smpQueueLock) k := by
  rw [moveTaskSpacesPass, bind_error (spinReq_held hheld)]

/-- One pass of `move_task_spaces` goes on over a free slot, and spins at one in use:
`move_task_space` asks for the lock the pass holds. -/
lemma bounds_moveTaskSpacesPass {j : Fin NUM_SYS_STRUCT}
    (hj : getSysStructInfo k₀.prid k₀.common.pm = some j)
    (hpos : 0 < numMapId (k₀.sysStructTop j)) {i : ℕ} (hi : i < k₀.mapEntries) :
    Triple (fun k => InBounds k₀ k ∧ k.prid = k₀.prid ∧ k.smpTskAlcMap = k₀.smpTskAlcMap)
      (moveTaskSpacesPass i)
      (fun _ k => ¬ InUse k₀ i ∧ InBounds k₀ k ∧ k.prid = k₀.prid ∧
        k.smpTskAlcMap = k₀.smpTskAlcMap) (InBounds k₀) := by
  rintro k ⟨h, hprid, hmap⟩
  cases hheld : k.held .smpQueueLock with
  | true =>
      rw [moveTaskSpacesPass_held hheld]
      exact h
  | false =>
      rw [moveTaskSpacesPass, lockedRead_ok hheld]
      by_cases hfree : (k.smpTskAlcMap i).state = 0
      · rw [if_pos hfree, spinRel_held (lockedRead_held i k)]
        refine ⟨not_not.mpr ?_, (h.lockedRead hi).congr rfl rfl rfl (fun _ => rfl) rfl, hprid, hmap⟩
        rwa [hmap] at hfree
      · have hj' : getSysStructInfo (lockedRead i k).prid (lockedRead i k).common.pm = some j := by
          rw [lockedRead, hprid, h.pm]
          exact hj
        have hpos' : 0 < numMapId ((lockedRead i k).sysStructTop j) := by
          rw [lockedRead, h.sysStructTop]
          exact hpos
        rw [if_neg hfree, bind_error (moveTaskSpace_held hj' hpos' (lockedRead_held i k) i)]
        exact (h.lockedRead hi).access hi

/-! ## The scans -/

lemma bounds_startTask {j : Fin NUM_SYS_STRUCT} (h : InBounds k₀ k₀)
    (hj : getSysStructInfo k₀.prid k₀.common.pm = some j)
    (hmax : (k₀.sysStructTop j).maxNumTaskSpace.toNat ≤ k₀.mapEntries) (task : Word)
    (lock : LockWord) : InBounds k₀ (lastState (startTask task lock) k₀) := by
  rw [lastState, startTask_eq hj]
  refine Triple.lastState (P := InBounds k₀) ?_ h
  refine (Triple.forM fun i hi => ?_).bind fun _ => ?_
  · exact bounds_startTaskPass task lock _ (Nat.lt_of_lt_of_le (List.mem_range.mp hi) hmax)
  · exact .ok (fun _ => rfl) fun _ h => h.setTcb task (h.mapid task)

lemma destroyCoreTasks_eq {j : Fin NUM_SYS_STRUCT} (hj : k.prid.toNat = j.val) :
    destroyCoreTasks k = forM (mapidsOf (k.sysStructTop j).kernelRamArea.bottom
      (k.sysStructTop j).userRamArea.limit) destroyCoreTasksPass k := by
  have hentry : sysStructTopEntry k.prid k = .ok (k.sysStructTop j) k := by
    simp [sysStructTopEntry, hj]
  rw [destroyCoreTasks, bind_ok (show getPrid k = .ok k.prid k from rfl), SYSSTRUCT_AMP_INDEX,
    bind_ok hentry]

/-- `destroy_core_tasks` while the queue lock is held, up to a slot in use. -/
lemma bounds_destroyCoreTasks {j : Fin NUM_SYS_STRUCT} (h : InBounds k₀ k₀)
    (hj : k₀.prid.toNat = j.val) (hheld : k₀.held .smpQueueLock = true)
    (hscan : ScansOnly (· < k₀.mapEntries) (InUse k₀) (mapidsOf
      (k₀.sysStructTop j).kernelRamArea.bottom (k₀.sysStructTop j).userRamArea.limit)) :
    InBounds k₀ (lastState destroyCoreTasks k₀) := by
  rw [lastState, destroyCoreTasks_eq hj]
  have hforM := Triple.forM_scan (E := InBounds k₀) hscan
    (fun i hi => (bounds_destroyCoreTasksPass hi).consequence (fun _ h => h)
      (fun _ _ h => h.2) fun _ h => h)
    fun i hi huse => (bounds_destroyCoreTasksPass hi).consequence (fun _ h => h)
      (fun _ _ h => h.1 huse) fun _ h => h
  exact (hforM.consequence (fun _ h => h) (fun _ _ h => h.1) fun _ h => h).lastState
    ⟨h, hheld, rfl⟩

lemma moveTaskSpaces_eq {j : Fin NUM_SYS_STRUCT}
    (hj : getSysStructInfo k.prid k.common.pm = some j) :
    moveTaskSpaces k = forM (mapidsOf (k.sysStructTop j).kernelRamArea.bottom
      (k.sysStructTop j).userRamArea.limit) moveTaskSpacesPass k := by
  rw [moveTaskSpaces, bind_ok (show getPrid k = .ok k.prid k from rfl),
    bind_ok (show getPm k = .ok k.common.pm k from rfl), bind_ok (ssiIndex_ok hj)]
  rfl

/-- `move_task_spaces` up to a slot in use. -/
lemma bounds_moveTaskSpaces {j : Fin NUM_SYS_STRUCT} (h : InBounds k₀ k₀)
    (hj : getSysStructInfo k₀.prid k₀.common.pm = some j)
    (hpos : 0 < numMapId (k₀.sysStructTop j))
    (hscan : ScansOnly (· < k₀.mapEntries) (InUse k₀) (mapidsOf
      (k₀.sysStructTop j).kernelRamArea.bottom (k₀.sysStructTop j).userRamArea.limit)) :
    InBounds k₀ (lastState moveTaskSpaces k₀) := by
  rw [lastState, moveTaskSpaces_eq hj]
  have hforM := Triple.forM_scan (E := InBounds k₀) hscan
    (fun i hi => (bounds_moveTaskSpacesPass hj hpos hi).consequence (fun _ h => h)
      (fun _ _ h => h.2) fun _ h => h)
    fun i hi huse => (bounds_moveTaskSpacesPass hj hpos hi).consequence (fun _ h => h)
      (fun _ _ h => h.1 huse) fun _ h => h
  exact (hforM.consequence (fun _ h => h) (fun _ _ h => h.1) fun _ h => h).lastState
    ⟨h, rfl, rfl⟩

/-- `move_task_spaces` makes no access while the queue lock is held. -/
lemma bounds_moveTaskSpaces_held {j : Fin NUM_SYS_STRUCT} (h : InBounds k₀ k₀)
    (hj : getSysStructInfo k₀.prid k₀.common.pm = some j)
    (hheld : k₀.held .smpQueueLock = true) : InBounds k₀ (lastState moveTaskSpaces k₀) := by
  rw [lastState, moveTaskSpaces_eq hj]
  cases mapidsOf (k₀.sysStructTop j).kernelRamArea.bottom (k₀.sysStructTop j).userRamArea.limit with
  | nil => exact h
  | cons i l =>
      rw [List.forM_cons, bind_error (moveTaskSpacesPass_held hheld i)]
      exact h

/-- `move_task_space` up to a free slot. -/
lemma bounds_moveTaskSpace {j : Fin NUM_SYS_STRUCT} (h : InBounds k₀ k₀)
    (hj : getSysStructInfo k₀.prid k₀.common.pm = some j) {taskMap : ℕ}
    (htask : taskMap < k₀.mapEntries)
    (hscan : ScansOnly (· < k₀.mapEntries) (fun i => ¬ InUse k₀ i)
      (List.range (numMapId (k₀.sysStructTop j)))) :
    InBounds k₀ (lastState (moveTaskSpace taskMap) k₀) := by
  rw [lastState, moveTaskSpace_eq hj]
  exact (bounds_moveTaskSpaceScan htask _ _ hscan).lastState ⟨h.access htask, rfl⟩

/-! ## Entries -/

/-- The scans over the entries `init_sysinfos` sets up: those over task spaces have 95 slots
for an AMP core and more for SMP cores, and those over a partition are empty for core 0 and for
SMP cores and begin at slot 48 for core 1. -/
lemma entry_scans (baseTtba : Word) (j : Fin NUM_SYS_STRUCT) :
    95 ≤ numMapId (initSysinfos baseTtba j) ∧
    (j.val < 4 → numMapId (initSysinfos baseTtba j) = 95) ∧
    (j = 0 ∨ 4 ≤ j.val → mapidsOf (initSysinfos baseTtba j).kernelRamArea.bottom
      (initSysinfos baseTtba j).userRamArea.limit = []) ∧
    (j = 1 → mapidsOf (initSysinfos baseTtba j).kernelRamArea.bottom
      (initSysinfos baseTtba j).userRamArea.limit = List.range' 48 127) := by
  have hspaces : ∀ j, 95 ≤ numMapId (initSysinfos 0 j) ∧
      (j.val < 4 → numMapId (initSysinfos 0 j) = 95) := by decide
  have hempty : ∀ j, j = 0 ∨ 4 ≤ j.val →
      mapidsOf (kramAreas j).bottom (uramAreas j).limit = [] := by decide
  have hpartition : mapidsOf (kramAreas 1).bottom (uramAreas 1).limit = List.range' 48 127 := by
    decide
  refine ⟨(hspaces j).1, (hspaces j).2, hempty j, ?_⟩
  rintro rfl
  exact hpartition

/-! ## Runs -/

/-- A call; or the map gets any content. -/
inductive MapLabel where
  | call (cpuid : Word) (call : TaskCall)
  | content (map : ℕ → TaskMap)

inductive MapStep : Kernel → MapLabel → Kernel → Prop
  | call {k : Kernel} {cpuid : Word} {call : TaskCall} :
      cpuid < 4 → (∀ pm, call = .changePm pm → isValidPm pm = true) →
      (∀ i, call = .moveTaskSpace i → i < k.mapEntries) →
      MapStep k (.call cpuid call) (k.after cpuid call)
  | content (k : Kernel) (map : ℕ → TaskMap) :
      MapStep k (.content map) { k with smpTskAlcMap := map }

/-- The state in which core 0 leaves `init_smp_kernel` at boot, when no task has been
started. -/
def MapInitial (k : Kernel) : Prop :=
  ∃ (k₀ : Kernel) (map : Word) (content : ℕ → TaskMap),
    initSmpKernel map content k₀ = .ok () k ∧ k₀.prid = PCore ∧
    isValidPm k₀.common.pm = true ∧ (∃ baseTtba, k₀.sysStructTop = initSysinfos baseTtba) ∧
    (∀ t, (k₀.tcb t).mapid = 0) ∧ k₀.mapAccesses = []

/-- A slot in use in the part of the partition of core 1 that lies within the map. -/
def PartitionInUse (k : Kernel) : Prop := ∃ i, 48 ≤ i ∧ i < 95 ∧ InUse k i

/-- The condition under which a call stays within the map. -/
def StaysInMap (k : Kernel) : MapLabel → Prop
  | .call cpuid (.startTask _ lock) => isAmp cpuid k.common.pm = true ∨ k.held lock = true
  | .call cpuid .destroyCoreTasks =>
      cpuid = 0 ∨ cpuid = 1 ∧ k.held .smpQueueLock = true ∧ PartitionInUse k
  | .call cpuid .moveTaskSpaces =>
      isAmp cpuid k.common.pm = false ∨ cpuid = 0 ∨ k.held .smpQueueLock = true ∨
        cpuid = 1 ∧ PartitionInUse k
  | .call cpuid (.moveTaskSpace _) =>
      isAmp cpuid k.common.pm = true ∨ k.held .smpQueueLock = true ∨ ∃ i < 95, ¬ InUse k i
  | _ => True

structure MapInv (k : Kernel) : Prop where
  sysinfos : ∃ baseTtba, k.sysStructTop = initSysinfos baseTtba
  pm : isValidPm k.common.pm = true
  mapEntries : k.mapEntries = 95
  bounds : InBounds k k

lemma PartitionInUse.scansOnly (h : PartitionInUse k) :
    ScansOnly (· < 95) (InUse k) (List.range' 48 127) := by
  obtain ⟨i, hlo, hhi, huse⟩ := h
  exact scansOnly_range' hhi huse (List.mem_range'_1.mpr ⟨hlo, by omega⟩)

/-- What the invariant says of a state that stayed in bounds. -/
lemma MapInv.of_inBounds (h : MapInv k₀) (hb : InBounds k₀ k) : MapInv k := by
  refine ⟨?_, ?_, hb.mapEntries.trans h.mapEntries, rfl, rfl, rfl, ?_, ?_⟩
  · rw [hb.sysStructTop]
    exact h.sysinfos
  · rw [hb.pm]
    exact h.pm
  · rw [hb.mapEntries]
    exact hb.mapid
  · rw [hb.mapEntries]
    exact hb.accesses

section Step

/-- The invariant on another core. -/
lemma MapInv.onCore (h : MapInv k) (cpuid : Word) : MapInv (k.onCore cpuid) :=
  h.of_inBounds (h.bounds.congr rfl rfl rfl (fun _ => rfl) rfl)

lemma MapInv.changePm (h : MapInv k) {pm : Word} (hpm : isValidPm pm = true) :
    MapInv (lastState (changePm pm) k) := by
  cases hheld : k.held .sysCommonLock with
  | true => rwa [lastState_error (changePm_held pm hheld)]
  | false =>
      rw [lastState_ok (changePm_free pm hheld)]
      exact ⟨h.sysinfos, hpm, h.mapEntries, rfl, rfl, rfl, h.bounds.mapid, h.bounds.accesses⟩

lemma MapInv.createTask (h : MapInv k) (taskHead : Option (Word → Word)) (func pri : Word)
    (lock : LockWord) (task context : Word) :
    MapInv (lastState (createTask taskHead func pri lock task context) k) := by
  cases taskHead with
  | none => exact h
  | some taskHead =>
      by_cases hfunc : func = NULL
      · rw [Kernel.createTask, if_pos hfunc]
        exact h
      · have hsame := createTask_sameTasks taskHead hfunc pri lock task context k
        have hzero : (0 : Word).toNat < k.mapEntries := by
          rw [h.mapEntries]
          decide
        have hinit : InBounds k (initTask func pri task context k) :=
          (h.bounds.setTcb (v := ⟨TASK_STATE_READY, pri, 0, 0, 0, NULL, NULL, context⟩) task
            hzero).congr rfl rfl rfl (fun _ => rfl) rfl
        exact h.of_inBounds (hinit.congr hsame.sysStructTop (congrArg SysCommonInfo.pm hsame.common)
          hsame.mapEntries hsame.mapid hsame.mapAccesses)

lemma MapInv.startTask (h : MapInv k) {j : Fin NUM_SYS_STRUCT}
    (hj : getSysStructInfo k.prid k.common.pm = some j) {lock : LockWord}
    (hguard : j.val < 4 ∨ k.held lock = true) (task : Word) :
    MapInv (lastState (startTask task lock) k) := by
  obtain ⟨baseTtba, hsys⟩ := h.sysinfos
  obtain ⟨hspaces, hspacesAmp, -, -⟩ := entry_scans baseTtba j
  have hmax : (k.sysStructTop j).maxNumTaskSpace.toNat = numMapId (initSysinfos baseTtba j) := by
    rw [hsys]
    rfl
  rcases hguard with hamp | hheld
  · refine h.of_inBounds (bounds_startTask h.bounds hj ?_ task lock)
    rw [hmax, hspacesAmp hamp, h.mapEntries]
  · rwa [lastState_error (startTask_held task hheld hj (by omega))]

lemma MapInv.destroyCoreTasks (h : MapInv k)
    (hguard : k.prid = 0 ∨ k.prid = 1 ∧ k.held .smpQueueLock = true ∧ PartitionInUse k) :
    MapInv (lastState destroyCoreTasks k) := by
  obtain ⟨baseTtba, hsys⟩ := h.sysinfos
  rcases hguard with hprid | ⟨hprid, hheld, huse⟩
  · obtain ⟨-, -, hempty, -⟩ := entry_scans baseTtba 0
    have hj : k.prid.toNat = (0 : Fin NUM_SYS_STRUCT).val := by
      rw [hprid]
      rfl
    rw [lastState, destroyCoreTasks_eq hj, hsys, hempty (.inl rfl)]
    exact h
  · obtain ⟨-, -, -, hpartition⟩ := entry_scans baseTtba 1
    have hj : k.prid.toNat = (1 : Fin NUM_SYS_STRUCT).val := by
      rw [hprid]
      rfl
    refine h.of_inBounds (bounds_destroyCoreTasks h.bounds hj hheld ?_)
    rw [hsys, hpartition rfl, h.mapEntries]
    exact huse.scansOnly

lemma MapInv.moveTaskSpaces (h : MapInv k) {j : Fin NUM_SYS_STRUCT}
    (hj : getSysStructInfo k.prid k.common.pm = some j)
    (hguard : j = 0 ∨ 4 ≤ j.val ∨ k.held .smpQueueLock = true ∨ j = 1 ∧ PartitionInUse k) :
    MapInv (lastState moveTaskSpaces k) := by
  obtain ⟨baseTtba, hsys⟩ := h.sysinfos
  obtain ⟨hspaces, -, hempty, hpartition⟩ := entry_scans baseTtba j
  have hnone : j = 0 ∨ 4 ≤ j.val → MapInv (lastState Kernel.moveTaskSpaces k) := by
    intro hj0
    rw [lastState, moveTaskSpaces_eq hj, hsys, hempty hj0]
    exact h
  rcases hguard with h0 | hsmp | hheld | ⟨h1, huse⟩
  · exact hnone (.inl h0)
  · exact hnone (.inr hsmp)
  · exact h.of_inBounds (bounds_moveTaskSpaces_held h.bounds hj hheld)
  · refine h.of_inBounds (bounds_moveTaskSpaces h.bounds hj ?_ ?_)
    · rw [hsys]
      omega
    · rw [hsys, hpartition h1, h.mapEntries]
      exact huse.scansOnly

lemma MapInv.moveTaskSpace (h : MapInv k) {j : Fin NUM_SYS_STRUCT}
    (hj : getSysStructInfo k.prid k.common.pm = some j) {taskMap : ℕ}
    (htask : taskMap < k.mapEntries)
    (hguard : j.val < 4 ∨ k.held .smpQueueLock = true ∨ ∃ i < 95, ¬ InUse k i) :
    MapInv (lastState (moveTaskSpace taskMap) k) := by
  obtain ⟨baseTtba, hsys⟩ := h.sysinfos
  obtain ⟨hspaces, hspacesAmp, -, -⟩ := entry_scans baseTtba j
  rw [← hsys] at hspaces hspacesAmp
  rcases hguard with hamp | hheld | ⟨i, hi, hfree⟩
  · refine h.of_inBounds (bounds_moveTaskSpace h.bounds hj htask ?_)
    refine scansOnly_of_forall _ fun i hi => ?_
    rw [List.mem_range, hspacesAmp hamp] at hi
    rwa [h.mapEntries]
  · rw [lastState_error (moveTaskSpace_held hj (by omega) hheld taskMap)]
    exact h.of_inBounds (h.bounds.access htask)
  · refine h.of_inBounds (bounds_moveTaskSpace h.bounds hj htask ?_)
    rw [List.range_eq_range', h.mapEntries]
    exact scansOnly_range' hi hfree (List.mem_range'_1.mpr ⟨Nat.zero_le i, by omega⟩)

/-- A call that meets the condition stays within the map. -/
lemma MapInv.after (h : MapInv k) {cpuid : Word} {call : TaskCall} (hc : cpuid < 4)
    (hpm : ∀ pm, call = .changePm pm → isValidPm pm = true)
    (htask : ∀ i, call = .moveTaskSpace i → i < k.mapEntries)
    (hguard : StaysInMap k (.call cpuid call)) : MapInv (k.after cpuid call) := by
  have hcore := h.onCore cpuid
  obtain ⟨j, hj, hamp, hsmp⟩ := getSysStructInfo_valid hc h.pm
  have hlt : isAmp cpuid k.common.pm = true → j.val < 4 := fun hisAmp => hamp hisAmp ▸ hc
  rw [Kernel.after]
  cases call with
  | createTask taskHead func pri lock task context => exact hcore.createTask ..
  | startTask task lock => exact hcore.startTask hj (hguard.imp_left hlt) task
  | endTask task => exact hcore.of_inBounds ((bounds_endTask task).lastState hcore.bounds)
  | destroyTask task => exact hcore.of_inBounds ((bounds_destroyTask task).lastState hcore.bounds)
  | destroyCoreTasks => exact hcore.destroyCoreTasks hguard
  | moveTaskSpaces =>
      refine hcore.moveTaskSpaces hj ?_
      cases hmode : isAmp cpuid k.common.pm with
      | false => exact .inr (.inl (hsmp hmode))
      | true =>
          rcases hguard with hnot | h0 | hheld | ⟨h1, huse⟩
          · exact absurd (hmode.symm.trans hnot) (by decide)
          · refine .inl (Fin.ext ((hamp hmode).trans ?_))
            rw [h0]
            rfl
          · exact .inr (.inr (.inl hheld))
          · refine .inr (.inr (.inr ⟨Fin.ext ((hamp hmode).trans ?_), huse⟩))
            rw [h1]
            rfl
  | moveTaskSpace taskMap => exact hcore.moveTaskSpace hj (htask _ rfl) (hguard.imp_left hlt)
  | setUserAsid task c pm =>
      rw [TaskCall.run, lastState_discard]
      exact hcore.of_inBounds ((bounds_setUserAsid task c pm).lastState hcore.bounds)
  | changePm pm =>
      rw [TaskCall.run, lastState_discard]
      exact hcore.changePm (hpm pm rfl)

lemma MapInv.step {l : MapLabel} (h : MapInv k) (hguard : StaysInMap k l)
    (hs : MapStep k l k') : MapInv k' := by
  cases hs with
  | call hc hpm htask => exact h.after hc hpm htask hguard
  | content map => exact h.of_inBounds (h.bounds.congr rfl rfl rfl (fun _ => rfl) rfl)

lemma MapInitial.inv (h : MapInitial k) : MapInv k := by
  obtain ⟨k₀, map, content, hinit, hprid, hpm, ⟨baseTtba, hsys⟩, hmapid, haccesses⟩ := h
  have hc : k₀.prid < 4 := by
    rw [hprid]
    decide
  obtain ⟨j, hj, -⟩ := getSysStructInfo_valid hc hpm
  obtain ⟨freed, hok⟩ := initSmpKernel_ok hprid hj map content
  obtain ⟨-, rfl⟩ := EStateM.Result.ok.inj (hok.symm.trans hinit)
  have hentries : (k₀.sysStructTop 0).maxNumTaskSpace.toNat = 95 := by
    rw [hsys]
    rfl
  refine ⟨⟨baseTtba, hsys⟩, hpm, hentries, rfl, rfl, rfl, fun t => ?_, fun i hi => ?_⟩
  · show (k₀.tcb t).mapid.toNat < (k₀.sysStructTop 0).maxNumTaskSpace.toNat
    rw [hmapid, hentries]
    decide
  · have hi' : i ∈ k₀.mapAccesses := hi
    rw [haccesses] at hi'
    exact absurd hi' List.not_mem_nil

end Step

/-- **Bounds of the task map.**  In every run of calls on any cores after `init_smp_kernel`,
whatever the map holds, in which the calls that scan the map do so for an AMP core, or come to
a halt within the map, every index at which the map was read or written is smaller than the
number of its entries.  A call whose messages do not return gets no further than in the run here
(`Model/Kernel.lean`). -/
theorem map_accesses_bounded {ls : List MapLabel} (h0 : MapInitial k)
    (hr : Run (guarded StaysInMap MapStep) k ls k') : ∀ i ∈ k'.mapAccesses, i < k'.mapEntries :=
  (hr.guarded_invariant (fun _ _ _ h hguard hs => h.step hguard hs) h0.inv).bounds.accesses

/-- The kernel when core 0 has executed `init_smp_kernel`, with a free map. -/
def bootMap : Kernel := lastState (initSmpKernel 0x22000008 fun _ => ⟨INIT_MAP, NULL⟩) atBoot

lemma bootMap_initial : MapInitial bootMap :=
  ⟨atBoot, 0x22000008, fun _ => ⟨INIT_MAP, NULL⟩, rfl, rfl, rfl, ⟨TTBA_BASE, rfl⟩,
    fun _ => rfl, rfl⟩

/-- The state after a label. -/
def afterLabel (k : Kernel) : MapLabel → Kernel
  | .call cpuid call => k.after cpuid call
  | .content map => { k with smpTskAlcMap := map }

/-- A task is started and ended in AMP mode. -/
theorem map_accesses_bounded_amp : ∃ ls k', k'.mapAccesses ≠ [] ∧
    (∀ i ∈ k'.mapAccesses, i < k'.mapEntries) ∧ Run (guarded StaysInMap MapStep) bootMap ls k' := by
  have hrun : Run (guarded StaysInMap MapStep) bootMap [.call 0 (.changePm 0xF),
      .call 0 (.createTask (some fun _ => 0x100) 0x8000 0 .smpQueueLock 8 16),
      .call 0 (.startTask 8 .smpQueueLock), .call 0 (.endTask 8)] _ := Run.of_foldl afterLabel
    ⟨⟨trivial, .call (by decide) (fun pm h => TaskCall.changePm.inj h ▸ rfl) (by simp)⟩,
      ⟨trivial, .call (by decide) (by simp) (by simp)⟩,
      ⟨.inl rfl, .call (by decide) (by simp) (by simp)⟩,
      ⟨trivial, .call (by decide) (by simp) (by simp)⟩, trivial⟩
  exact ⟨_, _, List.cons_ne_nil _ _, map_accesses_bounded bootMap_initial hrun, hrun⟩

/-- In SMP mode `start_task` reads entry 95 of a map of 95 entries. -/
theorem startTask_leaves_map :
    ¬ ∀ (k k' : Kernel) (ls : List MapLabel), MapInitial k → Run MapStep k ls k' →
      ∀ i ∈ k'.mapAccesses, i < k'.mapEntries := by
  intro hclaim
  have hj : getSysStructInfo 0 0 = some 4 := by decide
  have hheld : (bootMap.onCore 0).held .smpQueueLock = false := rfl
  obtain ⟨k', hok, hstarts⟩ := startTask_ok 8 hheld hj
  have hstep : MapStep bootMap (.call 0 (.startTask 8 .smpQueueLock)) _ :=
    .call (by decide) (by simp) (by simp)
  have hbound := hclaim _ _ _ bootMap_initial (.single hstep) 95
  have hafter : bootMap.after 0 (.startTask 8 .smpQueueLock) = k' := lastState_ok hok
  have hentries : k'.mapEntries = 95 := hstarts.mapEntries
  rw [hafter, hentries] at hbound
  exact absurd (hbound (hstarts.mapAccesses 95 (by decide))) (lt_irrefl 95)

end Kernel

end Rpi2Baremetal
