import Rpi2Baremetal.Properties.SpaceMigration

/-!
# The locks of the task functions

A function of `task.c` that is called with its locks free should give every lock it takes back
before it returns, and never ask for one that its core holds.  `move_task_space` returns with
the queue lock when it has found a slot, and `move_task_spaces` calls it with the queue lock
held.
-/

namespace Rpi2Baremetal

namespace Kernel

open Framework

variable {k k' : Kernel} {task : Word} {lock : LockWord}

/-- A call asks only for lock words that are free and releases only lock words that are 1, and
it returns with every lock word as it was. -/
def Balanced (call : TaskCall) (k : Kernel) : Prop :=
  ∃ k', call.run k = .ok () k' ∧ k'.held = k.held

/-- The functions that take a lock of the queues. -/
def TakesQueueLock : TaskCall → Prop
  | .createTask .. | .startTask .. | .destroyTask _ | .destroyCoreTasks => True
  | .moveTaskSpaces | .moveTaskSpace _ => True
  | .endTask _ | .setUserAsid .. | .changePm _ => False

/-- The queue lock and the lock that is passed are free. -/
def LocksFree (k : Kernel) : TaskCall → Prop
  | .createTask _ _ _ lock _ _ | .startTask _ lock =>
      k.held .smpQueueLock = false ∧ k.held lock = false
  | _ => k.held .smpQueueLock = false

/-- When a call of a core with entry `ssi` is balanced. -/
def BalancedWhen (k : Kernel) (ssi : SysStructInfo) : TaskCall → Prop
  | .createTask taskHead func pri _ _ _ => taskHead = none ∨ func = NULL ∨ pri < SMP_MAX_PRI
  | .moveTaskSpace _ => ∀ i < numMapId ssi, InUse k i
  | .moveTaskSpaces => ∀ i ∈ vacated ssi, ¬ InUse k i
  | _ => True

/-! ## One task -/

lemma createTask_balanced_iff (taskHead : Option (Word → Word)) (func pri task context : Word)
    (h : k.held lock = false) :
    Balanced (.createTask taskHead func pri lock task context) k ↔
      taskHead = none ∨ func = NULL ∨ pri < SMP_MAX_PRI := by
  show (∃ k', createTask taskHead func pri lock task context k = .ok () k' ∧ _) ↔ _
  cases taskHead with
  | none => exact ⟨fun _ => .inl rfl, fun _ => ⟨k, rfl, rfl⟩⟩
  | some taskHead =>
      by_cases hfunc : func = NULL
      · refine ⟨fun _ => .inr (.inl hfunc), fun _ => ⟨k, ?_, rfl⟩⟩
        rw [createTask, if_pos hfunc]
        rfl
      · have hinit : (initTask func pri task context k).held lock = false := h
        rw [createTask_some taskHead hfunc]
        by_cases hpri : pri < SMP_MAX_PRI
        · exact ⟨fun _ => .inr (.inr hpri), fun _ => ⟨_, enqueueTask_ok hpri hinit task, rfl⟩⟩
        · rw [enqueueTask_outOfBounds hpri hinit]
          simp [hfunc, hpri]

lemma startTask_balanced {j : Fin NUM_SYS_STRUCT}
    (hj : getSysStructInfo k.prid k.common.pm = some j) (task : Word)
    (h : k.held lock = false) : Balanced (.startTask task lock) k := by
  obtain ⟨k', hok, hstarts⟩ := startTask_ok task h hj
  exact ⟨k', hok, hstarts.held⟩

lemma destroyTask_balanced (task : Word) (h : k.held .smpQueueLock = false) :
    Balanced (.destroyTask task) k := by
  apply Exists.intro
  exact ⟨destroyTask_free task h, rfl⟩

/-! ## The scans -/

/-- A pass of `destroy_core_tasks` is balanced, whatever the slot holds. -/
lemma destroyCoreTasksPass_held (h : k.held .smpQueueLock = false) (i : ℕ) :
    ∃ k', destroyCoreTasksPass i k = .ok () k' ∧ k'.held = k.held := by
  by_cases hi : InUse k i
  · rw [destroyCoreTasksPass_inUse hi]
    exact destroyTask_balanced (k := { k with mapAccesses := i :: i :: k.mapAccesses }) _ h
  · apply Exists.intro
    exact ⟨destroyCoreTasksPass_free hi, rfl⟩

lemma forM_destroyCoreTasksPass_held (h : k.held .smpQueueLock = false) (l : List ℕ) :
    ∃ k', forM l destroyCoreTasksPass k = .ok () k' ∧ k'.held = k.held := by
  refine forM_returns (I := fun _ (k' : Kernel) => k'.held = k.held) rfl fun _ i _ _ k' hk' => ?_
  obtain ⟨k₁, hpass, hheld⟩ := destroyCoreTasksPass_held (hk' ▸ h) i
  exact ⟨k₁, hpass, hheld.trans hk'⟩

lemma destroyCoreTasks_balanced {j : Fin NUM_SYS_STRUCT} (hj : k.prid.toNat = j.val)
    (h : k.held .smpQueueLock = false) : Balanced .destroyCoreTasks k := by
  obtain ⟨k', hok, hheld⟩ := forM_destroyCoreTasksPass_held h
    (mapidsOf (k.sysStructTop j).kernelRamArea.bottom (k.sysStructTop j).userRamArea.limit)
  exact ⟨k', (destroyCoreTasks_eq hj).trans hok, hheld⟩

/-- A computation that always returns and touches no lock. -/
def KeepsLocks {α : Type} (x : KernelM α) : Prop :=
  ∀ k, ∃ a k', x k = .ok a k' ∧ k'.held = k.held

lemma KeepsLocks.bind {α β : Type} {x : KernelM α} {f : α → KernelM β} (hx : KeepsLocks x)
    (hf : ∀ a, KeepsLocks (f a)) : KeepsLocks (x >>= f) := by
  intro k
  obtain ⟨a, k₁, hok, hheld⟩ := hx k
  obtain ⟨b, k₂, hok', hheld'⟩ := hf a k₁
  exact ⟨b, k₂, (bind_ok hok).trans hok', hheld'.trans hheld⟩

lemma keepsLocks_readMap (i : ℕ) : KeepsLocks (readMap i) := fun _ => ⟨_, _, rfl, rfl⟩

lemma keepsLocks_modifyMap (i : ℕ) (f : TaskMap → TaskMap) : KeepsLocks (modifyMap i f) :=
  fun _ => ⟨_, _, rfl, rfl⟩

lemma keepsLocks_readTcb (t : Word) : KeepsLocks (readTcb t) := fun _ => ⟨_, _, rfl, rfl⟩

lemma keepsLocks_modifyTcb (t : Word) (f : TCB → TCB) : KeepsLocks (modifyTcb t f) :=
  fun _ => ⟨_, _, rfl, rfl⟩

lemma keepsLocks_invalidateTlbs (asid : Word) : KeepsLocks (invalidateTlbs asid) :=
  fun _ => ⟨_, _, rfl, rfl⟩

lemma keepsLocks_writeAsidHead (asid v : Word) : KeepsLocks (writeAsidHead asid v) :=
  fun _ => ⟨_, _, rfl, rfl⟩

lemma keepsLocks_modifyMem (f : Mem → Mem) : KeepsLocks (modifyMem f) :=
  fun _ => ⟨_, _, rfl, rfl⟩

/-- Once `move_task_space` has found a slot it touches no lock. -/
lemma keepsLocks_moveTaskSpaceTo (taskMap : ℕ) (asidLimit resource : Word) (mapid : ℕ) :
    KeepsLocks (moveTaskSpaceTo taskMap asidLimit resource mapid) := by
  have hcopy : ∀ target : Word,
      KeepsLocks (copySpace target resource >>= fun _ => creUsrTbl target) :=
    fun target => (keepsLocks_modifyMem _).bind fun _ => keepsLocks_modifyMem _
  apply (keepsLocks_readMap taskMap).bind
  intro map
  apply (keepsLocks_modifyMap mapid _).bind
  intro _
  apply (keepsLocks_readMap taskMap).bind
  intro map
  apply (keepsLocks_modifyMap mapid _).bind
  intro _
  apply (keepsLocks_readMap taskMap).bind
  intro map
  apply (keepsLocks_readTcb map.task).bind
  intro t
  by_cases hasid : t.asid ≥ asidLimit
  · simp only [if_pos hasid]
    apply (keepsLocks_invalidateTlbs t.asid).bind
    intro _
    apply (keepsLocks_writeAsidHead t.asid UNUSED_ASID).bind
    intro _
    apply (keepsLocks_modifyTcb map.task (.setAsid 0)).bind
    intro _
    exact hcopy _
  · simp only [if_neg hasid]
    exact hcopy _

/-- The scan of `move_task_space` gives the lock back over slots in use, and keeps it when it
has found a free one. -/
lemma moveTaskSpaceScan_balanced_iff (taskMap : ℕ) (asidLimit resource : Word) {l : List ℕ}
    (h : k.held .smpQueueLock = false) :
    (∃ k', moveTaskSpaceScan taskMap asidLimit resource l k = .ok () k' ∧ k'.held = k.held) ↔
      ∀ i ∈ l, InUse k i := by
  induction l generalizing k with
  | nil => exact ⟨fun _ i hi => absurd hi List.not_mem_nil, fun _ => ⟨k, rfl, rfl⟩⟩
  | cons i l ih =>
      rw [moveTaskSpaceScan, lockedRead_ok h, List.forall_mem_cons]
      by_cases huse : InUse k i
      · have hstate : (k.smpTskAlcMap i).state ≠ 0 := huse
        have hrel : Function.update (lockedRead i k).held .smpQueueLock false = k.held := by
          rw [lockedRead, Function.update_idem, update_held h]
        rw [if_pos hstate, bind_ok (spinRel_held (lockedRead_held i k)), hrel]
        rw [and_iff_right huse]
        exact ih (k := { lockedRead i k with held := k.held }) h
      · have hstate : ¬ (k.smpTskAlcMap i).state ≠ 0 := huse
        obtain ⟨a, k₁, hok, hheld⟩ :=
          keepsLocks_moveTaskSpaceTo taskMap asidLimit resource i (lockedRead i k)
        rw [if_neg hstate, hok]
        refine ⟨?_, fun hall => absurd hall.1 huse⟩
        rintro ⟨k', hk', hsame⟩
        cases hk'
        have hlocked : k.held .smpQueueLock = true := by
          rw [← hsame, hheld]
          exact lockedRead_held i k
        rw [h] at hlocked
        cases hlocked

lemma moveTaskSpace_balanced_iff {j : Fin NUM_SYS_STRUCT}
    (hj : getSysStructInfo k.prid k.common.pm = some j) (h : k.held .smpQueueLock = false)
    (taskMap : ℕ) :
    Balanced (.moveTaskSpace taskMap) k ↔ ∀ i < numMapId (k.sysStructTop j), InUse k i := by
  show (∃ k', moveTaskSpace taskMap k = .ok () k' ∧ k'.held = k.held) ↔ _
  rw [moveTaskSpace_eq hj]
  refine Iff.trans (moveTaskSpaceScan_balanced_iff _ _ _
    (k := { k with mapAccesses := taskMap :: k.mapAccesses }) h) ?_
  exact forall_congr' fun i => by rw [List.mem_range]; rfl

lemma moveTaskSpaces_balanced_iff {j : Fin NUM_SYS_STRUCT}
    (hj : getSysStructInfo k.prid k.common.pm = some j) (hpos : 0 < numMapId (k.sysStructTop j))
    (h : k.held .smpQueueLock = false) :
    Balanced .moveTaskSpaces k ↔ ∀ i ∈ vacated (k.sysStructTop j), ¬ InUse k i := by
  show (∃ k', moveTaskSpaces k = .ok () k' ∧ k'.held = k.held) ↔ _
  rw [moveTaskSpaces_eq hj]
  constructor
  · rintro ⟨k', hok, -⟩ i hi
    exact (forM_moveTaskSpacesPass_ok hj hpos hok i hi).2
  · intro hfree
    exact ⟨_, forM_moveTaskSpacesPass_free fun i hi => ⟨h, hfree i hi⟩, rfl⟩

/-! ## Balance -/

/-- **Balance of the queue lock.**  On every core and in every valid mode, with any content of
the map, a call with its locks free is balanced exactly if `create_task` has a priority of the
queue, `move_task_space` finds no free slot, or `move_task_spaces` no slot of the partition in
use; the other calls always are.  Messages are taken to return (`Model/Kernel.lean`). -/
theorem queue_lock_balanced_iff {baseTtba : Word} {call : TaskCall}
    (hsys : k.sysStructTop = initSysinfos baseTtba) (hcpuid : k.prid < 4)
    (hpm : isValidPm k.common.pm = true) (htakes : TakesQueueLock call)
    (hfree : LocksFree k call) :
    ∃ j, getSysStructInfo k.prid k.common.pm = some j ∧
      (Balanced call k ↔ BalancedWhen k (k.sysStructTop j) call) := by
  obtain ⟨j, hj, -⟩ := getSysStructInfo_valid hcpuid hpm
  refine ⟨j, hj, ?_⟩
  cases call with
  | createTask taskHead func pri lock task context =>
      exact createTask_balanced_iff taskHead func pri task context hfree.2
  | startTask task lock => exact iff_of_true (startTask_balanced hj task hfree.2) trivial
  | destroyTask task => exact iff_of_true (destroyTask_balanced task hfree) trivial
  | destroyCoreTasks =>
      have hcore : k.prid.toNat < NUM_SYS_STRUCT := by
        have := BitVec.lt_def.mp hcpuid
        exact lt_trans this (by decide)
      exact iff_of_true (destroyCoreTasks_balanced (j := ⟨_, hcore⟩) rfl hfree) trivial
  | moveTaskSpaces =>
      have hpos : 0 < numMapId (k.sysStructTop j) := by
        rw [hsys]
        exact Nat.lt_of_lt_of_le (by decide) (entry_scans baseTtba j).1
      exact moveTaskSpaces_balanced_iff hj hpos hfree
  | moveTaskSpace taskMap => exact moveTaskSpace_balanced_iff hj hfree taskMap
  | endTask task => exact htakes.elim
  | setUserAsid task cpuid pm => exact htakes.elim
  | changePm pm => exact htakes.elim

/-- The kernel at boot with every slot in use. -/
def fullMap : Kernel := { atBoot with smpTskAlcMap := fun _ => ⟨RUNNING_MAP, 8⟩ }

/-- With every slot in use, `move_task_space` gives the queue lock back each time. -/
theorem queue_lock_balanced_iff_fullMap : Balanced (.moveTaskSpace 0) fullMap := by
  have hsys : fullMap.sysStructTop = initSysinfos TTBA_BASE := rfl
  obtain ⟨j, -, hiff⟩ := queue_lock_balanced_iff (k := fullMap) hsys (by decide) (by decide)
    (show TakesQueueLock (.moveTaskSpace 0) from trivial) rfl
  exact hiff.mpr fun i _ => show RUNNING_MAP ≠ INIT_MAP by decide

/-- At boot every slot is free, and `move_task_space` returns with the lock. -/
theorem move_task_space_keeps_lock : ¬ ∀ (k : Kernel) (call : TaskCall),
    (∃ baseTtba, k.sysStructTop = initSysinfos baseTtba) → k.prid < 4 →
      isValidPm k.common.pm = true → TakesQueueLock call → LocksFree k call →
      Balanced call k := by
  intro hbalanced
  have hj : getSysStructInfo atBoot.prid atBoot.common.pm = some 4 := by decide
  have hcall := hbalanced atBoot (.moveTaskSpace 0) ⟨TTBA_BASE, rfl⟩ (by decide) (by decide)
    trivial rfl
  rw [moveTaskSpace_balanced_iff hj rfl] at hcall
  exact hcall 0 (by decide) rfl

end Kernel

end Rpi2Baremetal
