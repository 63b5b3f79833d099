import Rpi2Baremetal.Framework.Transition
import Rpi2Baremetal.Properties.TaskPlacement
import Mathlib.Order.CompletePartialOrder
import Mathlib.Tactic

/-!
# The spaces of tasks

`start_task` gives a task the last free slot of the map, and with it the 1MB section that many
sections above the bottom of the user RAM of the current mode.  The scan goes on after it has
found a slot, so one call takes every free slot; when none is free the task starts all the
same; and a slot stands for different sections under entries whose user RAM begins elsewhere.

What keeps the spaces of the running tasks apart is that each of them has a slot of the map that
is marked as its own.  `start_task` keeps this so if it finds a free slot, or if the task has its
slot from an earlier start; `destroy_task` does if the slot that the task names, which is 0 in one
that was never started, belongs to no other running task.  Different slots are different sections
if the tasks were started under entries whose user RAM begins at the same address or does not
overlap.

The calls are those of one core after another, each from its beginning to its end, or to the lock
that it waits for.  What they print is left out; a call that prints returns on core 0, and on the
other cores as long as their MMU is off (`Model/Kernel.lean`).  `kmalloc` is taken to return fresh
blocks, and `kfree` to change none of what is looked at here: the TCBs, the map, the modes.
-/

namespace Rpi2Baremetal

/-- The addresses of the section at `ttba`. -/
def spaceAt (ttba : Word) : Set ℕ :=
  Set.Ico ttba.toNat (ttba.toNat + Mmu.SECTION_SIZE.toNat)

def Area.addresses (a : Area) : Set ℕ := Set.Icc a.bottom.toNat a.limit.toNat

/-- Two areas in which the sections of different slots do not overlap: they begin at the same
address, or have none in common. -/
def Area.KeepsApart (a b : Area) : Prop :=
  a.bottom = b.bottom ∨ Disjoint a.addresses b.addresses

lemma Area.KeepsApart.symm {a b : Area} (h : a.KeepsApart b) : b.KeepsApart a :=
  h.imp Eq.symm fun hareas => hareas.symm

namespace Kernel

open Framework

/-- The tasks that were created and not destroyed, and the entry under which each task was
started last since it was created. -/
structure TaskGhost where
  live : List Word
  startedUnder : Word → Option (Fin NUM_SYS_STRUCT)

abbrev TaskState := Kernel × TaskGhost

/-- `kmalloc` returns fresh memory to `create_task`, the other calls get tasks that exist, and
the modes are valid. -/
def TaskCallLegal (s : TaskState) : TaskCall → Prop
  | .createTask _ _ _ _ task context => task ≠ NULL ∧ context ≠ NULL ∧ task ∉ s.2.live
  | .startTask task _ => task ∈ s.2.live
  | .endTask task => task ∈ s.2.live
  | .destroyTask task => task ∈ s.2.live
  | .changePm pm => isValidPm pm = true
  | _ => False

def taskNext (s : TaskState) : Word × TaskCall → TaskGhost
  | (_, .createTask (some _) func _ _ task _) =>
      if func = NULL then s.2 else
        ⟨task :: s.2.live, Function.update s.2.startedUnder task none⟩
  | (cpuid, .startTask task _) => { s.2 with
      startedUnder := Function.update s.2.startedUnder task
        (getSysStructInfo cpuid s.1.common.pm) }
  | (_, .destroyTask task) => { s.2 with live := s.2.live.filter (· ≠ task) }
  | _ => s.2

abbrev TaskStep := CallStep TaskCallLegal taskNext

structure TaskInitial (s : TaskState) : Prop where
  sysinfos : ∃ baseTtba, s.1.sysStructTop = initSysinfos baseTtba
  pm : isValidPm s.1.common.pm = true
  map : ∀ i, (s.1.smpTskAlcMap i).state = INIT_MAP
  live : s.2.live = []

/-- A task in `TASK_STATE_RUNNING`. -/
def IsRunning (s : TaskState) (task : Word) : Prop :=
  task ∈ s.2.live ∧ (s.1.tcb task).state = TASK_STATE_RUNNING

/-- The spaces of running tasks are disjoint, and each lies in the user RAM of the entry under
which its task was started. -/
structure SpacesExclusive (s : TaskState) : Prop where
  disjoint : ∀ task task', IsRunning s task → IsRunning s task' → task ≠ task' →
    Disjoint (spaceAt (s.1.tcb task).ttba) (spaceAt (s.1.tcb task').ttba)
  inside : ∀ task, IsRunning s task → ∃ i, s.2.startedUnder task = some i ∧
    spaceAt (s.1.tcb task).ttba ⊆ (s.1.sysStructTop i).userRamArea.addresses

/-! ## Slots -/

/-- The entry that the slot of the task names is marked with the task. -/
def NamesOwn (k : Kernel) (task : Word) : Prop :=
  (k.smpTskAlcMap (k.tcb task).mapid.toNat).task = task

/-- The task has the slot that it names. -/
structure OwnsSlot (k : Kernel) (task : Word) : Prop where
  used : (k.smpTskAlcMap (k.tcb task).mapid.toNat).state ≠ INIT_MAP
  own : NamesOwn k task

/-- The slot that the task names is one of entry `j`, and it has the section of that slot. -/
structure AtSlot (k : Kernel) (task : Word) (j : Fin NUM_SYS_STRUCT) : Prop where
  slot : (k.tcb task).mapid.toNat < (k.sysStructTop j).maxNumTaskSpace.toNat
  ttba : (k.tcb task).ttba = slotBase (k.sysStructTop j) (k.tcb task).mapid.toNat

/-- The task has a slot of entry `j` from an earlier start. -/
def HasSlotOf (s : TaskState) (task : Word) (j : Fin NUM_SYS_STRUCT) : Prop :=
  NamesOwn s.1 task ∧ (s.1.tcb task).mapid.toNat < (s.1.sysStructTop j).maxNumTaskSpace.toNat ∧
    ∃ i, s.2.startedUnder task = some i ∧
      (s.1.sysStructTop i).userRamArea.bottom = (s.1.sysStructTop j).userRamArea.bottom

/-- Every other running task was started under an entry that keeps apart from entry `j`. -/
def OthersApart (s : TaskState) (task : Word) (j : Fin NUM_SYS_STRUCT) : Prop :=
  ∀ t, IsRunning s t → t ≠ task → ∀ i, s.2.startedUnder t = some i →
    (s.1.sysStructTop i).userRamArea.KeepsApart (s.1.sysStructTop j).userRamArea

/-- A call of `start_task` waits for its lock, or finds a free slot or a task that has one, and
the areas of the running tasks keep apart from that of the entry.  A call of `destroy_task` gets a
task that names no slot of another running task. -/
def KeepsSlots (s : TaskState) : Word × TaskCall → Prop
  | (cpuid, .startTask task lock) => ∀ j, getSysStructInfo cpuid s.1.common.pm = some j →
      s.1.held lock = false →
        ((∃ slot, FreeSlot s.1 (s.1.sysStructTop j) slot) ∨ HasSlotOf s task j) ∧
          OthersApart s task j
  | (_, .destroyTask task) => ∀ t, IsRunning s t → t ≠ task →
      (s.1.smpTskAlcMap (s.1.tcb task).mapid.toNat).task ≠ t
  | _ => True

/-- Every task that was started has the section of the slot it names, the running tasks have
slots of their own, and their areas keep apart. -/
structure TaskInv (s : TaskState) : Prop where
  sysinfos : ∃ baseTtba, s.1.sysStructTop = initSysinfos baseTtba
  pm : isValidPm s.1.common.pm = true
  started : ∀ t ∈ s.2.live, ∀ i, s.2.startedUnder t = some i → AtSlot s.1 t i
  running : ∀ t, IsRunning s t → (∃ i, s.2.startedUnder t = some i) ∧ OwnsSlot s.1 t
  apart : ∀ t, IsRunning s t → ∀ i, s.2.startedUnder t = some i → OthersApart s t i

/-! ## The sections of an area -/

/-- An area has room for one section more than `init_sysinfos` counts. -/
lemma maxNumTaskSpace_fits (baseTtba : Word) (j : Fin NUM_SYS_STRUCT) :
    0 < (initSysinfos baseTtba j).maxNumTaskSpace.toNat ∧
    (uramAreas j).bottom.toNat
        + ((initSysinfos baseTtba j).maxNumTaskSpace.toNat + 1) * Mmu.SECTION_SIZE.toNat
      = (uramAreas j).limit.toNat + 1 := by
  have hall : ∀ j, 0 < (initSysinfos 0 j).maxNumTaskSpace.toNat ∧
      (uramAreas j).bottom.toNat
          + ((initSysinfos 0 j).maxNumTaskSpace.toNat + 1) * Mmu.SECTION_SIZE.toNat
        = (uramAreas j).limit.toNat + 1 := by decide
  exact hall j

lemma slotBase_toNat (baseTtba : Word) (j : Fin NUM_SYS_STRUCT) {slot : ℕ}
    (hslot : slot < (initSysinfos baseTtba j).maxNumTaskSpace.toNat) :
    (slotBase (initSysinfos baseTtba j) slot).toNat
      = (uramAreas j).bottom.toNat + slot * 2 ^ 20 := by
  obtain ⟨-, hfit⟩ := maxNumTaskSpace_fits baseTtba j
  have hsize : Mmu.SECTION_SIZE.toNat = 2 ^ 20 := rfl
  have hlimit := (uramAreas j).limit.isLt
  show (BitVec.ofNat 32 slot * Mmu.SECTION_SIZE + (uramAreas j).bottom).toNat = _
  rw [BitVec.toNat_add, BitVec.toNat_mul, BitVec.toNat_ofNat, hsize]
  rw [hsize] at hfit
  omega

lemma spaceAt_slotBase (baseTtba : Word) (j : Fin NUM_SYS_STRUCT) {slot : ℕ}
    (hslot : slot < (initSysinfos baseTtba j).maxNumTaskSpace.toNat) :
    spaceAt (slotBase (initSysinfos baseTtba j) slot)
      = Set.Ico ((uramAreas j).bottom.toNat + slot * 2 ^ 20)
          ((uramAreas j).bottom.toNat + (slot + 1) * 2 ^ 20) := by
  rw [spaceAt, slotBase_toNat baseTtba j hslot, show Mmu.SECTION_SIZE.toNat = 2 ^ 20 from rfl,
    Nat.add_one_mul, ← Nat.add_assoc]

/-- The section of a slot lies in the area. -/
lemma slot_inside (baseTtba : Word) (j : Fin NUM_SYS_STRUCT) {slot : ℕ}
    (hslot : slot < (initSysinfos baseTtba j).maxNumTaskSpace.toNat) :
    spaceAt (slotBase (initSysinfos baseTtba j) slot) ⊆ (uramAreas j).addresses := by
  obtain ⟨-, hfit⟩ := maxNumTaskSpace_fits baseTtba j
  rw [show Mmu.SECTION_SIZE.toNat = 2 ^ 20 from rfl] at hfit
  intro a ha
  rw [spaceAt_slotBase baseTtba j hslot, Set.mem_Ico] at ha
  rw [Area.addresses, Set.mem_Icc]
  omega

/-- Different slots under entries that keep apart have disjoint sections. -/
lemma slots_disjoint (baseTtba : Word) {j j' : Fin NUM_SYS_STRUCT} {slot slot' : ℕ}
    (hslot : slot < (initSysinfos baseTtba j).maxNumTaskSpace.toNat)
    (hslot' : slot' < (initSysinfos baseTtba j').maxNumTaskSpace.toNat)
    (hapart : (uramAreas j).KeepsApart (uramAreas j')) (hne : slot ≠ slot') :
    Disjoint (spaceAt (slotBase (initSysinfos baseTtba j) slot))
      (spaceAt (slotBase (initSysinfos baseTtba j') slot')) := by
  obtain hbottom | hareas := hapart
  · rw [spaceAt_slotBase baseTtba j hslot, spaceAt_slotBase baseTtba j' hslot', hbottom]
    apply Set.disjoint_left.mpr
    intro a ha ha'
    rw [Set.mem_Ico] at ha ha'
    omega
  · exact hareas.mono (slot_inside baseTtba j hslot) (slot_inside baseTtba j' hslot')

/-! ## One call -/

section Step

variable {s s' : TaskState} {cpuid task t : Word} {g : TaskGhost} {k k' : Kernel}

/-- The invariant is what makes the spaces exclusive. -/
lemma TaskInv.exclusive (h : TaskInv s) : SpacesExclusive s := by
  obtain ⟨baseTtba, hsys⟩ := h.sysinfos
  refine ⟨fun t t' ht ht' hne => ?_, fun t ht => ?_⟩
  · obtain ⟨⟨i, hi⟩, hown⟩ := h.running t ht
    obtain ⟨⟨i', hi'⟩, hown'⟩ := h.running t' ht'
    obtain ⟨hslot, httba⟩ := h.started t ht.1 i hi
    obtain ⟨hslot', httba'⟩ := h.started t' ht'.1 i' hi'
    have hapart := h.apart t' ht' i' hi' t ht hne i hi
    have hslots : (s.1.tcb t).mapid.toNat ≠ (s.1.tcb t').mapid.toNat := by
      intro he
      have hmark : (s.1.smpTskAlcMap (s.1.tcb t).mapid.toNat).task = t := hown.own
      rw [he] at hmark
      exact hne (hmark.symm.trans hown'.own)
    rw [httba, httba']
    rw [hsys] at hslot hslot' hapart ⊢
    exact slots_disjoint baseTtba hslot hslot' hapart hslots
  · obtain ⟨⟨i, hi⟩, -⟩ := h.running t ht
    obtain ⟨hslot, httba⟩ := h.started t ht.1 i hi
    refine ⟨i, hi, ?_⟩
    rw [httba]
    rw [hsys] at hslot ⊢
    exact slot_inside baseTtba i hslot

/-- The task names the slot and has the section that it had, and does not begin to run. -/
structure SameSpace (s : TaskState) (t : Word) (k' : Kernel) (g : TaskGhost) : Prop where
  live : t ∈ s.2.live
  startedUnder : g.startedUnder t = s.2.startedUnder t
  mapid : (k'.tcb t).mapid = (s.1.tcb t).mapid
  ttba : (k'.tcb t).ttba = (s.1.tcb t).ttba
  state : (k'.tcb t).state = TASK_STATE_RUNNING → (s.1.tcb t).state = TASK_STATE_RUNNING

lemma AtSlot.congr {j : Fin NUM_SYS_STRUCT} (h : AtSlot k t j)
    (hsys : k'.sysStructTop = k.sysStructTop) (hmapid : (k'.tcb t).mapid = (k.tcb t).mapid)
    (httba : (k'.tcb t).ttba = (k.tcb t).ttba) : AtSlot k' t j := by
  obtain ⟨hslot, hbase⟩ := h
  refine ⟨?_, ?_⟩
  · rwa [hmapid, hsys]
  · rw [httba, hmapid, hsys, hbase]

/-- A slot that is in use keeps its mark, and stays in use. -/
lemma OwnsSlot.congr (h : OwnsSlot k t) (hmapid : (k'.tcb t).mapid = (k.tcb t).mapid)
    (hmap : (k.smpTskAlcMap (k.tcb t).mapid.toNat).state ≠ INIT_MAP →
      (k'.smpTskAlcMap (k.tcb t).mapid.toNat).state ≠ INIT_MAP ∧
      (k'.smpTskAlcMap (k.tcb t).mapid.toNat).task
        = (k.smpTskAlcMap (k.tcb t).mapid.toNat).task) : OwnsSlot k' t := by
  obtain ⟨hused, hown⟩ := h
  obtain ⟨hused', htask⟩ := hmap hused
  refine ⟨?_, ?_⟩
  · rwa [hmapid]
  · rw [NamesOwn, hmapid, htask]
    exact hown

/-- A step that starts no task: each task is as before, or is new and not started, and the
running tasks keep their slots. -/
lemma TaskInv.of_sameSpace (h : TaskInv s) (hsys : k'.sysStructTop = s.1.sysStructTop)
    (hpm : isValidPm k'.common.pm = true)
    (htasks : ∀ t ∈ g.live, SameSpace s t k' g ∨
      g.startedUnder t = none ∧ (k'.tcb t).state ≠ TASK_STATE_RUNNING)
    (hslots : ∀ t, IsRunning s t → t ∈ g.live → OwnsSlot s.1 t → OwnsSlot k' t) :
    TaskInv (k', g) := by
  have hsame : ∀ t, IsRunning (k', g) t → SameSpace s t k' g ∧ IsRunning s t := by
    rintro t ⟨hmem, hstate⟩
    obtain hsame | ⟨-, hnot⟩ := htasks t hmem
    · exact ⟨hsame, hsame.live, hsame.state hstate⟩
    · exact absurd hstate hnot
  refine ⟨?_, hpm, fun t ht i hi => ?_, fun t ht => ?_, fun t ht i hi t' ht' hne i' hi' => ?_⟩
  · show ∃ baseTtba, k'.sysStructTop = initSysinfos baseTtba
    rw [hsys]
    exact h.sysinfos
  · obtain hsame | ⟨hnone, -⟩ := htasks t ht
    · rw [hsame.startedUnder] at hi
      exact (h.started t hsame.live i hi).congr hsys hsame.mapid hsame.ttba
    · cases hnone.symm.trans hi
  · obtain ⟨hsame, hrun⟩ := hsame t ht
    obtain ⟨⟨i, hi⟩, hown⟩ := h.running t hrun
    exact ⟨⟨i, hsame.startedUnder.trans hi⟩, hslots t hrun ht.1 hown⟩
  · obtain ⟨hsame₁, hrun⟩ := hsame t ht
    obtain ⟨hsame₂, hrun'⟩ := hsame t' ht'
    rw [hsame₁.startedUnder] at hi
    rw [hsame₂.startedUnder] at hi'
    show (k'.sysStructTop i').userRamArea.KeepsApart (k'.sysStructTop i).userRamArea
    rw [hsys]
    exact h.apart t hrun i hi t' hrun' hne i' hi'

/-- What does not change the tasks, the map or the entries. -/
lemma TaskInv.congr (h : TaskInv s) (hsys : k'.sysStructTop = s.1.sysStructTop)
    (hpm : isValidPm k'.common.pm = true) (htcb : k'.tcb = s.1.tcb)
    (hmap : k'.smpTskAlcMap = s.1.smpTskAlcMap) : TaskInv (k', s.2) := by
  refine h.of_sameSpace hsys hpm (fun t ht => .inl ?_) fun t _ _ hown => ?_
  · exact ⟨ht, rfl, congrArg TCB.mapid (congrFun htcb t), congrArg TCB.ttba (congrFun htcb t),
      fun hstate => (congrArg TCB.state (congrFun htcb t)).symm.trans hstate⟩
  · refine hown.congr (congrArg TCB.mapid (congrFun htcb t)) fun hused => ?_
    rw [hmap]
    exact ⟨hused, rfl⟩

/-- A task that `create_task` makes is not running and was not started. -/
lemma TaskInv.createTask (h : TaskInv s) {func pri context : Word} (hfresh : task ∉ s.2.live)
    (hk : SameTasks (initTask func pri task context (s.1.onCore cpuid)) k')
    (hg : g = ⟨task :: s.2.live, Function.update s.2.startedUnder task none⟩ ∨ g = s.2) :
    TaskInv (k', g) := by
  have hother : ∀ t, t ≠ task →
      (initTask func pri task context (s.1.onCore cpuid)).tcb t = s.1.tcb t :=
    fun t ht => initTask_tcb_of_ne _ _ _ _ ht
  have hold : ∀ t, t ≠ task → t ∈ s.2.live → g.startedUnder t = s.2.startedUnder t →
      SameSpace s t k' g := by
    intro t ht hlive hunder
    refine ⟨hlive, hunder, ?_, ?_, fun hstate => ?_⟩
    · rw [hk.mapid, hother t ht]
    · rw [hk.ttba, hother t ht]
    · rwa [hk.state, hother t ht] at hstate
  have hpm : k'.common.pm = s.1.common.pm := congrArg SysCommonInfo.pm hk.common
  have hne : ∀ t ∈ s.2.live, t ≠ task := by
    rintro t ht rfl
    exact hfresh ht
  refine h.of_sameSpace hk.sysStructTop (hpm ▸ h.pm) (fun t ht => ?_) fun t hrun _ hown => ?_
  · obtain rfl | rfl := hg
    · by_cases htt : t = task
      · refine .inr ⟨?_, ?_⟩
        · rw [htt]
          exact Function.update_self ..
        · rw [htt, hk.state, initTask_tcb_self]
          exact show TASK_STATE_READY ≠ TASK_STATE_RUNNING by decide
      · exact .inl (hold t htt ((List.mem_cons.mp ht).resolve_left htt)
          (Function.update_of_ne htt _ _))
    · exact .inl (hold t (hne t ht) ht rfl)
  · have hsame := hother t (hne t hrun.1)
    refine hown.congr ?_ fun hused => ?_
    · rw [hk.mapid, hsame]
    · rw [hk.smpTskAlcMap]
      exact ⟨hused, rfl⟩

/-- The slot of a task that ends waits, and keeps its mark. -/
lemma TaskInv.endTask (h : TaskInv s) :
    TaskInv (lastState (endTask task) (s.1.onCore cpuid), s.2) := by
  rw [lastState_ok (endTask_ok task _)]
  let ended := (s.1.tcb task).setState TASK_STATE_FINISHED
  have hmapid : ∀ t, (Function.update s.1.tcb task ended t).mapid = (s.1.tcb t).mapid :=
    update_field TCB.mapid s.1.tcb rfl
  have httba : ∀ t, (Function.update s.1.tcb task ended t).ttba = (s.1.tcb t).ttba :=
    update_field TCB.ttba s.1.tcb rfl
  refine h.of_sameSpace rfl h.pm
    (fun t ht => .inl ⟨ht, rfl, hmapid t, httba t, fun hstate => ?_⟩)
    fun t hrun _ hown => hown.congr (hmapid t) fun hused => ?_
  · by_cases htt : t = task
    · rw [htt] at hstate
      simp only [Function.update_self, TCB.setState_state] at hstate
      exact absurd hstate (by decide)
    · simp only [Function.update_of_ne htt] at hstate
      exact hstate
  · show (Function.update s.1.smpTskAlcMap (s.1.tcb task).mapid.toNat _ _).state ≠ _ ∧
      (Function.update s.1.smpTskAlcMap (s.1.tcb task).mapid.toNat _ _).task = _
    by_cases hslot : (s.1.tcb t).mapid.toNat = (s.1.tcb task).mapid.toNat
    · rw [hslot, Function.update_self]
      exact ⟨show WAIT_INIT_MAP ≠ INIT_MAP by decide, rfl⟩
    · rw [Function.update_of_ne hslot]
      exact ⟨hused, rfl⟩

/-- A task that names no slot of another running task is destroyed. -/
lemma TaskInv.destroyTask (h : TaskInv s) (hguard : KeepsSlots s (cpuid, .destroyTask task))
    (hg : g = { s.2 with live := s.2.live.filter (· ≠ task) } ∨
      g = s.2 ∧ s.1.held .smpQueueLock = true) :
    TaskInv (lastState (destroyTask task) (s.1.onCore cpuid), g) := by
  obtain ⟨hstate, httba, -, -, hsys⟩ := lastState_destroyTask task (s.1.onCore cpuid)
  obtain ⟨hmapid, hpm, hmap, hheld⟩ := lastState_destroyTask_map task (s.1.onCore cpuid)
  have hlive : ∀ t ∈ g.live, t ∈ s.2.live := by
    obtain rfl | ⟨rfl, -⟩ := hg
    · exact fun t ht => List.mem_of_mem_filter ht
    · exact fun t ht => ht
  have hunder : g.startedUnder = s.2.startedUnder := by
    obtain rfl | ⟨rfl, -⟩ := hg <;> rfl
  refine h.of_sameSpace hsys (hpm ▸ h.pm)
    (fun t ht => .inl ⟨hlive t ht, congrFun hunder t, hmapid t, httba t,
      fun hrun => (hstate t).symm.trans hrun⟩) fun t hrun hmem hown => ?_
  refine hown.congr (hmapid t) fun hused => ?_
  obtain rfl | ⟨rfl, hlock⟩ := hg
  · have htt : t ≠ task := by
      simpa using (List.mem_filter.mp hmem).2
    -- a slot that is freed would be that of a running task
    have hslot : (s.1.tcb t).mapid.toNat ≠ (s.1.tcb task).mapid.toNat := by
      intro he
      have hmark := hguard t hrun htt
      rw [← he] at hmark
      exact hmark hown.own
    rw [hmap _ hslot]
    exact ⟨hused, rfl⟩
  · rw [hheld hlock]
    exact ⟨hused, rfl⟩

/-! ## The call that starts a task -/

lemma lastFree_some {map : ℕ → TaskMap} {l : List ℕ} {slot : ℕ}
    (h : lastFree map l = some slot) : slot ∈ l ∧ (map slot).state = INIT_MAP := by
  simpa using List.mem_filter.mp (List.mem_of_getLast? h)

lemma lastFree_eq_none {map : ℕ → TaskMap} {l : List ℕ} :
    lastFree map l = none ↔ ∀ i ∈ l, (map i).state ≠ INIT_MAP := by
  simp [lastFree]

/-- After `start_task` the task is at a slot of the entry that is its own, if there was a free one
or it had one. -/
lemma Starts.ownsSlot {j : Fin NUM_SYS_STRUCT} (hk : Starts k task j k')
    (hslot : (∃ slot, FreeSlot k (k.sysStructTop j) slot) ∨
      NamesOwn k task ∧ AtSlot k task j) : AtSlot k' task j ∧ OwnsSlot k' task := by
  have htcb := hk.tcb
  cases hlast : lastFree k.smpTskAlcMap
      (List.range (k.sysStructTop j).maxNumTaskSpace.toNat) with
  | some slot =>
      -- the last free slot has become the task's
      obtain ⟨hmem, hfree⟩ := lastFree_some hlast
      have hlt := List.mem_range.mp hmem
      rw [hlast] at htcb
      have hid : (k'.tcb task).mapid.toNat = slot := by
        have hmax := (k.sysStructTop j).maxNumTaskSpace.isLt
        rw [show (k'.tcb task).mapid = .ofNat 32 slot by simp [htcb, placeLast, place],
          BitVec.toNat_ofNat, Nat.mod_eq_of_lt (by omega)]
      have hmark := hk.smpTskAlcMap slot
      rw [if_pos ⟨hlt, hfree⟩] at hmark
      refine ⟨⟨?_, ?_⟩, ⟨?_, ?_⟩⟩
      · rwa [hid, hk.sysStructTop]
      · rw [hid, hk.sysStructTop]
        simp [htcb, placeLast, place, slotBase]
      · rw [hid, hmark]
        exact show RUNNING_MAP ≠ INIT_MAP by decide
      · rw [NamesOwn, hid, hmark]
  | none =>
      have hused := lastFree_eq_none.mp hlast
      obtain ⟨slot, hlt, hfree⟩ | ⟨hown, hat⟩ := hslot
      · exact absurd hfree (hused slot (List.mem_range.mpr hlt))
      -- the task keeps its slot
      rw [hlast] at htcb
      have hmapid : (k'.tcb task).mapid = (k.tcb task).mapid := by simp [htcb, placeLast]
      have httba : (k'.tcb task).ttba = (k.tcb task).ttba := by simp [htcb, placeLast]
      have hstate := hused _ (List.mem_range.mpr hat.slot)
      refine ⟨hat.congr hk.sysStructTop hmapid httba, OwnsSlot.congr ⟨hstate, hown⟩ hmapid ?_⟩
      intro huse
      rw [hk.smpTskAlcMap, if_neg fun h => huse h.2]
      exact ⟨huse, rfl⟩

lemma HasSlotOf.atSlot {j : Fin NUM_SYS_STRUCT} (h : HasSlotOf s task j) (hinv : TaskInv s)
    (hlive : task ∈ s.2.live) : AtSlot s.1 task j := by
  obtain ⟨-, hslot, i, hi, hbottom⟩ := h
  refine ⟨hslot, ?_⟩
  rw [(hinv.started task hlive i hi).ttba, slotBase, slotBase, hbottom]

/-- A task that is started at a slot of its own, under an entry whose area keeps apart from those
of the others. -/
lemma TaskInv.start (h : TaskInv s) {j : Fin NUM_SYS_STRUCT} (hlive : task ∈ s.2.live)
    (hk : Starts (s.1.onCore cpuid) task j k')
    (hslot : (∃ slot, FreeSlot s.1 (s.1.sysStructTop j) slot) ∨ HasSlotOf s task j)
    (hothers : OthersApart s task j) :
    TaskInv (k', { s.2 with
      startedUnder := Function.update s.2.startedUnder task (some j) }) := by
  obtain ⟨hat, hown⟩ := hk.ownsSlot (hslot.imp_right fun hhas =>
    ⟨hhas.1, (hhas.atSlot h hlive).congr rfl rfl rfl⟩)
  have hcommon : k'.common.pm = s.1.common.pm := congrArg SysCommonInfo.pm hk.common
  have hentries : k'.sysStructTop = s.1.sysStructTop := hk.sysStructTop
  have hold : ∀ t, t ≠ task → IsRunning (k', { s.2 with
      startedUnder := Function.update s.2.startedUnder task (some j) }) t → IsRunning s t :=
    fun t htt ht => ⟨ht.1, (congrArg TCB.state (hk.other t htt)).symm.trans ht.2⟩
  refine ⟨?_, ?_, fun t ht i hi => ?_, fun t ht => ?_, fun t ht i hi t' ht' hne i' hi' => ?_⟩
  · rw [hentries]
    exact h.sysinfos
  · rw [hcommon]
    exact h.pm
  · have hunder : Function.update s.2.startedUnder task (some j) t = some i := hi
    by_cases htt : t = task
    · rw [htt, Function.update_self] at hunder
      obtain rfl := Option.some.inj hunder
      rw [htt]
      exact hat
    · rw [Function.update_of_ne htt] at hunder
      exact (h.started t ht i hunder).congr hentries (congrArg TCB.mapid (hk.other t htt))
        (congrArg TCB.ttba (hk.other t htt))
  · by_cases htt : t = task
    · rw [htt]
      exact ⟨⟨j, Function.update_self ..⟩, hown⟩
    · obtain ⟨⟨i, hi⟩, hown'⟩ := h.running t (hold t htt ht)
      refine ⟨⟨i, (Function.update_of_ne htt _ _).trans hi⟩,
        hown'.congr (congrArg TCB.mapid (hk.other t htt)) fun hused => ?_⟩
      -- the slot was in use, so the scan has passed over it
      rw [hk.smpTskAlcMap, if_neg fun hfree => hused hfree.2]
      exact ⟨hused, rfl⟩
  · have hunder : Function.update s.2.startedUnder task (some j) t = some i := hi
    have hunder' : Function.update s.2.startedUnder task (some j) t' = some i' := hi'
    show (k'.sysStructTop i').userRamArea.KeepsApart (k'.sysStructTop i).userRamArea
    rw [hentries]
    by_cases htt : t = task
    · subst htt
      rw [Function.update_of_ne hne] at hunder'
      rw [Function.update_self] at hunder
      obtain rfl := Option.some.inj hunder
      exact hothers t' (hold t' hne ht') hne i' hunder'
    · rw [Function.update_of_ne htt] at hunder
      by_cases htt' : t' = task
      · subst htt'
        rw [Function.update_self] at hunder'
        obtain rfl := Option.some.inj hunder'
        exact (hothers t (hold t htt ht) htt i hunder).symm
      · rw [Function.update_of_ne htt'] at hunder'
        exact h.apart t (hold t htt ht) i hunder t' (hold t' htt' ht') hne i' hunder'

/-- `start_task` under the condition: it waits for the lock, or starts the task. -/
lemma TaskInv.startTask (h : TaskInv s) {lock : LockWord}
    (hguard : KeepsSlots s (cpuid, .startTask task lock))
    (hs : TaskStep s (cpuid, .startTask task lock) s') : TaskInv s' := by
  obtain ⟨hc, hlive, -, -⟩ := hs.cases
  obtain ⟨j, hj, -⟩ := getSysStructInfo_valid hc h.pm
  obtain ⟨baseTtba, hsys⟩ := h.sysinfos
  have hj' : getSysStructInfo (s.1.onCore cpuid).prid (s.1.onCore cpuid).common.pm = some j := hj
  cases hheld : s.1.held lock with
  | true =>
      have hpos : 0 < ((s.1.onCore cpuid).sysStructTop j).maxNumTaskSpace.toNat := by
        show 0 < (s.1.sysStructTop j).maxNumTaskSpace.toNat
        rw [hsys]
        exact (maxNumTaskSpace_fits baseTtba j).1
      have hspins := startTask_held (k := s.1.onCore cpuid) task hheld hj' hpos
      cases hs with
      | returns hc hlegal hk => cases hspins.symm.trans hk
      | spins hc hlegal hk =>
          obtain ⟨-, rfl⟩ := EStateM.Result.error.inj (hspins.symm.trans hk)
          exact h.congr rfl h.pm rfl rfl
  | false =>
      obtain ⟨k', hok, hstarts⟩ := startTask_ok (k := s.1.onCore cpuid) task hheld hj'
      cases hs with
      | spins hc hlegal hk => cases hok.symm.trans hk
      | returns hc hlegal hk =>
          obtain ⟨-, rfl⟩ := EStateM.Result.ok.inj (hok.symm.trans hk)
          obtain ⟨hslot, hothers⟩ := hguard j hj hheld
          rw [taskNext, hj]
          exact h.start hlive hstarts hslot hothers

/-- Every call preserves the invariant, if it meets the condition. -/
lemma TaskInv.step {c : Word × TaskCall} (h : TaskInv s) (hguard : KeepsSlots s c)
    (hs : TaskStep s c s') : TaskInv s' := by
  obtain ⟨cpuid, call⟩ := c
  obtain ⟨-, hlegal, hk, hg⟩ := hs.cases
  obtain ⟨k', g⟩ := s'
  simp only at hk hg
  cases call with
  | createTask taskHead func pri lock task context =>
      cases taskHead with
      | none =>
          obtain rfl : g = s.2 := hg.elim And.right And.right
          rw [hk]
          exact h.congr rfl h.pm rfl rfl
      | some taskHead =>
          by_cases hfunc : func = NULL
          · obtain rfl : g = s.2 := by
              rcases hg with hg | hg
              · exact hg.2.trans (if_pos hfunc)
              · exact hg.2
            rw [after, TaskCall.run, Kernel.createTask, if_pos hfunc] at hk
            rw [hk]
            exact h.congr rfl h.pm rfl rfl
          · rw [hk]
            refine h.createTask hlegal.2.2
              (createTask_sameTasks taskHead hfunc pri lock task context _) ?_
            rcases hg with ⟨-, hg⟩ | ⟨-, hg⟩
            · exact .inl (hg.trans (if_neg hfunc))
            · exact .inr hg
  | startTask task lock => exact h.startTask hguard hs
  | endTask task =>
      obtain rfl : g = s.2 := hg.elim And.right And.right
      rw [hk]
      exact h.endTask
  | destroyTask task =>
      rw [hk]
      refine h.destroyTask hguard ?_
      rcases hg with ⟨-, hg⟩ | ⟨⟨e, k', herror⟩, hg⟩
      · exact .inl hg
      · refine .inr ⟨hg, ?_⟩
        by_contra hfree
        cases herror.symm.trans (destroyTask_free task (Bool.eq_false_of_not_eq_true hfree))
  | changePm pm =>
      obtain rfl : g = s.2 := hg.elim And.right And.right
      rw [after, TaskCall.run, lastState_discard] at hk
      cases hheld : s.1.held .sysCommonLock with
      | true =>
          rw [hk, lastState_error (changePm_held (k := s.1.onCore cpuid) pm hheld)]
          exact h.congr rfl h.pm rfl rfl
      | false =>
          rw [hk, lastState_ok (changePm_free (k := s.1.onCore cpuid) pm hheld)]
          exact h.congr rfl hlegal rfl rfl
  | _ => exact hlegal.elim

lemma TaskInitial.inv (h : TaskInitial s) : TaskInv s := by
  have hnone : ∀ t, t ∉ s.2.live := by
    intro t ht
    rw [h.live] at ht
    exact List.not_mem_nil ht
  exact ⟨h.sysinfos, h.pm, fun t ht => absurd ht (hnone t), fun t ht => absurd ht.1 (hnone t),
    fun t ht => absurd ht.1 (hnone t)⟩

end Step

/-- **Spaces of tasks.**  In every run of `create_task`, `start_task`, `end_task`,
`destroy_task` and `change_pm` calls on any cores in which every call keeps the slots, the spaces
of the running tasks are disjoint, and each lies in the user RAM of the entry under which its task
was started.  Messages are taken to return (`Model/Kernel.lean`). -/
theorem task_spaces_exclusive {s s' : TaskState} {cs : List (Word × TaskCall)}
    (h0 : TaskInitial s) (hr : Run (guarded KeepsSlots TaskStep) s cs s') :
    SpacesExclusive s' :=
  (hr.guarded_invariant (fun _ _ _ h hguard hs => h.step hguard hs) h0.inv).exclusive

/-! ## Two tasks -/

/-- The kernel at boot, with a sentinel at `0x100` for every queue. -/
def bootState : TaskState :=
  ({ atBoot with tcb := fun _ => ⟨0, 0, 0, 0, 0, 0x100, 0x100, NULL⟩ }, ⟨[], fun _ => none⟩)

lemma bootState_initial : TaskInitial bootState := ⟨⟨TTBA_BASE, rfl⟩, rfl, fun _ => rfl, rfl⟩

/-- Calls that create tasks 8 and 24 and set a mode. -/
def createTwo (pm : Word) : List (Word × TaskCall) :=
  [(0, .createTask (some fun _ => 0x100) 0x8000 0 .smpQueueLock 8 16),
    (0, .createTask (some fun _ => 0x100) 0x8000 0 .smpQueueLock 24 32), (0, .changePm pm)]

/-- The state in which both tasks are ready. -/
def twoTasks (pm : Word) : TaskState := (createTwo pm).foldl (afterCall taskNext) bootState

lemma twoTasks_run (pm : Word) (hpm : isValidPm pm = true) :
    Run (guarded KeepsSlots TaskStep) bootState (createTwo pm) (twoTasks pm) :=
  Run.of_foldl _ ⟨⟨trivial, .of_returns (by decide) ⟨by decide, by decide, by decide⟩ rfl⟩,
    ⟨trivial, .of_returns (by decide) ⟨by decide, by decide, by decide⟩ rfl⟩,
    ⟨trivial, .of_returns (by decide) hpm rfl⟩, trivial⟩

lemma twoTasks_ready (pm : Word) (task : Word) : ¬ IsRunning (twoTasks pm) task := by
  rintro ⟨hmem, hstate⟩
  have hlive : (twoTasks pm).2.live = [24, 8] := rfl
  rw [hlive] at hmem
  have hready : ∀ t ∈ [(24 : Word), 8], ((twoTasks pm).1.tcb t).state = TASK_STATE_READY := by
    simp only [List.forall_mem_cons]
    exact ⟨rfl, rfl, fun _ h => absurd h List.not_mem_nil⟩
  rw [hready task hmem] at hstate
  exact absurd hstate (by decide)

/-- Task 8 starts on core 3 alone, which takes 95 slots, and task 24 on the SMP kernel of the other
cores, which has 303. -/
theorem task_spaces_exclusive_twoKernels : ∃ cs s', SpacesExclusive s' ∧ IsRunning s' 8 ∧
    IsRunning s' 24 ∧ Run (guarded KeepsSlots TaskStep) bootState cs s' := by
  have hqueue₀ : ((twoTasks 8).1.onCore 3).held .smpQueueLock = false := rfl
  have hj₁ : getSysStructInfo 3 8 = some 3 := by decide
  have hj₂ : getSysStructInfo 0 8 = some 5 := by decide
  obtain ⟨k₁, hok₁, hst₁⟩ := startTask_ok 8 hqueue₀ hj₁
  have hguard₁ : KeepsSlots (twoTasks 8) (3, .startTask 8 .smpQueueLock) := by
    intro j hj _
    obtain rfl := Option.some.inj (hj.symm.trans hj₁)
    exact ⟨.inl ⟨0, show 0 < (initSysinfos TTBA_BASE 3).maxNumTaskSpace.toNat by decide, rfl⟩,
      fun t ht => absurd ht (twoTasks_ready 8 t)⟩
  have hstep₁ : guarded KeepsSlots TaskStep (twoTasks 8)
      (3, .startTask 8 .smpQueueLock) (k₁, _) :=
    ⟨hguard₁, .returns (by decide) (show (8 : Word) ∈ [24, 8] by decide) hok₁⟩
  have hssi₃ : k₁.sysStructTop 3 = initSysinfos TTBA_BASE 3 := congrFun hst₁.sysStructTop 3
  have hssi₅ : k₁.sysStructTop 5 = initSysinfos TTBA_BASE 5 := congrFun hst₁.sysStructTop 5
  have hcommon₁ : k₁.common.pm = 8 := congrArg SysCommonInfo.pm hst₁.common
  have hqueue₁ : k₁.held .smpQueueLock = false := congrFun hst₁.held _
  -- slot 95 is free still
  have hfree : (k₁.smpTskAlcMap 95).state = INIT_MAP := by
    rw [hst₁.smpTskAlcMap, if_neg fun h => absurd h.1 (by decide)]
    rfl
  have hj : getSysStructInfo 0 k₁.common.pm = some 5 := by
    rw [hcommon₁]
    exact hj₂
  obtain ⟨k₂, hok₂, hst₂⟩ := startTask_ok (k := k₁.onCore 0) 24 hqueue₁ hj
  have hguard₂ : KeepsSlots (k₁, taskNext (twoTasks 8) (3, .startTask 8 .smpQueueLock))
      (0, .startTask 24 .smpQueueLock) := by
    intro j' hj' _
    obtain rfl := Option.some.inj (hj'.symm.trans hj)
    refine ⟨.inl ⟨95, ?_, hfree⟩, fun t ht hne i hi => .inr ?_⟩
    · show 95 < (k₁.sysStructTop 5).maxNumTaskSpace.toNat
      rw [hssi₅]
      decide
    · -- task 8 runs under entry 3
      have ht8 : t = 8 := by
        have hmem : t ∈ [(24 : Word), 8] := ht.1
        exact List.mem_singleton.mp ((List.mem_cons.mp hmem).resolve_left hne)
      rw [ht8] at hi
      have hunder : Function.update (twoTasks 8).2.startedUnder 8
          (getSysStructInfo 3 (twoTasks 8).1.common.pm) 8 = some i := hi
      rw [Function.update_self, show (twoTasks 8).1.common.pm = 8 from rfl, hj₁] at hunder
      obtain rfl := Option.some.inj hunder
      show Disjoint (k₁.sysStructTop 3).userRamArea.addresses
        (k₁.sysStructTop 5).userRamArea.addresses
      rw [hssi₃, hssi₅]
      exact Set.disjoint_left.mpr fun a ha ha' => absurd (ha.1.trans ha'.2) (by decide)
  have hstep₂ : guarded KeepsSlots TaskStep
      (k₁, taskNext (twoTasks 8) (3, .startTask 8 .smpQueueLock))
      (0, .startTask 24 .smpQueueLock) (k₂, _) :=
    ⟨hguard₂, .returns (by decide) (show (24 : Word) ∈ [24, 8] by decide) hok₂⟩
  have hrun := ((twoTasks_run 8 (by decide)).snoc hstep₁).snoc hstep₂
  refine ⟨_, _, task_spaces_exclusive bootState_initial hrun, ⟨?_, ?_⟩, ⟨?_, hst₂.state⟩, hrun⟩
  · show (8 : Word) ∈ [24, 8]
    decide
  · show (k₂.tcb 8).state = TASK_STATE_RUNNING
    rw [hst₂.other 8 (by decide)]
    exact hst₁.state
  · show (24 : Word) ∈ [24, 8]
    decide

/-- In SMP mode task 8 takes every slot, and task 24 runs without a space. -/
theorem task_runs_without_space :
    ¬ ∀ (s s' : TaskState) (cs : List (Word × TaskCall)),
      TaskInitial s → Run TaskStep s cs s' → SpacesExclusive s' := by
  intro hclaim
  have hj : getSysStructInfo 0 0 = some 4 := by decide
  have hqueue₀ : ((twoTasks 0).1.onCore 0).held .smpQueueLock = false := rfl
  obtain ⟨k₁, hok₁, hst₁⟩ := startTask_ok 8 hqueue₀ hj
  have hqueue₁ : k₁.held .smpQueueLock = false := congrFun hst₁.held _
  have hssi : k₁.sysStructTop 4 = initSysinfos TTBA_BASE 4 := congrFun hst₁.sysStructTop 4
  have hj₁ : getSysStructInfo 0 k₁.common.pm = some 4 := by
    rw [hst₁.common]
    exact hj
  obtain ⟨k₂, hok₂, hst₂⟩ := startTask_ok (k := k₁.onCore 0) 24 hqueue₁ hj₁
  have hfull : lastFree k₁.smpTskAlcMap (List.range 431) = none := by
    refine lastFree_eq_none.mpr fun i hi => ?_
    rw [hst₁.smpTskAlcMap, if_pos ⟨List.mem_range.mp hi, rfl⟩]
    decide
  have httba : (k₂.tcb 24).ttba = 0 := by
    rw [hst₂.tcb, show (k₁.onCore 0).sysStructTop 4 = _ from hssi,
      show (initSysinfos TTBA_BASE 4).maxNumTaskSpace.toNat = 431 from rfl,
      show lastFree (k₁.onCore 0).smpTskAlcMap (List.range 431) = none from hfull,
      TCB.setState_ttba]
    exact congrArg TCB.ttba (hst₁.other 24 (by decide))
  have hstep₁ : TaskStep (twoTasks 0) (0, .startTask 8 .smpQueueLock) (k₁, _) :=
    .returns (by decide) (show (8 : Word) ∈ [24, 8] by decide) hok₁
  have hstep₂ : TaskStep (k₁, taskNext (twoTasks 0) (0, .startTask 8 .smpQueueLock))
      (0, .startTask 24 .smpQueueLock) (k₂, _) :=
    .returns (by decide) (show (24 : Word) ∈ [24, 8] by decide) hok₂
  have hrun := ((twoTasks_run 0 rfl).of_guarded.snoc hstep₁).snoc hstep₂
  obtain ⟨i, -, hin⟩ := (hclaim _ _ _ bootState_initial hrun).inside 24
    ⟨show (24 : Word) ∈ [24, 8] by decide, hst₂.state⟩
  have hsys : k₂.sysStructTop i = initSysinfos TTBA_BASE i :=
    (congrFun hst₂.sysStructTop i).trans (congrFun hst₁.sysStructTop i)
  have hzero : (0 : ℕ) ∈ ((initSysinfos TTBA_BASE i).userRamArea).addresses := by
    rw [← hsys]
    refine hin ?_
    rw [httba]
    exact Set.mem_Ico.mpr (by decide)
  have hbottom : ∀ i, 0 < (uramAreas i).bottom.toNat := by decide
  exact absurd hzero.1 (Nat.not_le.mpr (hbottom i))

end Kernel

end Rpi2Baremetal
