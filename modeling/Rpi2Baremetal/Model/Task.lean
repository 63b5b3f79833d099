import Rpi2Baremetal.Model.Kernel
import Rpi2Baremetal.Framework.Triple

/-!
# Tasks (`task.c`)

Every task has a slot of `smp_tsk_alc_map` and the 1MB space that belongs to it once it was
started.  The functions of `task.c` as `KernelM` computations, with the part of
`init_smp_kernel` that sets up the map.  `TaskCall` collects them with `set_user_asid` and
`change_pm`, and `Kernel.after` is the state a call leaves.

The map and the queue heads are passed as arguments in the source, but there is only one map:
the argument `tsk_alc_map`, and the argument `lock` where a function does not use it, are left
out.  What `kmalloc` returns is an argument here.

## What is assumed of the sections and the blocks

The section that `destroy_task` clears holds none of the kernel's own variables, and no TCB.  For a
task with a section that is so; a task whose `ttba` is 0 has the first megabyte cleared, with
`asid_head`, the map and the lock words in it, and of that only the zeros in RAM are seen here.
`Model/TaskRam.lean` has the TCBs and the heads of the queues in RAM.

`kfree` is recorded by `destroyTask`, and what it does to RAM comes after everything else
(`destroyTaskFreeing`).  Where RAM is of no concern the first is used, so that `kfree` is taken to
change nothing but RAM; the code's own `kfree` also writes over the reset vector
(`Properties/FreeFromNull.lean`).
-/

namespace Rpi2Baremetal

open Framework

namespace Kernel

def INIT_MAP : Word := 0
def RUNNING_MAP : Word := 1
def WAIT_INIT_MAP : Word := 2

def TASK_STATE_READY : Word := 1
def TASK_STATE_RUNNING : Word := 2
def TASK_STATE_FINISHED : Word := 8

def SMP_MAX_PRI : Word := 128

/-! ## The space of a task -/

/-- The offsets of `for (pa = bottom; pa < bottom + SECTION_SIZE; pa += 4)`. -/
def spaceOffsets (bottom : Word) : List Word :=
  if bottom + Mmu.SECTION_SIZE < bottom then []
  else (List.range 0x40000).map fun j => .ofNat 32 (4 * j)

/-- The loop of `destroy_task` that writes zeros.  The section is taken to hold none of the kernel
variables. -/
def clearSpace (bottom : Word) : KernelM Unit :=
  modifyMem fun m => m.writeAll (bottom + ·) (fun _ => 0) (spaceOffsets bottom)

/-- The loop of `move_task_space` that copies a space, word after word. -/
def copySpace (target resource : Word) : KernelM Unit :=
  modifyMem fun m => (spaceOffsets target).foldl
    (fun m offset => m.write (target + offset) (m (resource + offset))) m

/-- `cre_usr_tbl`, whose loop ends after 4096 passes. -/
def creUsrTbl (ttba : Word) : KernelM Unit :=
  modifyMem fun m => (Mmu.creUsrTbl 4096 ttba m).getD m

/-! ## The life of a task -/

/-- `task_head[pri]`.  From the end of the array on this is undefined in C; the built image goes on
with the word that it reads. -/
def readTaskHead (taskHead : Word → Word) (pri : Word) : KernelM Word :=
  if pri < SMP_MAX_PRI then pure (taskHead pri) else throw .outOfBounds

/-- The part of `create_task` that sets the task to the ready queue. -/
def enqueueTask (taskHead : Word → Word) (pri : Word) (lock : LockWord) (task : Word) :
    KernelM Unit := do
  spinReq lock
  let head ← readTaskHead taskHead pri
  let last := (← readTcb head).prev
  if head = last then
    modifyTcb head (.setPrev task)
    modifyTcb head (.setNext task)
    modifyTcb task (.setPrev head)
    modifyTcb task (.setNext head)
  else
    modifyTcb last (.setNext task)
    modifyTcb task (.setPrev last)
    modifyTcb task (.setNext head)
    modifyTcb head (.setPrev task)
  spinRel lock

/-- `create_task`, where `kmalloc` returns `task` and `context`; `none` stands for a `NULL`
`task_head`. -/
def createTask (taskHead : Option (Word → Word)) (func pri : Word) (lock : LockWord)
    (task context : Word) : KernelM Unit :=
  match taskHead with
  | none => pure ()
  | some taskHead =>
      if func = NULL then pure ()
      else do
        modifyContext context fun _ => ⟨0, func⟩
        modifyTcb task fun _ => ⟨TASK_STATE_READY, pri, 0, 0, 0, NULL, NULL, context⟩
        enqueueTask taskHead pri lock task

/-- One pass of the scan of `start_task`, which has no `break`. -/
def startTaskPass (task : Word) (lock : LockWord) (ssi : SysStructInfo) (i : ℕ) :
    KernelM Unit := do
  spinReq lock
  let map ← readMap i
  if map.state = INIT_MAP then
    modifyMap i (.setState RUNNING_MAP)
    modifyMap i (.setTask task)
    modifyTcb task (.setMapid (.ofNat 32 i))
    modifyTcb task (.setTtba (.ofNat 32 i * Mmu.SECTION_SIZE + ssi.userRamArea.bottom))
    creUsrTbl (← readTcb task).ttba
  spinRel lock

/-- `start_task`. -/
def startTask (task : Word) (lock : LockWord) : KernelM Unit := do
  let ssi ← readSsi (← ssiIndex (← getPrid) (← getPm))
  forM (List.range ssi.maxNumTaskSpace.toNat) (startTaskPass task lock ssi)
  modifyTcb task (.setState TASK_STATE_RUNNING)

/-- `end_task`. -/
def endTask (task : Word) : KernelM Unit := do
  writeAsidHead (← readTcb task).asid FINISHED_ASID
  modifyMap (← readTcb task).mapid.toNat (.setState WAIT_INIT_MAP)
  modifyTcb task (.setState TASK_STATE_FINISHED)

/-- A call of `kfree`.  It is recorded here, and what it does to RAM is `Kernel.kfree`. -/
def kfreeBlock (ap : Word) : KernelM Unit := fun k => .ok () { k with freed := ap :: k.freed }

/-- `destroy_task`. -/
def destroyTask (task : Word) : KernelM Unit := do
  let t ← readTcb task
  invalidateTlbs t.asid
  writeAsidHead t.asid UNUSED_ASID
  clearSpace t.ttba
  spinReq .smpQueueLock
  modifyMap t.mapid.toNat (.setState INIT_MAP)
  modifyMap t.mapid.toNat (.setTask NULL)
  modifyTcb t.prev (.setNext t.next)
  let t ← readTcb task
  modifyTcb t.next (.setPrev t.prev)
  spinRel .smpQueueLock
  kfreeBlock (← readTcb task).context
  kfreeBlock task

/-- `destroy_task` with what its two calls of `kfree` do, the last things it does. -/
def destroyTaskFreeing (kfree : Word → Kernel → Option Kernel) (task : Word) (k : Kernel) :
    Option Kernel :=
  match destroyTask task k with
  | .ok () k' => do kfree task (← kfree (k'.tcb task).context k')
  | .error _ _ => none

/-! ## Partitions -/

/-- The slots from that of `ramBottom` up to that of `ramLimit`, where slot 0 begins at
`SMP_USER_RAM_BOTTOM`. -/
def mapidsOf (ramBottom ramLimit : Word) : List ℕ :=
  let mapid := (ramBottom - SMP_USER_RAM_BOTTOM) / Mmu.SECTION_SIZE
  let mapidLimit := (ramLimit - SMP_USER_RAM_BOTTOM) / Mmu.SECTION_SIZE
  List.range' mapid.toNat (mapidLimit.toNat - mapid.toNat)

/-- One pass of `destroy_core_tasks`. -/
def destroyCoreTasksPass (mapid : ℕ) : KernelM Unit := do
  if (← readMap mapid).state = INIT_MAP then pure ()
  else destroyTask (← readMap mapid).task

/-- `destroy_core_tasks`. -/
def destroyCoreTasks : KernelM Unit := do
  let ssi ← sysStructTopEntry (SYSSTRUCT_AMP_INDEX (← getPrid))
  forM (mapidsOf ssi.kernelRamArea.bottom ssi.userRamArea.limit) destroyCoreTasksPass

/-- What `move_task_space` does with the slot it has found. -/
def moveTaskSpaceTo (taskMap : ℕ) (asidLimit resource : Word) (mapid : ℕ) : KernelM Unit := do
  let state := (← readMap taskMap).state
  modifyMap mapid (.setState state)
  let task := (← readMap taskMap).task
  modifyMap mapid (.setTask task)
  let task := (← readMap taskMap).task
  let asid := (← readTcb task).asid
  if asid ≥ asidLimit then
    invalidateTlbs asid
    writeAsidHead asid UNUSED_ASID
    modifyTcb task (.setAsid 0)
  let targetBottom := SMP_USER_RAM_BOTTOM + .ofNat 32 mapid * Mmu.SECTION_SIZE
  copySpace targetBottom resource
  creUsrTbl targetBottom

/-- The scan of `move_task_space`; it returns with the lock when it has found a slot. -/
def moveTaskSpaceScan (taskMap : ℕ) (asidLimit resource : Word) : List ℕ → KernelM Unit
  | [] => pure ()
  | mapid :: mapids => do
      spinReq .smpQueueLock
      if (← readMap mapid).state ≠ 0 then
        spinRel .smpQueueLock
        moveTaskSpaceScan taskMap asidLimit resource mapids
      else
        moveTaskSpaceTo taskMap asidLimit resource mapid

/-- `move_task_space`, of the slot `taskMap` points to. -/
def moveTaskSpace (taskMap : ℕ) : KernelM Unit := do
  let ssi ← readSsi (← ssiIndex (← getPrid) (← getPm))
  let numMapId := (ssi.userRamArea.limit - ssi.userRamArea.bottom) / Mmu.SECTION_SIZE
  let resource := (← readTcb (← readMap taskMap).task).ttba
  moveTaskSpaceScan taskMap ssi.asidArea.limit resource (List.range numMapId.toNat)

/-- One pass of `move_task_spaces`. -/
def moveTaskSpacesPass (mapid : ℕ) : KernelM Unit := do
  spinReq .smpQueueLock
  if (← readMap mapid).state = 0 then
    spinRel .smpQueueLock
  else
    moveTaskSpace mapid
    spinRel .smpQueueLock
    destroyTask (← readMap mapid).task
    modifyMap mapid (.setTask NULL)
    modifyMap mapid (.setState INIT_MAP)

/-- `move_task_spaces`. -/
def moveTaskSpaces : KernelM Unit := do
  let ssi ← readSsi (← ssiIndex (← getPrid) (← getPm))
  forM (mapidsOf ssi.kernelRamArea.bottom ssi.userRamArea.limit) moveTaskSpacesPass

/-! ## The map at boot (`init.c`) -/

/-- What `init_smp_kernel` does to the map, where `kmalloc` returns `map` and the memory there
holds `content`. -/
def initSmpKernel (map : Word) (content : ℕ → TaskMap) : KernelM Unit := do
  if (← getPrid) = PCore then
    fun k => .ok () { k with held := Function.update k.held .smpQueueLock false }
    let _ ← ssiIndex (← getPrid) (← getPm)
    let old : Word ← fun k => .ok k.mapAddress k
    if old ≠ NULL then
      kfreeBlock old
    let ssi ← sysStructTopEntry ALL_SMP_MODE
    fun k => .ok () { k with
      smpTskAlcMap := content
      mapAddress := map
      mapEntries := ssi.maxNumTaskSpace.toNat }

/-! ## Calls -/

inductive TaskCall where
  | createTask (taskHead : Option (Word → Word)) (func pri : Word) (lock : LockWord)
      (task context : Word)
  | startTask (task : Word) (lock : LockWord)
  | endTask (task : Word)
  | destroyTask (task : Word)
  | destroyCoreTasks
  | moveTaskSpaces
  | moveTaskSpace (taskMap : ℕ)
  | setUserAsid (task cpuid pm : Word)
  | changePm (pm : Word)

def TaskCall.run : TaskCall → KernelM Unit
  | .createTask taskHead func pri lock task context =>
      Kernel.createTask taskHead func pri lock task context
  | .startTask task lock => Kernel.startTask task lock
  | .endTask task => Kernel.endTask task
  | .destroyTask task => Kernel.destroyTask task
  | .destroyCoreTasks => Kernel.destroyCoreTasks
  | .moveTaskSpaces => Kernel.moveTaskSpaces
  | .moveTaskSpace taskMap => Kernel.moveTaskSpace taskMap
  | .setUserAsid task cpuid pm => discard (Kernel.setUserAsid task cpuid pm)
  | .changePm pm => discard (Kernel.changePm pm)

/-- The state a call on core `cpuid` leaves, or the one it spins in. -/
def after (k : Kernel) (cpuid : Word) (call : TaskCall) : Kernel :=
  lastState call.run (k.onCore cpuid)

/-- The state and the ghost state after a call that returns. -/
def afterCall {γ : Type} (next : Kernel × γ → Word × TaskCall → γ) (s : Kernel × γ)
    (c : Word × TaskCall) : Kernel × γ := (s.1.after c.1 c.2, next s c)

/-- One call, of those that are `legal`, with a ghost state that `next` brings up to date when
the call returns. -/
inductive CallStep {γ : Type} (legal : Kernel × γ → TaskCall → Prop)
    (next : Kernel × γ → Word × TaskCall → γ) :
    Kernel × γ → Word × TaskCall → Kernel × γ → Prop
  | returns {s : Kernel × γ} {cpuid : Word} {call : TaskCall} {k' : Kernel} :
      cpuid < 4 → legal s call → call.run (s.1.onCore cpuid) = .ok () k' →
      CallStep legal next s (cpuid, call) (k', next s (cpuid, call))
  | spins {s : Kernel × γ} {cpuid : Word} {call : TaskCall} {e : Halt} {k' : Kernel} :
      cpuid < 4 → legal s call → call.run (s.1.onCore cpuid) = .error e k' →
      CallStep legal next s (cpuid, call) (k', s.2)

end Kernel

end Rpi2Baremetal
