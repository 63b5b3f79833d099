import Rpi2Baremetal.Model.Task

/-!
# Task control blocks in RAM (`task.c`)

`Model/Task.lean` keeps the TCBs and the heads of the queues apart from RAM.  Here `create_task`
and `destroy_task` find them there: `task_head` is an array in RAM, and a TCB is the eight words
from its address on.  So what is written through a `NULL` pointer or cleared as the space of a
task can be a TCB or a head.

The allocator is a parameter.  `State.live` records which of its blocks are in use.

Every member of a TCB is a word.  In the compiled code `state` is stored as one byte, and the
other three of its word are padding that keeps what was there.  Reading `task_head` past its end,
which is undefined in C, is a function that does not return here; the built image goes on with the
word that it reads.
-/

namespace Rpi2Baremetal

open Framework

namespace TaskRam

open Kernel

/-- The members of `TCB`, with `state` as a whole word. -/
inductive Field where
  | state | pri | mapid | ttba | asid | prev | next | context
  deriving DecidableEq

/-- The place of a member in the struct. -/
def Field.offset : Field → Word
  | state => 0
  | pri => 4
  | mapid => 8
  | ttba => 12
  | asid => 16
  | prev => 20
  | next => 24
  | context => 28

/-- `sizeof(TCB)`. -/
def SIZEOF_TCB : Word := 32

/-- `sizeof(context_t)`. -/
def SIZEOF_CONTEXT : Word := 64

/-- `task->f`. -/
def get (m : Mem) (task : Word) (f : Field) : Word := m (task + f.offset)

/-- `task->f = v`. -/
def set (m : Mem) (task : Word) (f : Field) (v : Word) : Mem := m.write (task + f.offset) v

/-- The TCB at an address. -/
def tcbAt (m : Mem) (task : Word) : TCB where
  state := get m task .state
  pri := get m task .pri
  mapid := get m task .mapid
  ttba := get m task .ttba
  asid := get m task .asid
  prev := get m task .prev
  next := get m task .next
  context := get m task .context

/-- The address of `task_head[pri]`. -/
def entry (taskHead pri : Word) : Word := taskHead + 4 * pri

/-- The kernel, and the blocks `kmalloc` has returned and `kfree` has not got back. -/
structure State where
  kernel : Kernel
  live : List Word

def State.mem (s : State) : Mem := s.kernel.mem

/-- A function that returns or not. -/
abbrev RamM := StateT State Option

/-- A function that leaves the heap alone. -/
def ofKernel {α : Type} (x : KernelM α) : RamM α := fun s =>
  match x s.kernel with
  | .ok a k => some (a, { s with kernel := k })
  | .error _ _ => none

def readField (task : Word) (f : Field) : RamM Word := fun s => some (get s.mem task f, s)

/-! ## The heap -/

/-- `kmalloc`, with at most `fuel` passes of the search of `_malloc`. -/
def kmalloc (fuel : ℕ) (nbytes : Word) : RamM Word := fun s =>
  match Kernel.kmalloc fuel nbytes s.kernel with
  | none => none
  | some (k, none) => some (NULL, ⟨k, s.live⟩)
  | some (k, some ap) => some (ap, ⟨k, ap :: s.live⟩)

/-! ## `create_task` -/

/-- The stores to the memory that `kmalloc` returned; the members `sp` and `pc` of a `context_t`
are its words 12 and 14. -/
def initTask (task context func pri : Word) (m : Mem) : Mem :=
  let m := m.write (context + 48) 0
  let m := m.write (context + 56) func
  let m := set m task .state TASK_STATE_READY
  let m := set m task .pri pri
  let m := set m task .mapid 0
  let m := set m task .ttba 0
  let m := set m task .asid 0
  let m := set m task .prev NULL
  let m := set m task .next NULL
  set m task .context context

/-- The stores that set the task to the ready queue, each with `task_head[pri]` read again. -/
def enqueue (taskHead pri task : Word) (m : Mem) : Mem :=
  let last := get m (m (entry taskHead pri)) .prev
  if m (entry taskHead pri) = last then
    let m := set m (m (entry taskHead pri)) .prev task
    let m := set m (m (entry taskHead pri)) .next task
    let m := set m task .prev (m (entry taskHead pri))
    set m task .next (m (entry taskHead pri))
  else
    let m := set m last .next task
    let m := set m task .prev last
    let m := set m task .next (m (entry taskHead pri))
    set m (m (entry taskHead pri)) .prev task

/-- `create_task`; it does not return when it reads `task_head` past its end. -/
def createTask (kmalloc : Word → RamM Word) (taskHead func pri : Word) (lock : LockWord) :
    RamM Unit :=
  if taskHead = NULL ∨ func = NULL then pure ()
  else do
    let task ← kmalloc SIZEOF_TCB
    let context ← kmalloc SIZEOF_CONTEXT
    ofKernel (modifyMem (initTask task context func pri))
    ofKernel (spinReq lock)
    guard (pri < SMP_MAX_PRI)
    ofKernel (modifyMem (enqueue taskHead pri task))
    ofKernel (spinRel lock)

/-! ## `destroy_task` -/

/-- One pass of the loop that writes zeros.  Its test reads `task->ttba` again. -/
def clearPass (task : Word) : Word × Mem → Pass (Word × Mem) Mem
  | (pa, m) =>
      if pa < get m task .ttba + Mmu.SECTION_SIZE then .again (pa + 4, m.write pa 0)
      else .leave m

def clearSpace (fuel : ℕ) (task : Word) : RamM Unit := fun s =>
  (Loop.run (clearPass task) fuel (get s.mem task .ttba, s.mem)).map fun m =>
    ((), { s with kernel := { s.kernel with mem := m } })

/-- What `destroy_task` does before it gives the memory of the task back. -/
def detachTask (fuel : ℕ) (task : Word) : RamM Unit := do
  ofKernel (invalidateTlbs (← readField task .asid))
  ofKernel (writeAsidHead (← readField task .asid) UNUSED_ASID)
  clearSpace fuel task
  ofKernel (spinReq .smpQueueLock)
  ofKernel (modifyMap (← readField task .mapid).toNat (.setState INIT_MAP))
  ofKernel (modifyMap (← readField task .mapid).toNat (.setTask NULL))
  ofKernel (modifyMem fun m => set m (get m task .prev) .next (get m task .next))
  ofKernel (modifyMem fun m => set m (get m task .next) .prev (get m task .prev))
  ofKernel (spinRel .smpQueueLock)

/-- `destroy_task`. -/
def destroyTask (fuel : ℕ) (kfree : Word → RamM Unit) (task : Word) : RamM Unit := do
  detachTask fuel task
  kfree (← readField task .context)
  kfree task

end TaskRam

end Rpi2Baremetal
