import Rpi2Baremetal.Model.Sysinfo
import Rpi2Baremetal.Model.Util
import Mathlib.Tactic.Simps.Basic

/-!
# The state of the kernel

`Kernel` is what the functions of `util.c`, `sysinfo.c` and `task.c` read and write: RAM, the
lock words, `SysCommonInfo`, the `SysStructInfo` entries, the task map and the task control
blocks by their addresses.
A function is a `KernelM` computation; it halts where the source would spin on a lock forever
or read an array past its end, in the state it has reached by then.

`kmalloc` and `kfree` are here, with `get_pm` and `_get_prid`; so are the ASID functions and
`change_pm`.

## What is left out

Messages.  The functions print, and so do the `spin_req` and `spin_rel` that they lock with, on
every core but core 0.  With the MMU on printing takes `uart_lock`, and then it returns on core 0
only, and there only outside code that holds `uart_lock`: on cores 1 to 3 the `spin_req` of a
message prints a message itself (`Properties/DiagnosticLocking.lean`).  So a `KernelM` computation
says what a call does on core 0, on a core whose MMU is off, and up to its first message elsewhere.
What it prints changes none of the state here.

Other cores.  A computation is one call from beginning to end with nothing in between; what other
cores hold it finds in the lock words.

The kernel's own variables are not part of RAM: a store to RAM changes none of them, whatever its
address.  The stores here that could reach them are those of `destroy_task` and of the `kfree` that
it ends with (`Model/Task.lean`).

An array that is read past its end.  That is undefined in C, and the computation halts; the
built image goes on with the word that it finds there.
-/

namespace Rpi2Baremetal

open Framework

/-- Why a function does not return. -/
inductive Halt where
  /-- `_spin_req` of a word that stays 1, or `_spin_rel` of one that stays 0. -/
  | spins (lock : LockWord)
  /-- An array is read past its end. -/
  | outOfBounds

/-- `task_map_t`. -/
structure TaskMap where
  state : Word
  task : Word
  deriving DecidableEq

namespace TaskMap

@[simps] def setState (v : Word) (m : TaskMap) : TaskMap := { m with state := v }
@[simps] def setTask (v : Word) (m : TaskMap) : TaskMap := { m with task := v }

end TaskMap

/-- `context_t`, the registers `create_task` sets. -/
structure Context where
  sp : Word
  pc : Word

/-- `TCB`; pointers are addresses. -/
structure TCB where
  state : Word
  pri : Word
  mapid : Word
  ttba : Word
  asid : Word
  prev : Word
  next : Word
  context : Word

namespace TCB

@[simps] def setState (v : Word) (t : TCB) : TCB := { t with state := v }
@[simps] def setMapid (v : Word) (t : TCB) : TCB := { t with mapid := v }
@[simps] def setTtba (v : Word) (t : TCB) : TCB := { t with ttba := v }
@[simps] def setAsid (v : Word) (t : TCB) : TCB := { t with asid := v }
@[simps] def setPrev (v : Word) (t : TCB) : TCB := { t with prev := v }
@[simps] def setNext (v : Word) (t : TCB) : TCB := { t with next := v }

end TCB

structure Kernel where
  /-- The core that executes. -/
  prid : Word
  /-- The lock words that are 1. -/
  held : LockWord → Bool
  common : SysCommonInfo
  sysStructTop : Fin NUM_SYS_STRUCT → SysStructInfo
  /-- The entries `smp_tsk_alc_map` points to. -/
  smpTskAlcMap : ℕ → TaskMap
  /-- The address `smp_tsk_alc_map` holds. -/
  mapAddress : Word
  /-- The number of entries `smp_tsk_alc_map` was allocated with. -/
  mapEntries : ℕ
  tcb : Word → TCB
  context : Word → Context
  /-- The blocks given to `kfree`, latest first. -/
  freed : List Word
  /-- The core and the ASID of every `invalidate_tlbs`, latest first. -/
  tlbOps : List (Word × Word)
  /-- The index of every access to `smp_tsk_alc_map`, latest first. -/
  mapAccesses : List ℕ
  mem : Mem

abbrev KernelM := EStateM Halt Kernel

namespace Kernel

/-- The state as the functions of core `cpuid` see it. -/
def onCore (k : Kernel) (cpuid : Word) : Kernel := { k with prid := cpuid }

/-! ## Accesses -/

def getPrid : KernelM Word := fun k => .ok k.prid k

def getPm : KernelM Word := fun k => .ok k.common.pm k

/-- `_spin_req`. -/
def spinReq (lock : LockWord) : KernelM Unit := fun k =>
  if k.held lock then .error (.spins lock) k
  else .ok () { k with held := Function.update k.held lock true }

/-- `_spin_rel`. -/
def spinRel (lock : LockWord) : KernelM Unit := fun k =>
  if k.held lock then .ok () { k with held := Function.update k.held lock false }
  else .error (.spins lock) k

/-- The entry of `SYSStructTop` for a core and a mode. -/
def ssiIndex (cpuid pm : Word) : KernelM (Fin NUM_SYS_STRUCT) :=
  match getSysStructInfo cpuid pm with
  | some i => pure i
  | none => throw .outOfBounds

/-- `SYSStructTop[index]`. -/
def sysStructTopEntry (index : Word) : KernelM SysStructInfo := fun k =>
  if h : index.toNat < NUM_SYS_STRUCT then .ok (k.sysStructTop ⟨index.toNat, h⟩) k
  else .error .outOfBounds k

def readSsi (i : Fin NUM_SYS_STRUCT) : KernelM SysStructInfo := fun k => .ok (k.sysStructTop i) k

def readTcb (task : Word) : KernelM TCB := fun k => .ok (k.tcb task) k

def modifyTcb (task : Word) (f : TCB → TCB) : KernelM Unit := fun k =>
  .ok () { k with tcb := Function.update k.tcb task (f (k.tcb task)) }

def modifyContext (context : Word) (f : Context → Context) : KernelM Unit := fun k =>
  .ok () { k with context := Function.update k.context context (f (k.context context)) }

def modifyCommon (f : SysCommonInfo → SysCommonInfo) : KernelM Unit := fun k =>
  .ok () { k with common := f k.common }

def readAsidHead (asid : Word) : KernelM Word := fun k => .ok (k.common.asidHead asid) k

def writeAsidHead (asid v : Word) : KernelM Unit :=
  modifyCommon fun c => { c with asidHead := Function.update c.asidHead asid v }

def readMap (i : ℕ) : KernelM TaskMap := fun k =>
  .ok (k.smpTskAlcMap i) { k with mapAccesses := i :: k.mapAccesses }

def modifyMap (i : ℕ) (f : TaskMap → TaskMap) : KernelM Unit := fun k =>
  .ok () { k with
    smpTskAlcMap := Function.update k.smpTskAlcMap i (f (k.smpTskAlcMap i))
    mapAccesses := i :: k.mapAccesses }

def modifyMem (f : Mem → Mem) : KernelM Unit := fun k => .ok () { k with mem := f k.mem }

/-- `invalidate_tlbs`, of the executing core. -/
def invalidateTlbs (asid : Word) : KernelM Unit := fun k =>
  .ok () { k with tlbOps := (k.prid, asid) :: k.tlbOps }

/-! ## ASIDs and modes (`sysinfo.c`) -/

def RESERVED_ASID_NUM : Word := 0
def ERROR_ASID_NUM : Word := -1

def UNUSED_ASID : Word := 0
def ACTIVE_ASID : Word := 1
def FINISHED_ASID : Word := 2

/-- The loop of `set_user_asid` over the ASIDs it tries, under the lock of entry `i`. -/
def userAsidLoop (i : Fin NUM_SYS_STRUCT) (task : Word) : List Word → KernelM Word
  | [] => pure ERROR_ASID_NUM
  | asid :: asids => do
      spinReq (.ssiLock i)
      let status ← readAsidHead asid
      if asid = RESERVED_ASID_NUM ∨ status = ACTIVE_ASID then
        spinRel (.ssiLock i)
        userAsidLoop i task asids
      else
        if status = UNUSED_ASID then
          writeAsidHead asid ACTIVE_ASID
        else if status = FINISHED_ASID then
          writeAsidHead asid ACTIVE_ASID
          invalidateTlbs asid
        spinRel (.ssiLock i)
        modifyTcb task (.setAsid asid)
        pure asid

/-- The values of `asid` in `for (; asid < asid_limit; asid++)`. -/
def asidsFrom (first limit : Word) : List Word :=
  (List.range' first.toNat (limit.toNat - first.toNat)).map (.ofNat 32)

/-- `set_user_asid`. -/
def setUserAsid (task cpuid pm : Word) : KernelM Word := do
  let t ← readTcb task
  if t.asid ≠ 0 then pure t.asid
  else
    let i ← ssiIndex cpuid pm
    let ssi ← readSsi i
    let first := if ssi.asidArea.bottom = RESERVED_ASID_NUM then ssi.asidArea.bottom + 2
      else ssi.asidArea.bottom + 1
    userAsidLoop i task (asidsFrom first ssi.asidArea.limit)

/-- `take_kernel_asid`; its test of `ssi` comes after `ssi` was used. -/
def takeKernelAsid (cpuid pm : Word) : KernelM Word := do
  let ssi ← readSsi (← ssiIndex cpuid pm)
  let asidBottom := ssi.asidArea.bottom + 1
  if asidBottom = RESERVED_ASID_NUM then
    writeAsidHead (asidBottom + 1) 1
    pure (asidBottom + 1)
  else
    writeAsidHead asidBottom 1
    pure asidBottom

/-- `set_pm`. -/
def setPm (pm : Word) : KernelM Word := do
  if !isValidPm pm then pure (-1)
  else
    spinReq .sysCommonLock
    modifyCommon fun c => { c with pm := pm }
    spinRel .sysCommonLock
    pure pm

/-- `set_prev_pm`. -/
def setPrevPm (pm : Word) : KernelM Word := do
  if !isValidPm pm then pure (-1)
  else
    spinReq .sysCommonLock
    modifyCommon fun c => { c with prevPm := pm }
    spinRel .sysCommonLock
    pure pm

/-- `change_pm`. -/
def changePm (pm : Word) : KernelM Word := do
  spinReq .sysCommonLock
  modifyCommon fun c => { c with prevPm := c.pm, pm := pm }
  spinRel .sysCommonLock
  pure 1

/-! ## The kernel heap (`util.c`) -/

/-- `kmalloc`: the memory afterwards and the result, `none` standing for `NULL`.  `_malloc`
gets the head of the free list by value, and nothing is stored back. -/
def kmalloc (fuel : ℕ) (nbytes : Word) (k : Kernel) : Option (Kernel × Option Word) := do
  let i ← getSysStructInfo k.prid k.common.pm
  let base := (k.sysStructTop i).kernelHeapArea.bottom
  let freep := (k.sysStructTop i).kernelHeapFreep
  let (m, r) ← malloc fuel k.mem base freep nbytes
  pure ({ k with mem := m }, r)

/-- `kfree`. -/
def kfree (fuel : ℕ) (ap : Word) (k : Kernel) : Option Kernel := do
  let i ← getSysStructInfo k.prid k.common.pm
  let m ← free fuel k.mem (k.sysStructTop i).kernelHeapFreep ap
  pure { k with mem := m }

end Kernel

end Rpi2Baremetal
