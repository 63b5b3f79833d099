import Rpi2Baremetal.Model.Task

/-!
# ASIDs in the TLBs (`mmu.c`)

Each core has its own TLB, and adds the ASID and the table it has installed to it whenever it
likes.  The cores run `sync_user_ttba_change`, `end_task` and `destroy_task` one access to the
shared state at a time, so `set_user_asid` is split into its accesses here.
The operations on `CP15` are those of the executing core: `invalidate_tlbs` is
`mcr p15,0,asid,c8,c7,2`, which other cores do not see.
-/

namespace Rpi2Baremetal

namespace Tlb

open Kernel

/-! ## A core -/

/-- The registers that select the table and the ASID of a core, and the ASIDs and the tables in
its TLB.  `installed` is not in the hardware: it has the pairs the core has installed, of which
`invalidate_tlbs` removes those with its ASID. -/
structure CoreTlb where
  contextidr : Word
  ttbr0 : Word
  ttbr1 : Word
  tlb : List (Word × Word)
  installed : List (Word × Word)
  deriving DecidableEq

namespace CoreTlb

def asid (c : CoreTlb) : Word := c.contextidr &&& 0xFF

/-- The ASID and the table installed; `TTBCR` is 0, so the table is that of `TTBR0`. -/
def pair (c : CoreTlb) : Word × Word := (c.asid, c.ttbr0)

def note (c : CoreTlb) : CoreTlb := { c with installed := c.pair :: c.installed }

/-- A translation gets into the TLB. -/
def fill (c : CoreTlb) : CoreTlb := { c with tlb := c.pair :: c.tlb }

/-- `set_asid`, and what `sync_user_ttba_change` does in its place. -/
def setAsid (asid : Word) (c : CoreTlb) : CoreTlb :=
  { c with contextidr := (c.contextidr &&& 0xFFFFFF00) ||| asid }.note

def setTtbr0 (ttbr : Word) (c : CoreTlb) : CoreTlb := { c with ttbr0 := ttbr }.note

def setTtbr1 (ttbr : Word) (c : CoreTlb) : CoreTlb := { c with ttbr1 := ttbr }

/-- `invalidate_tlbs`. -/
def invalidateTlbs (asid : Word) (c : CoreTlb) : CoreTlb :=
  { c with
    tlb := c.tlb.filter (·.1 ≠ asid &&& 0xFF)
    installed := c.installed.filter (·.1 ≠ asid &&& 0xFF) }.note

end CoreTlb

/-- The writes of `CP15` registers. -/
inductive MmuOp where
  | setAsid (asid : Word)
  | setTtbr0 (ttbr : Word)
  | setTtbr1 (ttbr : Word)
  | invalidateTlbs (asid : Word)

def MmuOp.run : MmuOp → CoreTlb → CoreTlb
  | .setAsid asid => CoreTlb.setAsid asid
  | .setTtbr0 ttbr => CoreTlb.setTtbr0 ttbr
  | .setTtbr1 ttbr => CoreTlb.setTtbr1 ttbr
  | .invalidateTlbs asid => CoreTlb.invalidateTlbs asid

/-! ## What a core executes -/

/-- The variables of the loop of `set_user_asid`: the entry whose lock it takes, the ASID it
tries and those it tries after it. -/
structure AsidScan where
  task : Word
  ssi : Fin NUM_SYS_STRUCT
  asid : Word
  asids : List Word
  deriving DecidableEq

/-- The next access of a core. -/
inductive TlbPc where
  | idle
  /-- `spin_req(&(ssi->lock))`. -/
  | acquire (v : AsidScan)
  | testActive (v : AsidScan)
  /-- `spin_rel(&(ssi->lock))` before `continue`. -/
  | skip (v : AsidScan)
  | testUnused (v : AsidScan)
  | activateUnused (v : AsidScan)
  | testFinished (v : AsidScan)
  | activateFinished (v : AsidScan)
  | invalidate (v : AsidScan)
  | release (v : AsidScan)
  /-- `task->asid = asid`. -/
  | store (v : AsidScan)
  /-- The write of `RESERVED_ASID_NUM` by `sync_user_ttba_change`. -/
  | reserve (task asid : Word)
  | writeTtbr0 (task asid : Word)
  | writeTtbr1 (task asid : Word)
  | writeAsid (asid : Word)
  /-- `asid_head[task->asid] = FINISHED_ASID` by `end_task`. -/
  | endHead (task asid : Word)
  | endRest (task : Word)
  /-- `task->asid` is read for `asid_head[task->asid] = UNUSED_ASID` by `destroy_task`. -/
  | destroyAsid (task : Word)
  | destroyHead (task asid : Word)
  | destroyRest (task : Word)
  deriving DecidableEq

/-- What `end_task` does after `asid_head`. -/
def endTaskRest (task : Word) : KernelM Unit := do
  modifyMap (← readTcb task).mapid.toNat (.setState WAIT_INIT_MAP)
  modifyTcb task (.setState TASK_STATE_FINISHED)

/-- What `destroy_task` does after `asid_head`, to a task with TCB `t`. -/
def destroyTaskRest (task : Word) (t : TCB) : KernelM Unit := do
  clearSpace t.ttba
  spinReq .smpQueueLock
  modifyMap t.mapid.toNat (.setState INIT_MAP)
  modifyMap t.mapid.toNat (.setTask NULL)
  modifyTcb t.prev (.setNext t.next)
  let t ← readTcb task
  modifyTcb t.next (.setPrev t.prev)
  spinRel .smpQueueLock
  kfreeBlock (← readTcb task).context
  kfreeBlock task

/-- The loop of `set_user_asid` with the values of `asid` that are left. -/
def scan (task : Word) (ssi : Fin NUM_SYS_STRUCT) : List Word → TlbPc
  | [] => .reserve task ERROR_ASID_NUM
  | asid :: asids => .acquire ⟨task, ssi, asid, asids⟩

namespace TlbPc

/-- One access. -/
def run : TlbPc → KernelM (TlbPc × Option MmuOp)
  | .idle => pure (.idle, none)
  | .acquire v => do
      spinReq (.ssiLock v.ssi)
      pure (.testActive v, none)
  | .testActive v => do
      let status ← readAsidHead v.asid
      if v.asid = RESERVED_ASID_NUM ∨ status = ACTIVE_ASID then pure (.skip v, none)
      else pure (.testUnused v, none)
  | .skip v => do
      spinRel (.ssiLock v.ssi)
      pure (scan v.task v.ssi v.asids, none)
  | .testUnused v => do
      let status ← readAsidHead v.asid
      pure (if status = UNUSED_ASID then .activateUnused v else .testFinished v, none)
  | .activateUnused v => do
      writeAsidHead v.asid ACTIVE_ASID
      pure (.release v, none)
  | .testFinished v => do
      let status ← readAsidHead v.asid
      pure (if status = FINISHED_ASID then .activateFinished v else .release v, none)
  | .activateFinished v => do
      writeAsidHead v.asid ACTIVE_ASID
      pure (.invalidate v, none)
  | .invalidate v => do
      Kernel.invalidateTlbs v.asid
      pure (.release v, some (.invalidateTlbs v.asid))
  | .release v => do
      spinRel (.ssiLock v.ssi)
      pure (.store v, none)
  | .store v => do
      modifyTcb v.task (.setAsid v.asid)
      pure (.reserve v.task v.asid, none)
  | .reserve task asid => pure (.writeTtbr0 task asid, some (.setAsid RESERVED_ASID_NUM))
  | .writeTtbr0 task asid => do
      let t ← readTcb task
      pure (.writeTtbr1 task asid, some (.setTtbr0 (0x4a ||| t.ttba)))
  | .writeTtbr1 task asid => do
      let t ← readTcb task
      pure (.writeAsid asid, some (.setTtbr1 (0x4a ||| t.ttba)))
  | .writeAsid asid => pure (.idle, some (.setAsid asid))
  | .endHead task asid => do
      writeAsidHead asid FINISHED_ASID
      pure (.endRest task, none)
  | .endRest task => do
      endTaskRest task
      pure (.idle, none)
  | .destroyAsid task => do
      let t ← readTcb task
      pure (.destroyHead task t.asid, none)
  | .destroyHead task asid => do
      writeAsidHead asid UNUSED_ASID
      pure (.destroyRest task, none)
  | .destroyRest task => do
      destroyTaskRest task (← readTcb task)
      pure (.idle, none)

/-- The task whose ASID the next access gives back. -/
def ends : TlbPc → Option Word
  | .endHead task _ => some task
  | .destroyHead task _ => some task
  | _ => none

end TlbPc

inductive TlbCall where
  | syncUserTtbaChange (task cpuid pm : Word)
  | endTask (task : Word)
  | destroyTask (task : Word)
  deriving DecidableEq

namespace TlbCall

def task : TlbCall → Word
  | .syncUserTtbaChange task _ _ => task
  | .endTask task => task
  | .destroyTask task => task

/-- A call up to its second access.  The test `asid < 0` of `sync_user_ttba_change` compares an
unsigned number, so it goes on with `ERROR_ASID_NUM`. -/
def start : TlbCall → KernelM (TlbPc × Option MmuOp)
  | .syncUserTtbaChange task cpuid pm => do
      let t ← readTcb task
      if t.asid ≠ 0 then pure (.reserve task t.asid, none)
      else
        let i ← ssiIndex cpuid pm
        let ssi ← readSsi i
        let first := if ssi.asidArea.bottom = RESERVED_ASID_NUM then ssi.asidArea.bottom + 2
          else ssi.asidArea.bottom + 1
        pure (scan task i (asidsFrom first ssi.asidArea.limit), none)
  | .endTask task => do
      let t ← readTcb task
      pure (.endHead task t.asid, none)
  | .destroyTask task => do
      let t ← readTcb task
      Kernel.invalidateTlbs t.asid
      pure (.destroyAsid task, some (.invalidateTlbs t.asid))

end TlbCall

/-! ## The cores -/

/-- The kernel, its tasks, those of them that have given their ASID back, and the cores. -/
structure TlbState where
  kernel : Kernel
  tasks : List Word
  ended : List Word
  pc : Fin NUM_CPU → TlbPc
  core : Fin NUM_CPU → CoreTlb

namespace TlbState

/-- The table `sync_user_ttba_change` installs for a task. -/
def table (s : TlbState) (task : Word) : Word := 0x4a ||| (s.kernel.tcb task).ttba

/-- An access of core `cpuid` to the state. -/
def exec (s : TlbState) (cpuid : Fin NUM_CPU) (x : KernelM (TlbPc × Option MmuOp)) :
    Option TlbState :=
  match x (s.kernel.onCore (.ofNat 32 cpuid)) with
  | .ok (pc, op) k' => some { s with
      kernel := k'
      ended := (s.pc cpuid).ends.toList ++ s.ended
      pc := Function.update s.pc cpuid pc
      core := Function.update s.core cpuid (op.elim id MmuOp.run (s.core cpuid)) }
  | .error _ _ => none

end TlbState

/-- A core fills its TLB, calls a function or makes its next access. -/
inductive TlbAction where
  | fill (cpuid : Fin NUM_CPU)
  | call (cpuid : Fin NUM_CPU) (call : TlbCall)
  | next (cpuid : Fin NUM_CPU)
  deriving DecidableEq

/-- One step of a core; it waits for a lock without a step. -/
def tlbStep (s : TlbState) : TlbAction → Option TlbState
  | .fill cpuid => some { s with core := Function.update s.core cpuid (s.core cpuid).fill }
  | .call cpuid call =>
      if s.pc cpuid = .idle ∧ call.task ∈ s.tasks then s.exec cpuid call.start else none
  | .next cpuid => s.exec cpuid (s.pc cpuid).run

end Tlb

end Rpi2Baremetal
