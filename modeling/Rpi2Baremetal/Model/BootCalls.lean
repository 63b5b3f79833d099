import Rpi2Baremetal.Model.Console
import Rpi2Baremetal.Model.Init

/-!
# The initialisation of the cores, command by command

A core executes the calls of its `program`.  What a call prints and locks are commands on the
stack of the core, as in `cpu.c` and `uart.c`; an accepted IRQ puts the interrupt path on top.
The lock words, the counter, the devices and the console are shared, and the cores interleave
after every command.  The interleavings in which a call of `inc_waking_cores` or
`get_waking_cores` is one step are among them.

A secondary core starts at any moment, or never.  `_reset_` sends it to `_secondary_start` by
itself; where the firmware holds it back, it starts when `start_secondary_core` has written its
mailbox, and that function gives up on a core that does not answer and returns.

Which messages and locks the other calls need depends on data that is not modelled here, so a
call that leaves `waking_cores` alone may execute any commands that do.
-/

namespace Rpi2Baremetal

open Framework Interrupt

/-- The command reads or writes the counter, or calls a function that does. -/
def Console.Cmd.counts : Console.Cmd → Bool
  | .getWakingCores | .incWakingCores | .readWakingCores | .addWakingCores => true
  | _ => false

namespace Startup

open Console

/-- The commands of a call; `other` are those of a call that leaves the counter alone. -/
def InitCall.cmds (call : InitCall) (other : List Cmd) : Option (List Cmd) :=
  match call with
  | .incWakingCores _ => some [.incWakingCores]
  | .waitWakingCores => some [.getWakingCores]
  | _ => if other.all fun c => !c.counts then some other else none

/-- The lock words that a call sets to 0 itself. -/
def InitCall.clears : InitCall → LockWord → Bool
  | .clearBss, .uartLock | .clearBss, .expLock | .clearBss, .smpQueueLock => true
  | .miniUartInit, .uartLock => true
  | .initSysinfos, .ssiLock _ => true
  | .clearQueueLock, .smpQueueLock => true
  | _, _ => false

/-- A core: the number of calls it has completed, whether it is in the next one, its MMU, its
commands, and what it last read from the counter. -/
structure BootCore where
  pc : ℕ
  inCall : Bool
  mmuOn : Bool
  stack : List Cmd
  wakingCoresRead : Word

def BootCore.start : BootCore := ⟨0, false, false, [], 0⟩

/-- The cores that have started, and what they share. -/
structure BootState where
  shared : Console.State
  core : Fin NUM_CPU → Option BootCore

/-- Core 0 is at its first call, no lock is taken and the counter is 0. -/
def BootState.start : BootState where
  shared := ⟨fun _ => false, 0, 0, [], [], 0⟩
  core cpuid := if cpuid.val = 0 then some .start else none

namespace BootState

/-- The core has completed a call. -/
def Done (s : BootState) (cpuid : Fin NUM_CPU) (call : InitCall) : Prop :=
  ∃ c, s.core cpuid = some c ∧ call ∈ (program cpuid).take c.pc

/-- Core `cpuid` as in `c`. -/
def set (s : BootState) (cpuid : Fin NUM_CPU) (c : BootCore) : BootState :=
  { s with core := Function.update s.core cpuid (some c) }

/-- Some lock words are set to 0. -/
def clear (s : BootState) (locks : LockWord → Bool) : BootState :=
  { s with shared := { s.shared with held := fun lock => s.shared.held lock && !locks lock } }

end BootState

/-- What a core does next. -/
inductive BootAct where
  | start
  /-- Make the next call. -/
  | enter (other : List Cmd)
  /-- Execute the command on top, with what it finds in the devices and in memory. -/
  | exec (env : Env)
  /-- Accept an IRQ. -/
  | irq (i : IrqInput)
  /-- Write `SCTLR` in `start_mmu_no_lock`. -/
  | enableMmu
  /-- Return from the call; a pass of the loop of `init_smp_kernel` may be followed by another. -/
  | ret

/-- A step of a core that has started. -/
def BootCore.step (cpuid : Fin NUM_CPU) (c : BootCore) (s : BootState) : BootAct → Option BootState
  | .start => none
  | .enter other => do
      let call ← (program cpuid)[c.pc]?
      let cmds ← call.cmds other
      if c.inCall = false ∧ c.stack.isEmpty then
        some (s.set cpuid { c with inCall := true, stack := cmds })
      else none
  | .exec env =>
      if env.prid = .ofNat 32 cpuid ∧ env.mmuEnabled = c.mmuOn then
        let (stack, shared) := CallStack.step (exec env)
          (c.stack, { s.shared with wakingCoresRead := c.wakingCoresRead })
        some ({ s with shared }.set cpuid
          { c with stack, wakingCoresRead := shared.wakingCoresRead })
      else none
  | .irq i => some (s.set cpuid { c with stack := .interruptHandler i :: c.stack })
  | .enableMmu => do
      let call ← (program cpuid)[c.pc]?
      if call = .startMmuNoLock ∧ c.inCall ∧ c.stack.isEmpty ∧ c.mmuOn = false then
        some (s.set cpuid { c with mmuOn := true, stack := [.uartPuts (cstr "Enable MMU\n")] })
      else none
  | .ret => do
      let call ← (program cpuid)[c.pc]?
      if c.inCall ∧ c.stack.isEmpty ∧ (call = .startMmuNoLock → c.mmuOn) then
        if call = .waitWakingCores ∧ ¬ c.wakingCoresRead ≥ 4 then
          some (s.set cpuid { c with stack := [.getWakingCores] })
        else some ((s.clear call.clears).set cpuid { c with pc := c.pc + 1, inCall := false })
      else none

/-- A step of core `cpuid`. -/
def bootStep (s : BootState) : Fin NUM_CPU × BootAct → Option BootState
  | (cpuid, act) =>
      match s.core cpuid with
      | some c => c.step cpuid s act
      | none =>
          match act with
          | .start => some (s.set cpuid .start)
          | _ => none

end Startup

end Rpi2Baremetal
