import Rpi2Baremetal.Model.Interrupt
import Rpi2Baremetal.Model.Sysconfs

/-!
# Inter-processor interrupts through mailbox 0

`send_ipi` writes a bit to the `SET` register of a core's mailbox 0, and `local_int_handler`
takes the lowest bit it reads from the `CLR` register, clears it there and calls `ipi_handler`.
Every access to a register is a step, and the steps of all cores interleave.

On one core the executions of `local_int_handler` follow each other: the processor masks
interrupts on entry, and `_irq` enables them only when `interrupt_handler` has returned.
-/

namespace Rpi2Baremetal

namespace Multicore

open Interrupt

/-! ## The registers (`hwio.h`) -/

def ARM_LOCAL_BASE : Word := 0x40000000

/-- `ARM_LOCAL_IRQ_PENDING0` to `ARM_LOCAL_IRQ_PENDING3`. -/
def armLocalIrqPending (core : Fin NUM_CPU) : Word :=
  ARM_LOCAL_BASE + ![0x060, 0x064, 0x068, 0x06C] core

/-- `ARM_LOCAL_MAILBOX0_SET0` to `ARM_LOCAL_MAILBOX0_SET3`. -/
def armLocalMailbox0Set (core : Fin NUM_CPU) : Word :=
  ARM_LOCAL_BASE + ![0x080, 0x090, 0x0A0, 0x0B0] core

/-- `ARM_LOCAL_MAILBOX0_CLR0` to `ARM_LOCAL_MAILBOX0_CLR3`. -/
def armLocalMailbox0Clr (core : Fin NUM_CPU) : Word :=
  ARM_LOCAL_BASE + ![0x0C0, 0x0D0, 0x0E0, 0x0F0] core

/-- The pending register of a core: bit 4 is set iff its mailbox 0 is not 0, and the other bits
are those of `other`. -/
def irqPending (mailbox0 other : Word) : Word :=
  other &&& ~~~0x10 ||| if mailbox0 = 0 then 0 else 0x10

/-- What `read32` returns with the mailboxes as they are; registers that are not among the ones
above hold `other`. -/
def read32 (mailbox0 : Fin NUM_CPU → Word) (other reg : Word) : Word :=
  match (List.finRange NUM_CPU).find? fun core => armLocalIrqPending core = reg with
  | some core => irqPending (mailbox0 core) other
  | none =>
      match (List.finRange NUM_CPU).find? fun core => armLocalMailbox0Clr core = reg with
      | some core => mailbox0 core
      | none => other

/-- The mailboxes after `write32`. -/
def write32 (mailbox0 : Fin NUM_CPU → Word) (reg value : Word) : Fin NUM_CPU → Word :=
  fun core =>
    if reg = armLocalMailbox0Set core then mailbox0 core ||| value
    else if reg = armLocalMailbox0Clr core then mailbox0 core &&& ~~~value
    else mailbox0 core

/-! ## Sending and handling (`multicore.c`) -/

/-- `send_ipi`. -/
def sendIpi (mailbox0 : Fin NUM_CPU → Word) (nCore nIpi : Word) : Fin NUM_CPU → Word :=
  write32 mailbox0 (armLocalMailbox0Set 0 + 0x10 * nCore) ((1 : Word) <<< nIpi)

/-- Where a core is in `local_int_handler`. -/
inductive HandlerPc where
  | idle
  /-- The mailbox bit was pending; the mailbox is read next. -/
  | pending
  /-- This mask was read and is not 0; its lowest bit is cleared next. -/
  | scanned (nIpiMask : Word)
  /-- The bit was cleared; `ipi_handler` is called next. -/
  | cleared (nIpi : ℕ)

/-- What the executions of `send_ipi` and `local_int_handler` have done.  The executions of the
handler on one core are numbered. -/
inductive MailboxEvent where
  | send (nCore : Fin NUM_CPU) (nIpi : ℕ)
  /-- The pending register was read. -/
  | check (core : Fin NUM_CPU) (exec : ℕ) (irqPending : Word)
  /-- The mailbox was read. -/
  | read (core : Fin NUM_CPU) (exec : ℕ) (nIpiMask : Word)
  /-- The write to the `CLR` register, with the mailbox bits it has cleared. -/
  | clear (core : Fin NUM_CPU) (exec : ℕ) (bits : Fin NUM_CPU → Word)
  /-- The call of `ipi_handler`. -/
  | call (nCore : Fin NUM_CPU) (exec : ℕ) (nIpi : ℕ)

/-- The mailboxes, and where each core is in its execution of the handler.  `executions` counts
those that have returned, and `trace` records the run; no step depends on either. -/
structure MailboxState where
  mailbox0 : Fin NUM_CPU → Word
  handler : Fin NUM_CPU → HandlerPc
  executions : Fin NUM_CPU → ℕ
  trace : List MailboxEvent

/-- The mailboxes are empty and nothing has happened. -/
def MailboxState.start : MailboxState where
  mailbox0 _ := 0
  handler _ := .idle
  executions _ := 0
  trace := []

namespace MailboxState

def record (s : MailboxState) (event : MailboxEvent) : MailboxState :=
  { s with trace := s.trace ++ [event] }

/-- `local_int_handler` on a core goes on at `pc`. -/
def goOn (s : MailboxState) (core : Fin NUM_CPU) (pc : HandlerPc) : MailboxState :=
  { s with handler := Function.update s.handler core pc }

/-- `local_int_handler` on a core returns. -/
def ret (s : MailboxState) (core : Fin NUM_CPU) : MailboxState :=
  { s.goOn core .idle with
    executions := Function.update s.executions core (s.executions core + 1) }

end MailboxState

/-- A step of some core: a call of `send_ipi`, or the next step of `local_int_handler`, with
what the registers hold that are not modelled. -/
inductive MailboxAction where
  | send (nCore : Fin NUM_CPU) (nIpi : Fin 32)
  | handler (core : Fin NUM_CPU) (other : Word)

/-- The next step of `local_int_handler` on core `nCore`. -/
def localIntHandler (s : MailboxState) (core : Fin NUM_CPU) (other : Word) : MailboxState :=
  let nCore : Word := .ofNat 32 core
  let nMbClr := armLocalMailbox0Clr 0 + 0x10 * nCore
  match s.handler core with
  | .idle =>
      let irqPending := read32 s.mailbox0 other (armLocalIrqPending 0 + 4 * nCore)
      let s := s.record (.check core (s.executions core) irqPending)
      if irqPending &&& 0x10 = 0 then s.ret core else s.goOn core .pending
  | .pending =>
      let nIpiMask := read32 s.mailbox0 other nMbClr
      let s := s.record (.read core (s.executions core) nIpiMask)
      if nIpiMask = 0 then s.ret core else s.goOn core (.scanned nIpiMask)
  | .scanned nIpiMask =>
      let nIpi := ipiScan 32 nIpiMask 0
      let mailbox0 := write32 s.mailbox0 nMbClr ((1 : Word) <<< nIpi)
      let bits := fun c => s.mailbox0 c &&& ~~~mailbox0 c
      ({ s with mailbox0 }.record (.clear core (s.executions core) bits)).goOn core
        (.cleared nIpi)
  | .cleared nIpi => (s.record (.call core (s.executions core) nIpi)).ret core

/-- One step. -/
def mailboxStep (s : MailboxState) : MailboxAction → MailboxState
  | .send nCore nIpi =>
      { s with mailbox0 := sendIpi s.mailbox0 (.ofNat 32 nCore) (.ofNat 32 nIpi) }.record
        (.send nCore nIpi)
  | .handler core other => localIntHandler s core other

end Multicore

end Rpi2Baremetal
