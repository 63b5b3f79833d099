import Rpi2Baremetal.Framework.Loop
import Rpi2Baremetal.Model.Word

/-!
# Interrupt dispatch

Which inter-processor interrupt `local_int_handler` serves, and for which lines
`_interrupt_handler` calls `call_irq_handler`, as functions of the registers read on entry.
Whether a line has a handler is what `call_irq_handler` returns.

`interruptHandler` is `_interrupt_handler` with a table of handlers and with everything it does
outside: the registers it reads, the handlers it calls and the lines it disables.  What it prints
is left out: where a message does not return (`Model/Kernel.lean`), the handler goes no further
than the message.  The same handler with its messages, and with the locks that they take, is a
command of `Model/Console.lean`; `Properties/InterruptLocking.lean` shows that the two do the same.
-/

namespace Rpi2Baremetal

open Framework

namespace Interrupt

/-- What the interrupt path reads from the interrupt controllers: the local pending register
and the mailbox of this core, and the three pending registers. -/
structure IrqInput where
  localPending : Word
  mailbox : Word
  pend1 : Word
  pend2 : Word
  basicPend : Word

/-- `for (n_ipi = 0; !(n_ipi_mask & 1); n_ipi++) n_ipi_mask >>= 1`, for a mask that is not 0. -/
def ipiScan : ℕ → Word → ℕ → ℕ
  | 0, _, nIpi => nIpi
  | fuel + 1, mask, nIpi =>
      if mask &&& 1 = 0 then ipiScan fuel (mask >>> 1) (nIpi + 1) else nIpi

/-- The IPI `local_int_handler` serves; `none` when it returns `FALSE`. -/
def localIpi (i : IrqInput) : Option ℕ :=
  if i.localPending &&& 0x10 = 0 then none
  else if i.mailbox = 0 then none
  else some (ipiScan 32 i.mailbox 0)

variable (handled : ℕ → Bool)

/-- The `do ... while (n_pending != 0)` loop of `_interrupt_handler`: the lines
`call_irq_handler` is called for, and whether a call returned `TRUE`. -/
def scanBits : ℕ → Word → ℕ → List ℕ × Bool
  | 0, _, _ => ([], false)
  | fuel + 1, nPending, nIrq =>
      if nPending.getLsbD 0 ∧ handled nIrq then ([nIrq], true)
      else
        let rest :=
          if nPending >>> 1 = 0 then ([], false)
          else scanBits fuel (nPending >>> 1) (nIrq + 1)
        (if nPending.getLsbD 0 then nIrq :: rest.1 else rest.1, rest.2)

/-- The loop of `_interrupt_handler` over the pending registers from `nReg` on. -/
def scanRegs : List Word → ℕ → List ℕ
  | [], _ => []
  | nPending :: pending, nReg =>
      if nPending = 0 then scanRegs pending (nReg + 1)
      else
        let (lines, served) := scanBits handled 32 nPending (nReg * 32)
        if served then lines else lines ++ scanRegs pending (nReg + 1)

/-- `pending[3]`. -/
def pending (i : IrqInput) : List Word := [i.pend1, i.pend2, i.basicPend &&& 0xFF]

/-- The lines `_interrupt_handler` calls `call_irq_handler` for, in order. -/
def calledLines (i : IrqInput) : List ℕ := scanRegs handled (pending i) 0

/-! ## The dispatch and its effects -/

def ARM_IRQS_PER_REG : ℕ := 32
def IRQ_LINES : ℕ := ARM_IRQS_PER_REG * 2 + 8

def INT_BASE : Word := 0x3F00B000
def IRQ_BASIC_PEND : Word := INT_BASE + 0x200
def IRQ_PEND1 : Word := INT_BASE + 0x204
def IRQ_PEND2 : Word := INT_BASE + 0x208
def DISABLE_IRQ1 : Word := INT_BASE + 0x21C
def DISABLE_IRQ2 : Word := INT_BASE + 0x220
def DISABLE_BASIC_IRQ : Word := INT_BASE + 0x224

def ARM_IRQ1_BASE : Word := 0
def ARM_IRQ2_BASE : Word := ARM_IRQ1_BASE + 32
def ARM_IRQBASIC_BASE : Word := ARM_IRQ2_BASE + 32

/-- `ARM_IC_IRQS_DISABLE`. -/
def ARM_IC_IRQS_DISABLE (irq : Word) : Word :=
  if irq < ARM_IRQ2_BASE then DISABLE_IRQ1
  else if irq < ARM_IRQBASIC_BASE then DISABLE_IRQ2
  else DISABLE_BASIC_IRQ

/-- `ARM_IRQ_MASK`. -/
def ARM_IRQ_MASK (irq : Word) : Word := (1 : Word) <<< (irq &&& (32 - 1))

/-- `m_ap_irq_handler` and `m_p_param`, with 0 for no handler. -/
structure IrqTable where
  handler : ℕ → Word
  param : ℕ → Word

/-- `m_ap_irq_handler` after `init_irq_handler`, with the address of `aux_int_handler`. -/
def initIrqHandler (auxIntHandler : Word) : IrqTable where
  handler nIrq := if nIrq = 0x1d then auxIntHandler else 0
  param _ := 0

/-- What the dispatch does outside. -/
inductive Action where
  /-- Call `local_int_handler`. -/
  | localInt
  /-- Read the register at an address. -/
  | read (address : Word)
  /-- Call a device handler with its parameter. -/
  | call (handler param : Word)
  /-- Write the register at an address. -/
  | write (address value : Word)
  deriving DecidableEq

/-- `disable_irq`. -/
def disableIrq (nIrq : Word) (acts : List Action) : List Action :=
  acts ++ [.write (ARM_IC_IRQS_DISABLE nIrq) (ARM_IRQ_MASK nIrq)]

/-- `call_irq_handler`, with `none` where it indexes the tables past their end. -/
def callIrqHandler (t : IrqTable) (nIrq : Word) (acts : List Action) :
    Option (Bool × List Action) :=
  if nIrq.toNat < IRQ_LINES then
    if t.handler nIrq.toNat ≠ 0 then
      some (true, acts ++ [.call (t.handler nIrq.toNat) (t.param nIrq.toNat)])
    else some (false, disableIrq nIrq acts)
  else none

/-- One pass of `do ... while (n_pending != 0)`, over `n_pending` and `n_irq`.  The loop leaves
with `true` where the source returns. -/
def bitPass (t : IrqTable) :
    Word × Word × List Action → Pass (Word × Word × List Action) (Option (Bool × List Action))
  | (nPending, nIrq, acts) =>
      match if nPending &&& 1 ≠ 0 then callIrqHandler t nIrq acts else some (false, acts) with
      | none => .leave none
      | some (true, acts) => .leave (some (true, acts))
      | some (false, acts) =>
          if nPending >>> 1 ≠ 0 then .again (nPending >>> 1, nIrq + 1, acts)
          else .leave (some (false, acts))

/-- The loop over the registers of `pending` from `n_reg` on. -/
def regLoop (fuel : ℕ) (t : IrqTable) : List Word → Word → List Action → Option (List Action)
  | [], _, acts => some acts
  | nPending :: pending, nReg, acts =>
      if nPending ≠ 0 then do
        let (returned, acts) ← (← Loop.run (bitPass t) fuel (nPending, nReg * 32, acts))
        if returned then some acts else regLoop fuel t pending (nReg + 1) acts
      else regLoop fuel t pending (nReg + 1) acts

/-- `_interrupt_handler`, with a bound on the passes over one register. -/
def interruptHandler (fuel : ℕ) (t : IrqTable) (i : IrqInput) : Option (List Action) :=
  let acts := [.localInt]
  if (localIpi i).isSome then some acts
  else
    let acts := acts ++ [.read IRQ_PEND1, .read IRQ_PEND2, .read IRQ_BASIC_PEND]
    regLoop fuel t (pending i) 0 acts

end Interrupt

end Rpi2Baremetal
