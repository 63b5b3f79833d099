import Rpi2Baremetal.Model.Interrupt

/-!
# The interrupt controller

Each of the 72 lines has an enable bit, and the pending registers show only lines that are enabled.
`enable_irq` and `disable_irq` write one bit each, and a dispatch disables the pending lines that it
finds no handler for.  Which of the enabled lines are driven is up to the devices.
-/

namespace Rpi2Baremetal

namespace Interrupt

def ENABLE_IRQ1 : Word := INT_BASE + 0x210
def ENABLE_IRQ2 : Word := INT_BASE + 0x214
def ENABLE_BASIC_IRQ : Word := INT_BASE + 0x218

/-- `ARM_IC_IRQS_ENABLE`. -/
def ARM_IC_IRQS_ENABLE (irq : Word) : Word :=
  if irq < ARM_IRQ2_BASE then ENABLE_IRQ1
  else if irq < ARM_IRQBASIC_BASE then ENABLE_IRQ2
  else ENABLE_BASIC_IRQ

/-- The enable bits of the three banks after `write32`: a 1 that is written to an `ENABLE` register
sets a bit of its bank, a 1 that is written to a `DISABLE` register clears it. -/
def writeIc (enabled : ℕ → Word) (reg value : Word) : ℕ → Word := fun bank =>
  if reg = [ENABLE_IRQ1, ENABLE_IRQ2, ENABLE_BASIC_IRQ].getD bank 0 then enabled bank ||| value
  else if reg = [DISABLE_IRQ1, DISABLE_IRQ2, DISABLE_BASIC_IRQ].getD bank 0 then
    enabled bank &&& ~~~value
  else enabled bank

/-- The enable bits after what a dispatch does outside.  The device handlers leave them alone. -/
def Action.apply (enabled : ℕ → Word) : Action → ℕ → Word
  | .write address value => writeIc enabled address value
  | _ => enabled

/-- The pending registers show nothing that is not enabled. -/
def Shows (enabled : ℕ → Word) (i : IrqInput) : Prop :=
  ∀ bank < 3, (pending i).getD bank 0 &&& ~~~enabled bank = 0

instance (enabled : ℕ → Word) (i : IrqInput) : Decidable (Shows enabled i) :=
  inferInstanceAs (Decidable (∀ bank < 3, _))

/-- A step: a call of `enable_irq` or `disable_irq`, or an execution of `_interrupt_handler` that
reads these registers. -/
inductive IcAct where
  | enableIrq (nIrq : Word)
  | disableIrq (nIrq : Word)
  | dispatch (i : IrqInput)

def icStep (t : IrqTable) (enabled : ℕ → Word) : IcAct → Option (ℕ → Word)
  | .enableIrq nIrq => some (writeIc enabled (ARM_IC_IRQS_ENABLE nIrq) (ARM_IRQ_MASK nIrq))
  | .disableIrq nIrq => some ((disableIrq nIrq []).foldl Action.apply enabled)
  | .dispatch i =>
      if Shows enabled i then
        (interruptHandler 32 t i).map fun acts => acts.foldl Action.apply enabled
      else none

end Interrupt

end Rpi2Baremetal
