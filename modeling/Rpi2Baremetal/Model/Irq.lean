import Rpi2Baremetal.Framework.Transition
import Rpi2Baremetal.Model.Arm

/-!
# The IRQ handler of `boot.s`

A system whose steps are the instructions of `_irq` and the acceptance of further IRQs at any
instruction boundary where the `I` bit is clear.  It runs from the acceptance of the outermost
IRQ to the return of its `_irq`; `depth` counts the activations of `_irq`.
-/

namespace Rpi2Baremetal

open Framework

namespace Arm

/-- `r0` to `r12`. -/
def allRegs : List (Fin 13) := List.finRange 13

/-- `_irq`. -/
def irqCode : List Instr :=
  [.subLr 4,
   .stmfd allRegs,
   .bl,
   .cpsieI,
   .ldmfdPc allRegs]

structure IrqState where
  m : Machine
  depth : ℕ

inductive IrqEvent where
  | irq
  | instr
  deriving DecidableEq

/-- The processor is at instruction `k` of `_irq`, which is `i`. -/
def AtIrq (irq : Word) (s : Machine) (i : Instr) : Prop :=
  ∃ k, irqCode[k]? = some i ∧ s.pc = irq + .ofNat 32 (4 * k)

/-- One step inside an interrupt; `H` relates the entry of `interrupt_handler` to its
return. -/
inductive IrqStep (irq : Word) (H : Machine → Machine → Prop) :
    IrqState → IrqEvent → IrqState → Prop
  | accept {s : Machine} {d : ℕ} :
      s.cpsr.irqMasked = false →
      IrqStep irq H ⟨s, d + 1⟩ .irq ⟨s.takeIrq irq, d + 2⟩
  | plain {s : Machine} {d : ℕ} {i : Instr} :
      AtIrq irq s i → i ≠ .bl → (∀ rs, i ≠ .ldmfdPc rs) →
      IrqStep irq H ⟨s, d + 1⟩ .instr ⟨s.exec i, d + 1⟩
  | call {s s' : Machine} {d : ℕ} :
      AtIrq irq s .bl → H (s.exec .bl) s' →
      IrqStep irq H ⟨s, d + 1⟩ .instr ⟨s', d + 1⟩
  | ret {s : Machine} {d : ℕ} {rs : List (Fin 13)} :
      AtIrq irq s (.ldmfdPc rs) →
      IrqStep irq H ⟨s, d + 1⟩ .instr ⟨s.exec (.ldmfdPc rs), d⟩

/-- `interrupt_handler` obeys the procedure-call standard and leaves IRQs masked. -/
def HandlerObeys (H : Machine → Machine → Prop) : Prop :=
  ∀ s s', H s s' → s.Returns 14 s' ∧ s'.cpsr.irqMasked = true

/-- The state in which the interrupted code `s` goes on: `t` has the same `pc`, `CPSR`,
general registers, `sp` and `lr`, and the IRQ stack is as deep as before. -/
structure Transparent (s t : Machine) : Prop where
  pc : t.pc = s.pc
  cpsr : t.cpsr = s.cpsr
  r : t.r = s.r
  sp : t.sp = s.sp
  lr : t.lr = s.lr
  irqSp : t.bankedSp .irq = s.bankedSp .irq

end Arm

end Rpi2Baremetal
