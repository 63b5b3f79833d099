import Rpi2Baremetal.Model.Word

/-!
# The processor as the exception handlers of `boot.s` see it

General registers, the stack pointer, link register and saved status register that every mode
has of its own, the current status register, the program counter and RAM; and the
instructions of the handlers as functions on that state.  FIQ mode, which also has its own
`r8` to `r12`, is never entered.
-/

namespace Rpi2Baremetal

open Framework

namespace Arm

/-- The general registers are numbered by literals of `Fin 13`. -/
instance neZero_thirteen : NeZero 13 := ⟨by decide⟩

inductive Mode where
  | usr
  | irq
  | svc
  | abt
  | und
  | sys
  deriving DecidableEq

/-- The bank of `sp` and `lr` a mode uses; system mode uses that of user mode. -/
def Mode.bank : Mode → Mode
  | .sys => .usr
  | md => md

@[simp] lemma Mode.bank_irq : Mode.irq.bank = .irq := rfl

/-- A program status register: the mode, the `I` bit, and the other bits in place. -/
structure Psr where
  mode : Mode
  irqMasked : Bool
  rest : Word
  deriving DecidableEq

structure Machine where
  /-- `r0` to `r12`. -/
  r : Fin 13 → Word
  bankedSp : Mode → Word
  bankedLr : Mode → Word
  spsr : Mode → Psr
  cpsr : Psr
  pc : Word
  mem : Mem

namespace Machine

/-- The stack pointer of the current mode. -/
def sp (s : Machine) : Word := s.bankedSp s.cpsr.mode.bank

/-- The link register of the current mode. -/
def lr (s : Machine) : Word := s.bankedLr s.cpsr.mode.bank

def setSp (s : Machine) (v : Word) : Machine :=
  { s with bankedSp := Function.update s.bankedSp s.cpsr.mode.bank v }

def setLr (s : Machine) (v : Word) : Machine :=
  { s with bankedLr := Function.update s.bankedLr s.cpsr.mode.bank v }

/-- Go on to the next instruction. -/
def next (s : Machine) : Machine := { s with pc := s.pc + 4 }

/-- `CPSR.A`, and the bits an exception clears: `J`, `IT`, `E` and `T`. -/
def abortMask : Word := 0x100
def exceptionClear : Word := 0x0700FE20

/-- The machine accepts an IRQ before the instruction at `pc`; the vector leads to `irq`. -/
def takeIrq (s : Machine) (irq : Word) : Machine :=
  { s with
    bankedLr := Function.update s.bankedLr .irq (s.pc + 4)
    spsr := Function.update s.spsr .irq s.cpsr
    cpsr := ⟨.irq, true, (s.cpsr.rest &&& ~~~ exceptionClear) ||| abortMask⟩
    pc := irq }

end Machine

/-! ## Blocks of words on a stack -/

/-- Store words at ascending addresses from `a`. -/
def storeWords (m : Mem) (a : Word) : List Word → Mem
  | [] => m
  | w :: ws => storeWords (m.write a w) (a + 4) ws

/-- The `n` words from `a` on. -/
def loadWords (m : Mem) (a : Word) : ℕ → List Word
  | 0 => []
  | n + 1 => m a :: loadWords m (a + 4) n

/-- Load registers from a list of words. -/
def setRegs (r : Fin 13 → Word) (rs : List (Fin 13)) (ws : List Word) : Fin 13 → Word :=
  (rs.zip ws).foldl (fun r x => Function.update r x.1 x.2) r

/-! ## Instructions -/

/-- The instructions of the handlers. -/
inductive Instr where
  /-- `sub lr, lr, #imm` -/
  | subLr (imm : Word)
  /-- `stmfd sp!, {rs, lr}` -/
  | stmfd (rs : List (Fin 13))
  /-- `bl` to a C function -/
  | bl
  /-- `cpsie i` -/
  | cpsieI
  /-- `ldmfd sp!, {rs, pc}^` -/
  | ldmfdPc (rs : List (Fin 13))

/-- The size in bytes of a frame of the registers `rs` and one more. -/
def frameSize (rs : List (Fin 13)) : Word := .ofNat 32 (4 * (rs.length + 1))

namespace Machine

/-- One instruction; of `bl`, the jump alone, with `pc` left for the function to set. -/
def exec (s : Machine) : Instr → Machine
  | .subLr imm => (s.setLr (s.lr - imm)).next
  | .stmfd rs =>
      let sp := s.sp - frameSize rs
      { s.setSp sp with mem := storeWords s.mem sp (rs.map s.r ++ [s.lr]) }.next
  | .bl => s.setLr (s.pc + 4)
  | .cpsieI => { s with cpsr := { s.cpsr with irqMasked := false } }.next
  | .ldmfdPc rs =>
      let ws := loadWords s.mem s.sp (rs.length + 1)
      { s.setSp (s.sp + frameSize rs) with
        r := setRegs s.r rs ws
        pc := ws.getLastD 0
        cpsr := s.spsr s.cpsr.mode }

/-- What the caller of a C function may rely on, from the entry `s` to the return `s'` of the
function: control returns, the callee-saved registers, the stack pointers and the caller's
frame of `n` words are as before, and so is what belongs to the mode and to other modes. -/
structure Returns (n : ℕ) (s s' : Machine) : Prop where
  pc : s'.pc = s.lr
  mode : s'.cpsr.mode = s.cpsr.mode
  saved : ∀ k : Fin 13, 4 ≤ k.val → k.val ≤ 11 → s'.r k = s.r k
  sp : s'.bankedSp = s.bankedSp
  lr_usr : s'.bankedLr .usr = s.bankedLr .usr
  lr_svc : s'.bankedLr .svc = s.bankedLr .svc
  spsr : s'.spsr s.cpsr.mode = s.spsr s.cpsr.mode
  frame : loadWords s'.mem s.sp n = loadWords s.mem s.sp n

end Machine

end Arm

end Rpi2Baremetal
