import Rpi2Baremetal.Framework.Threads
import Rpi2Baremetal.Model.Arm
import Rpi2Baremetal.Model.Sysinfo

/-!
# From reset to C (`boot.s`)

The code of the image from `_start` to `_inf_loop`: the vectors, `_reset_` and
`_secondary_start`, as instructions at their addresses.  A core of this file has the whole
current status register, since the code changes the mode and may come out of hypervisor mode;
`sp`, `lr` and the saved status register of a mode are found by its number in `CPSR`.

The registers `r8` to `r12` of FIQ mode are left out, no instruction uses them in that mode.
-/

namespace Rpi2Baremetal

open Framework

namespace Reset

/-! ## Constants -/

def PSR_USR : Word := 0x10
def PSR_FIQ : Word := 0x11
def PSR_IRQ : Word := 0x12
def PSR_SVC : Word := 0x13
def PSR_MON : Word := 0x16
def PSR_ABT : Word := 0x17
def PSR_HYP : Word := 0x1A
def PSR_UND : Word := 0x1B
def PSR_SYS : Word := 0x1F
def PSR_I : Word := 0x80
def PSR_F : Word := 0x40
def STACK_BASE_ADDR : Word := 0x00100000
def STACK_SIZE : Word := 0x00040000

/-- The mode field, and what else `msr cpsr_c` writes: the `I` and `F` bits. -/
def modeMask : Word := 0x1F
def controlMask : Word := 0xDF

/-- What `mrs` reads of `CPSR`, and what `eret` and `msr spsr_cxsf` write. -/
def readMask : Word := 0xF8FF03DF
def fieldsMask : Word := 0xFF0FFFFF

/-! ## The core -/

structure Core where
  /-- `r0` to `r12`. -/
  r : Fin 13 → Word
  /-- By the number of the mode. -/
  bankedSp : Word → Word
  bankedLr : Word → Word
  spsr : Word → Word
  cpsr : Word
  elrHyp : Word
  /-- The multiprocessor affinity register. -/
  mpidr : Word
  pc : Word

namespace Core

def mode (s : Core) : Word := s.cpsr &&& modeMask

/-- System mode has the `sp` of user mode. -/
def spBank (s : Core) : Word := if s.mode = PSR_SYS then PSR_USR else s.mode

/-- System and hypervisor mode have the `lr` of user mode. -/
def lrBank (s : Core) : Word := if s.mode = PSR_SYS ∨ s.mode = PSR_HYP then PSR_USR else s.mode

def next (s : Core) : Core := { s with pc := s.pc + 4 }

def setReg (s : Core) (rd : Fin 13) (v : Word) : Core :=
  { s with r := Function.update s.r rd v }

def setSp (s : Core) (v : Word) : Core :=
  { s with bankedSp := Function.update s.bankedSp s.spBank v }

def setLr (s : Core) (v : Word) : Core :=
  { s with bankedLr := Function.update s.bankedLr s.lrBank v }

/-- The `N` and `Z` flags of a result. -/
def setNz (s : Core) (v : Word) : Core :=
  { s with cpsr := (s.cpsr &&& 0x3FFFFFFF) ||| (if v.msb then 0x80000000 else 0)
    ||| if v = 0 then 0x40000000 else 0 }

/-- The condition `ne`. -/
def ne (s : Core) : Bool := !s.cpsr.getLsbD 30

end Core

/-! ## Instructions -/

inductive Instr where
  /-- `ldr pc, [pc, #imm]` -/
  | ldrPc (imm : Word)
  | mrsCpsr (rd : Fin 13)
  | mov (rd : Fin 13) (imm : Word)
  | eor (rd rn : Fin 13) (imm : Word)
  | bic (rd rn : Fin 13) (imm : Word)
  | orr (rd rn : Fin 13) (imm : Word)
  | and (rd rn : Fin 13) (imm : Word)
  | ands (rd rn : Fin 13) (imm : Word)
  | tst (rn : Fin 13) (imm : Word)
  | add (rd rn : Fin 13) (imm : Word)
  | addReg (rd rn rm : Fin 13)
  | sub (rd rn : Fin 13) (imm : Word)
  | mul (rd rm rs : Fin 13)
  | movSp (rn : Fin 13)
  /-- `adr lr`, which is `add lr, pc, #imm` -/
  | adrLr (imm : Word)
  | msrSpsr (rn : Fin 13)
  /-- `msr elr_hyp, lr` -/
  | msrElrHyp
  | eret
  | msrCpsrC (rn : Fin 13)
  | nop
  /-- `mrc p15,0,rd,c0,c0,5` -/
  | mrcMpidr (rd : Fin 13)
  | ldmia (rn : Fin 13) (rs : List (Fin 13))
  | stmia (rn : Fin 13) (rs : List (Fin 13))
  | bne (target : Word)
  | b (target : Word)
  | bl (target : Word)

/-- The addresses of `n` words from `a` on. -/
def wordsFrom (a : Word) : ℕ → List Word
  | 0 => []
  | n + 1 => a :: wordsFrom (a + 4) n

/-- The size in bytes of a block of these registers. -/
def blockSize (rs : List (Fin 13)) : Word := .ofNat 32 (4 * rs.length)

namespace Core

/-- One instruction; none where the architecture does not say what it does in this mode. -/
def exec (m : Mem) (s : Core) : Instr → Option Core
  | .ldrPc imm =>
      let w := m (s.pc + 8 + imm)
      if w &&& 3 = 0 then some { s with pc := w } else none
  | .mrsCpsr rd => some (s.setReg rd (s.cpsr &&& readMask)).next
  | .mov rd imm => some (s.setReg rd imm).next
  | .eor rd rn imm => some (s.setReg rd (s.r rn ^^^ imm)).next
  | .bic rd rn imm => some (s.setReg rd (s.r rn &&& ~~~ imm)).next
  | .orr rd rn imm => some (s.setReg rd (s.r rn ||| imm)).next
  | .and rd rn imm => some (s.setReg rd (s.r rn &&& imm)).next
  | .ands rd rn imm => some ((s.setReg rd (s.r rn &&& imm)).setNz (s.r rn &&& imm)).next
  | .tst rn imm => some (s.setNz (s.r rn &&& imm)).next
  | .add rd rn imm => some (s.setReg rd (s.r rn + imm)).next
  | .addReg rd rn rm => some (s.setReg rd (s.r rn + s.r rm)).next
  | .sub rd rn imm => some (s.setReg rd (s.r rn - imm)).next
  | .mul rd rm rs => some (s.setReg rd (s.r rm * s.r rs)).next
  | .movSp rn => some (s.setSp (s.r rn)).next
  | .adrLr imm => some (s.setLr (s.pc + 8 + imm)).next
  | .msrSpsr rn =>
      if s.mode = PSR_USR ∨ s.mode = PSR_SYS then none
      else
        let v := (s.spsr s.mode &&& ~~~ fieldsMask) ||| (s.r rn &&& fieldsMask)
        some { s with spsr := Function.update s.spsr s.mode v }.next
  | .msrElrHyp =>
      if s.mode = PSR_HYP then some { s with elrHyp := s.bankedLr s.lrBank }.next else none
  | .eret =>
      if s.mode = PSR_USR ∨ s.mode = PSR_SYS then none
      else some { s with
        cpsr := (s.cpsr &&& ~~~ fieldsMask) ||| (s.spsr s.mode &&& fieldsMask)
        pc := if s.mode = PSR_HYP then s.elrHyp else s.bankedLr s.lrBank }
  | .msrCpsrC rn =>
      if s.mode = PSR_USR then some s.next
      else if s.mode = PSR_HYP then none
      else some
        { s with cpsr := (s.cpsr &&& ~~~ controlMask) ||| (s.r rn &&& controlMask) }.next
  | .nop => some s.next
  | .mrcMpidr rd => if s.mode = PSR_USR then none else some (s.setReg rd s.mpidr).next
  | .ldmia rn rs =>
      let r := Arm.setRegs s.r rs ((wordsFrom (s.r rn) rs.length).map m)
      some { s with r := Function.update r rn (s.r rn + blockSize rs) }.next
  | .stmia rn rs => some (s.setReg rn (s.r rn + blockSize rs)).next
  | .bne target => some (if s.ne then { s with pc := target } else s.next)
  | .b target => some { s with pc := target }
  | .bl target => some { s.setLr (s.pc + 4) with pc := target }

end Core

/-! ## The image -/

/-- `_start`: the vectors.  The words after them are the addresses they load. -/
def start : List Instr := List.replicate 8 (.ldrPc 24)

/-- The macro `safe_svcmode_maskall`, with the addresses of its labels `1` and `2`; `adr` finds
the second from its own address. -/
def safeSvcmodeMaskall (reg : Fin 13) (one : Word) : List Instr :=
  [.mrsCpsr reg,
   .eor reg reg 0x1A,
   .tst reg 0x1F,
   .bic reg reg 0x1F,
   .orr reg reg 0xD3,
   .bne one,
   .orr reg reg 0x100,
   .adrLr 12,
   .msrSpsr reg,
   .msrElrHyp,
   .eret,
   -- label `1`
   .msrCpsrC reg,
   -- label `2`
   .nop]

def sysInitPrimary : Word := 0x873C
def sysInitSecondary : Word := 0x87C4
def secondaryStartBase : Word := 0x80EC
def mainAddr : Word := 0xB000
def infLoop : Word := 0x8180

/-- `_reset_` after the macro, up to the branch. -/
def primaryTest : List Instr :=
  [.mrcMpidr 0,
   .ands 0 0 0x3,
   .bne secondaryStartBase]

def copyVectors : List Instr :=
  [.mov 0 0x8000,
   .mov 1 0x0000,
   .ldmia 0 [2, 3, 4, 5, 6, 7, 8, 9],
   .stmia 1 [2, 3, 4, 5, 6, 7, 8, 9],
   .ldmia 0 [2, 3, 4, 5, 6, 7, 8, 9],
   .stmia 1 [2, 3, 4, 5, 6, 7, 8, 9]]

/-- The stack pointers from `r1` on. -/
def primaryStacks : List Instr :=
  [.mov 1 STACK_BASE_ADDR,
   .add 1 1 STACK_SIZE,
   -- FIQ
   .mov 0 (PSR_FIQ ||| PSR_I ||| PSR_F),
   .msrCpsrC 0,
   .movSp 1,
   .add 1 1 STACK_SIZE,
   -- IRQ
   .mov 0 (PSR_IRQ ||| PSR_I ||| PSR_F),
   .msrCpsrC 0,
   .movSp 1,
   .add 1 1 STACK_SIZE,
   -- ABT
   .mov 0 (PSR_ABT ||| PSR_I ||| PSR_F),
   .msrCpsrC 0,
   .movSp 1,
   .add 1 1 STACK_SIZE,
   .sub 1 1 0x4,
   -- SVC
   .mov 0 (PSR_SVC ||| PSR_I ||| PSR_F),
   .msrCpsrC 0,
   .movSp 1,
   .bl sysInitPrimary]

/-- `_secondary_start` after the macro. -/
def secondaryStacks : List Instr :=
  [.mrcMpidr 1,
   .and 1 1 0x3,
   .mov 0 STACK_BASE_ADDR,
   .mov 3 STACK_BASE_ADDR,
   .mul 4 1 3,
   .addReg 0 0 4,
   .add 0 0 STACK_SIZE,
   -- FIQ
   .mov 2 (PSR_FIQ ||| PSR_I ||| PSR_F),
   .msrCpsrC 2,
   .movSp 0,
   .add 0 0 STACK_SIZE,
   -- IRQ
   .mov 2 (PSR_IRQ ||| PSR_I ||| PSR_F),
   .msrCpsrC 2,
   .movSp 0,
   .add 0 0 STACK_SIZE,
   -- ABT
   .mov 2 (PSR_ABT ||| PSR_I ||| PSR_F),
   .msrCpsrC 2,
   .movSp 0,
   .add 0 0 STACK_SIZE,
   .sub 0 0 0x4,
   -- SVC
   .mov 2 (PSR_SVC ||| PSR_I ||| PSR_F),
   .msrCpsrC 2,
   .movSp 0,
   .bl sysInitSecondary]

def startBase : Word := 0x8000
def resetBase : Word := 0x8040

/-- `_reset_`, up to the branch of its end. -/
def reset : List Instr :=
  safeSvcmodeMaskall 0 0x806C ++ primaryTest ++ copyVectors ++ primaryStacks ++
    [.bl mainAddr, .b infLoop]

/-- `_secondary_start`. -/
def secondaryStart : List Instr :=
  safeSvcmodeMaskall 0 0x8118 ++ secondaryStacks ++ [.b infLoop]

/-- The instruction of `code`, which lies at `base`, at the address `pc`. -/
def codeAt (base : Word) (code : List Instr) (pc : Word) : Option Instr :=
  if (pc - base).toNat % 4 = 0 then code[(pc - base).toNat / 4]? else none

def fetch (pc : Word) : Option Instr :=
  (codeAt startBase start pc).or
    ((codeAt resetBase reset pc).or (codeAt secondaryStartBase secondaryStart pc))

/-! ## The cores together -/

namespace Core

/-- The words the next instruction loads. -/
def loads (s : Core) : List Word :=
  match fetch s.pc with
  | some (.ldrPc imm) => [s.pc + 8 + imm]
  | some (.ldmia rn rs) => wordsFrom (s.r rn) rs.length
  | _ => []

/-- The words the next instruction stores, with their addresses. -/
def stores (s : Core) : List (Word × Word) :=
  match fetch s.pc with
  | some (.stmia rn rs) => (wordsFrom (s.r rn) rs.length).zip (rs.map s.r)
  | _ => []

/-- Fetch and execute; a core goes no further than to `sys_init_primary` or
`sys_init_secondary`, which are not part of the code here. -/
def fetchExec (s : Core) (m : Mem) : Option Core := (fetch s.pc).bind (s.exec m)

lemma fetchExec_congr (s : Core) (m m' : Mem) (h : ∀ a ∈ s.loads, m a = m' a) :
    s.fetchExec m = s.fetchExec m' := by
  rw [fetchExec, fetchExec]
  rw [loads] at h
  cases hi : fetch s.pc with
  | none => rfl
  | some i =>
      rw [hi] at h
      cases i with
      | ldrPc imm => rw [Option.bind_some, Option.bind_some, exec, exec, h _ List.mem_cons_self]
      | ldmia rn rs =>
          rw [Option.bind_some, Option.bind_some, exec, exec, List.map_congr_left h]
      | _ => rfl

end Core

/-- The code of every core. -/
def code : Thread Core Word Word where
  next := Core.fetchExec
  loads := Core.loads
  stores := Core.stores
  next_congr := Core.fetchExec_congr

/-- The cores and the memory. -/
abbrev Cores := Threads (Fin NUM_CPU) Core Word Word

end Reset

end Rpi2Baremetal
