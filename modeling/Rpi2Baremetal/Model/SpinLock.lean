import Rpi2Baremetal.Model.Word
import Rpi2Baremetal.Framework.Transition

/-!
# The lock routines of `boot.s`, instruction by instruction

`_spin_req` and `_spin_rel` are the lists of instructions of the source, and a core executes
one of them at a time.  Memory is sequentially consistent and every core has one exclusive
monitor: `ldrex` sets it, a successful `strex` of any core clears the monitors of the others,
a `strex` clears the core's own and succeeds exactly when it was set.

All cores work on one lock word, whose address is in `r0` throughout.  `_spin_req` is called
by a core that is in neither routine, `_spin_rel` only after a `_spin_req` of its own that has
returned and has not been released since.
-/

namespace Rpi2Baremetal

namespace Boot

/-- The registers the lock routines write. -/
inductive Reg where
  | r1
  | r2
  deriving DecidableEq

/-- The instructions of the lock routines; memory operands are all `[r0]`. -/
inductive Instr where
  | mov (rd : Reg) (imm : Word)
  | ldrex (rt : Reg)
  | cmp (rn : Reg) (imm : Word)
  | strexeq (rd rt : Reg)
  | cmpeq (rn : Reg) (imm : Word)
  | bne (target : ℕ)
  | dmb
  | dsb
  | bxLr

/-- The lock routines. -/
inductive LockRoutine where
  | spinReq
  | spinRel
  deriving DecidableEq

/-- `_spin_req`; `_lock_try` is the instruction at index 1. -/
def spinReqCode : List Instr :=
  [.mov .r1 1,
   .ldrex .r2,
   .cmp .r2 0,
   .strexeq .r2 .r1,
   .cmpeq .r2 0,
   .bne 1,
   .dsb,
   .bxLr]

/-- `_spin_rel`; `_rel_try` is the instruction at index 1. -/
def spinRelCode : List Instr :=
  [.mov .r1 0,
   .ldrex .r2,
   .cmp .r2 1,
   .dmb,
   .strexeq .r2 .r1,
   .cmpeq .r2 0,
   .bne 1,
   .dsb,
   .bxLr]

@[simp] def LockRoutine.code : LockRoutine → List Instr
  | .spinReq => spinReqCode
  | .spinRel => spinRelCode

/-- A core: the routine it is executing, if any, and the part of its state the routines use.
`stored` and `critical` record the history of the run. -/
structure LockCore where
  routine : Option LockRoutine
  pc : ℕ
  r1 : Word
  r2 : Word
  /-- The `Z` flag. -/
  z : Bool
  monitor : Bool
  /-- The last successful `strex` of this core was that of a `_spin_req`. -/
  stored : Bool
  /-- A `_spin_req` of this core has returned, and no `_spin_rel` has stored since. -/
  critical : Bool

namespace LockCore

@[simp] def reg (c : LockCore) : Reg → Word
  | .r1 => c.r1
  | .r2 => c.r2

@[simp] def setReg (c : LockCore) (v : Word) : Reg → LockCore
  | .r1 => { c with r1 := v }
  | .r2 => { c with r2 := v }

/-- Go on to the next instruction. -/
@[simp] def advance (c : LockCore) : LockCore := { c with pc := c.pc + 1 }

/-- Enter a routine at its first instruction. -/
@[simp] def enter (c : LockCore) (f : LockRoutine) : LockCore :=
  { c with routine := some f, pc := 0 }

/-- The instruction a core executes next. -/
def fetch (c : LockCore) : Option Instr := c.routine.bind fun f => f.code[c.pc]?

/-- The core executes a store next, and the store will succeed. -/
def storing (c : LockCore) : Option Reg :=
  match c.fetch with
  | some (.strexeq _ rt) => if c.z && c.monitor then some rt else none
  | _ => none

/-- The history after a successful store in routine `f`. -/
@[simp] def recordStore (c : LockCore) : Option LockRoutine → LockCore
  | some .spinReq => { c with stored := true }
  | some .spinRel => { c with stored := false, critical := false }
  | none => c

/-- The history after a return from routine `f`. -/
@[simp] def recordReturn (c : LockCore) : Option LockRoutine → LockCore
  | some .spinReq => { c with critical := true }
  | _ => c

/-- One instruction executed on a core, the lock word being `w`. -/
def exec (w : Word) (c : LockCore) : Instr → LockCore
  | .mov rd imm => (c.setReg imm rd).advance
  | .ldrex rt => { c.setReg w rt with monitor := true }.advance
  | .cmp rn imm => { c with z := c.reg rn == imm }.advance
  | .strexeq rd _ =>
      if c.z then
        if c.monitor then
          ({ c.setReg 0 rd with monitor := false }.recordStore c.routine).advance
        else { c.setReg 1 rd with monitor := false }.advance
      else c.advance
  | .cmpeq rn imm => if c.z then { c with z := c.reg rn == imm }.advance else c.advance
  | .bne target => if c.z then c.advance else { c with pc := target }
  | .dmb => c.advance
  | .dsb => c.advance
  | .bxLr => { c.recordReturn c.routine with routine := none }

end LockCore

/-- The lock word and the cores. -/
structure LockState (ι : Type*) where
  word : Word
  core : ι → LockCore

/-- What a core does in one step: call a routine, or execute its next instruction. -/
inductive LockAction where
  | callReq
  | callRel
  | instr

variable {ι : Type*} [DecidableEq ι]

/-- Core `i` in state `c`, every other core as before. -/
def LockState.set (s : LockState ι) (i : ι) (c : LockCore) : LockState ι :=
  { s with core := Function.update s.core i c }

/-- Core `i` stores `v` to the lock word and goes on in state `c`; the store clears the
monitors of the other cores. -/
def LockState.store (s : LockState ι) (i : ι) (v : Word) (c : LockCore) : LockState ι where
  word := v
  core := Function.update (fun j => { s.core j with monitor := false }) i c

/-- One step of core `i`. -/
def lockStep (s : LockState ι) : ι × LockAction → Option (LockState ι)
  | (i, .callReq) =>
      if (s.core i).routine = none then some (s.set i ((s.core i).enter .spinReq)) else none
  | (i, .callRel) =>
      if (s.core i).routine = none ∧ (s.core i).critical then
        some (s.set i ((s.core i).enter .spinRel))
      else none
  | (i, .instr) =>
      (s.core i).fetch.map fun instr =>
        let c := (s.core i).exec s.word instr
        match (s.core i).storing with
        | some rt => s.store i ((s.core i).reg rt) c
        | none => s.set i c

/-- The lock is free and no core has called anything yet; registers, flags and monitors are
arbitrary. -/
structure LockState.Initial (s : LockState ι) : Prop where
  word : s.word = 0
  outside : ∀ i, (s.core i).routine = none
  not_stored : ∀ i, (s.core i).stored = false
  not_critical : ∀ i, (s.core i).critical = false

end Boot

end Rpi2Baremetal
