import Rpi2Baremetal.Framework.Loop
import Rpi2Baremetal.Model.Irq

/-!
# Data aborts and the accessors they may hit (`boot.s`, `experiment.c`)

The code of `boot.s` that an aborted access can come to: `_dabort`, and `read32`, `write32` and
`_inc_cores`, which follow each other in the image.  An instruction is found by its address,
since where execution goes on after an abort is a matter of addresses.  The stack of `_dabort` is
mapped; `data_abort_vector` is a function on the machine.
-/

namespace Rpi2Baremetal

open Framework

namespace Arm

/-- The accesses that fault, and the value of `DFSR` for an address and a direction. -/
structure Faults where
  read : Word → Bool
  write : Word → Bool
  status : Word → Bool → Word

/-- The instructions of the accessors and of `_dabort`. -/
inductive ProbeInstr where
  | instr (i : Instr)
  /-- `mrc p15,0,rt,c6,c0,0` -/
  | mrcDfar (rt : Fin 13)
  /-- `mrc p15,0,rt,c5,c0,0` -/
  | mrcDfsr (rt : Fin 13)
  | ldr (rt rn : Fin 13)
  | str (rt rn : Fin 13)
  | ldrex (rt rn : Fin 13)
  | strexeq (rd rt rn : Fin 13)
  | mov (rd : Fin 13) (imm : Word)
  | add (rd : Fin 13) (imm : Word)
  | cmp (rn : Fin 13) (imm : Word)
  | cmpeq (rn : Fin 13) (imm : Word)
  /-- `bne`, to this address -/
  | bne (target : Word)
  | bxLr

/-- `_dabort`. -/
def dabort : List ProbeInstr :=
  [.instr (.subLr (-4)),
   .instr (.stmfd allRegs),
   .mrcDfar 0,
   .mrcDfsr 1,
   .instr .bl,
   .instr .cpsieI,
   .instr (.ldmfdPc allRegs)]

def dabortBase : Word := 0x8198

/-- `read32`, `write32` and `_inc_cores`. -/
def accessors : List ProbeInstr :=
  [.ldr 0 0,
   .bxLr,
   -- 0x82C4, `write32`
   .str 1 0,
   .bxLr,
   -- 0x82CC, `_inc_cores`
   .mov 3 1,
   -- 0x82D0, `_try`
   .ldrex 2 0,
   .cmp 2 0,
   .strexeq 2 3 0,
   .cmpeq 2 0,
   .bne 0x82D0,
   .ldr 4 1,
   .add 4 1,
   .str 4 1,
   .mov 3 0,
   -- 0x82F4, `_rel`
   .ldrex 2 0,
   .cmp 2 1,
   .strexeq 2 3 0,
   .cmpeq 2 0,
   .bne 0x82F4,
   .bxLr]

def accessorsBase : Word := 0x82BC

/-- The instruction of `code`, which lies at `base`, at the address `pc`. -/
def codeAt (base : Word) (code : List ProbeInstr) (pc : Word) : Option ProbeInstr :=
  if (pc - base).toNat % 4 = 0 then code[(pc - base).toNat / 4]? else none

def fetch (pc : Word) : Option ProbeInstr :=
  (codeAt dabortBase dabort pc).or (codeAt accessorsBase accessors pc)

/-- The `N`, `Z`, `C` and `V` bits of `a - b`. -/
def nzcv (a b : Word) : Word :=
  (if (a - b).msb then 0x80000000 else 0) ||| (if a = b then 0x40000000 else 0)
    ||| (if b ≤ a then 0x20000000 else 0)
    ||| (if a.msb != b.msb && (a - b).msb != a.msb then 0x10000000 else 0)

structure ProbeCore where
  m : Machine
  dfar : Word
  dfsr : Word
  /-- The local monitor of `ldrex` and `strex`. -/
  exclusive : Bool
  /-- The data aborts taken. -/
  aborts : ℕ
  /-- The addresses of the store instructions executed, in order. -/
  stores : List Word

/-- The machine takes a data abort at the instruction at `pc`. -/
def Machine.takeAbort (s : Machine) : Machine :=
  { s with
    bankedLr := Function.update s.bankedLr .abt (s.pc + 8)
    spsr := Function.update s.spsr .abt s.cpsr
    cpsr := ⟨.abt, true,
      (s.cpsr.rest &&& ~~~ Machine.exceptionClear) ||| Machine.abortMask⟩
    pc := dabortBase }

namespace ProbeCore

/-- The condition `eq`. -/
def eq (s : ProbeCore) : Bool := s.m.cpsr.rest.getLsbD 30

def next (s : ProbeCore) : ProbeCore := { s with m := s.m.next }

def setReg (s : ProbeCore) (rd : Fin 13) (v : Word) : ProbeCore :=
  { s with m := { s.m with r := Function.update s.m.r rd v } }

def setFlags (s : ProbeCore) (a b : Word) : ProbeCore :=
  { s with m := { s.m with
    cpsr := { s.m.cpsr with rest := (s.m.cpsr.rest &&& 0x0FFFFFFF) ||| nzcv a b } } }

def store (s : ProbeCore) (a v : Word) : ProbeCore :=
  { s with m := { s.m with mem := s.m.mem.write a v } }

def logStore (s : ProbeCore) : ProbeCore := { s with stores := s.stores ++ [s.m.pc] }

def abort (s : ProbeCore) (F : Faults) (a : Word) (write : Bool) : ProbeCore :=
  { s with m := s.m.takeAbort, dfar := a, dfsr := F.status a write, aborts := s.aborts + 1 }

/-- A load from `a`: it aborts, or `k` goes on. -/
def read (s : ProbeCore) (F : Faults) (a : Word) (k : ProbeCore → ProbeCore) : ProbeCore :=
  if F.read a then s.abort F a false else k s

/-- A store to `a`: it aborts, or `k` goes on. -/
def write (s : ProbeCore) (F : Faults) (a : Word) (k : ProbeCore → ProbeCore) : ProbeCore :=
  if F.write a then s.logStore.abort F a true else k s.logStore

/-- The store of `strex`, with its result in `rd`. -/
def strex (s : ProbeCore) (rd : Fin 13) (a v : Word) : ProbeCore :=
  if s.exclusive then { (s.store a v).setReg rd 0 with exclusive := false }
  else s.setReg rd 1

/-- An instruction other than `bx lr`; `vector` takes the machine from the entry of
`data_abort_vector` to its return. -/
def exec (F : Faults) (vector : Machine → Machine) (s : ProbeCore) : ProbeInstr → ProbeCore
  | .instr .bl => { s with m := vector (s.m.exec .bl) }
  | .instr (.stmfd rs) => { s.logStore with m := s.m.exec (.stmfd rs) }
  | .instr i => { s with m := s.m.exec i }
  | .mrcDfar rt => (s.setReg rt s.dfar).next
  | .mrcDfsr rt => (s.setReg rt s.dfsr).next
  | .ldr rt rn => s.read F (s.m.r rn) fun s => (s.setReg rt (s.m.mem (s.m.r rn))).next
  | .str rt rn => s.write F (s.m.r rn) fun s => (s.store (s.m.r rn) (s.m.r rt)).next
  | .ldrex rt rn => s.read F (s.m.r rn) fun s =>
      { (s.setReg rt (s.m.mem (s.m.r rn))).next with exclusive := true }
  | .strexeq rd rt rn =>
      if s.eq then
        s.write F (s.m.r rn) fun s => (s.strex rd (s.m.r rn) (s.m.r rt)).next
      else s.next
  | .mov rd imm => (s.setReg rd imm).next
  | .add rd imm => (s.setReg rd (s.m.r rd + imm)).next
  | .cmp rn imm => (s.setFlags (s.m.r rn) imm).next
  | .cmpeq rn imm => if s.eq then (s.setFlags (s.m.r rn) imm).next else s.next
  | .bne target =>
      if s.eq then s.next else { s with m := { s.m with pc := target } }
  | .bxLr => { s with m := { s.m with pc := s.m.lr } }

end ProbeCore

/-- One instruction.  The accessors leave at `bx lr`; it leaves with `none` where there is no
code. -/
def probePass (F : Faults) (vector : Machine → Machine) (s : ProbeCore) :
    Pass ProbeCore (Option ProbeCore) :=
  match fetch s.m.pc with
  | none => .leave none
  | some .bxLr => .leave (some (s.exec F vector .bxLr))
  | some i => .again (s.exec F vector i)

/-! ## Calls of the accessors -/

inductive Accessor where
  | read32
  | write32
  deriving DecidableEq

def Accessor.entry : Accessor → Word
  | .read32 => 0x82BC
  | .write32 => 0x82C4

def Accessor.faults (F : Faults) : Accessor → Word → Bool
  | .read32 => F.read
  | .write32 => F.write

/-- `read32(a)` or `write32(a, v)` has just been called in SVC mode. -/
structure Called (acc : Accessor) (a v : Word) (s : ProbeCore) : Prop where
  pc : s.m.pc = acc.entry
  r0 : s.m.r 0 = a
  r1 : acc = .write32 → s.m.r 1 = v
  mode : s.m.cpsr.mode = .svc
  aborts : s.aborts = 0
  stores : s.stores = []

/-- `data_abort_vector` obeys the procedure-call standard and, at its return, has changed no
memory but its stack. -/
def VectorObeys (stack : Word → Prop) (vector : Machine → Machine) : Prop :=
  ∀ s, s.cpsr.mode = .abt →
    s.Returns 14 (vector s) ∧ ∀ b, ¬ stack b → (vector s).mem b = s.mem b

/-- The frame of `_dabort` lies on the abort stack. -/
def FrameOn (stack : Word → Prop) (s : Machine) : Prop :=
  ∀ k < 14, stack (s.bankedSp .abt - frameSize allRegs + .ofNat 32 (4 * k))

/-- What a C function keeps for its caller. -/
structure Machine.Keeps (s s' : Machine) : Prop where
  mode : s'.cpsr.mode = s.cpsr.mode
  sp : s'.bankedSp = s.bankedSp
  saved : ∀ k : Fin 13, 4 ≤ k.val → k.val ≤ 11 → s'.r k = s.r k

/-- An address among the `n` instructions from `base` on. -/
def InCode (base : Word) (n : ℕ) (pc : Word) : Prop := ∃ k < n, pc = base + .ofNat 32 (4 * k)

/-- The accessor called in `s` has returned in `s'` after one abort, with no other change than to
the abort stack, and no other store instruction has been executed than its own and those of
`_dabort`. -/
structure Skipped (stack : Word → Prop) (acc : Accessor) (s s' : ProbeCore) : Prop where
  pc : s'.m.pc = s.m.lr
  aborts : s'.aborts = 1
  keeps : s.m.Keeps s'.m
  mem : ∀ b, ¬ stack b → s'.m.mem b = s.m.mem b
  stores : ∀ pc ∈ s'.stores, InCode acc.entry 2 pc ∨ InCode dabortBase 7 pc

/-! ## The probes of `experiment.c` -/

/-- The printing functions. -/
structure Prints where
  hexstring : Word → Machine → Machine
  uartPuts : String → Machine → Machine

/-- The printing functions obey the procedure-call standard. -/
structure PrintsObey (P : Prints) : Prop where
  hexstring : ∀ d (s : Machine), s.cpsr.mode = .svc → s.Keeps (P.hexstring d s)
  uartPuts : ∀ str (s : Machine), s.cpsr.mode = .svc → s.Keeps (P.uartPuts str s)

def ProbeCore.call (f : Machine → Machine) (s : ProbeCore) : ProbeCore := { s with m := f s.m }

/-- `bl read32` in `check_address`. -/
def callRead32 (address : Word) (s : Machine) : Machine :=
  { s.setLr 0x84D4 with
    r := Function.update s.r 0 address
    pc := Accessor.read32.entry }

/-- `check_address(address)`, from `s` to `s'`. -/
def CheckAddress (F : Faults) (vector : Machine → Machine) (P : Prints) (address : Word)
    (s s' : ProbeCore) : Prop :=
  ∃ r, Loop.Returns (probePass F vector)
      (((s.call (P.hexstring address)).call (P.uartPuts ": ")).call (callRead32 address)) (some r) ∧
    s' = (r.call (P.hexstring (r.m.r 0))).call (P.uartPuts "\n")

/-- The loop of `output_access_policy` from `i` on, with the addresses it has checked. -/
inductive OutputAccessPolicy (F : Faults) (vector : Machine → Machine) (P : Prints) :
    Word → ProbeCore → List Word → ProbeCore → Prop
  | done {i : Word} {s : ProbeCore} : ¬ i < 0x43000000 → OutputAccessPolicy F vector P i s [] s
  | check {i : Word} {s s' t : ProbeCore} {out : List Word} : i < 0x43000000 →
      CheckAddress F vector P i s s' →
      OutputAccessPolicy F vector P (i + 0x00100000) s' out t →
      OutputAccessPolicy F vector P i s (i :: out) t

end Arm

end Rpi2Baremetal
