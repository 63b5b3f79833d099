import Rpi2Baremetal.Model.Arm

/-!
# Supervisor calls (`boot.s`, `cpu.c`)

The acceptance of `svc`, the instructions of `_svc_handler`, and `get_prid` as it is compiled.
`software_interrupt_handler` is a function on the machine, of which the procedure-call standard
and the value it returns are known.
-/

namespace Rpi2Baremetal

open Framework

namespace Arm

/-- The machine executes the `svc` at `pc`; the vector leads to `entry`. -/
def Machine.takeSvc (s : Machine) (entry : Word) : Machine :=
  { s with
    bankedLr := Function.update s.bankedLr .svc (s.pc + 4)
    spsr := Function.update s.spsr .svc s.cpsr
    cpsr := ⟨.svc, true, s.cpsr.rest &&& ~~~ Machine.exceptionClear⟩
    pc := entry }

/-- The instructions of `_svc_handler` and of `get_prid` after its `svc`. -/
inductive SvcInstr where
  | instr (i : Instr)
  /-- `ldr r0, [lr, #-4]` -/
  | ldrR0Lr
  /-- `bic r0, r0, #imm` -/
  | bicR0 (imm : Word)
  /-- `and r0, r0, #imm` -/
  | andR0 (imm : Word)
  | bxLr

namespace Machine

def setR0 (s : Machine) (v : Word) : Machine := { s with r := Function.update s.r 0 v }

/-- One instruction; `handler` takes the machine from the entry of `software_interrupt_handler`
to its return. -/
def execSvc (handler : Machine → Machine) (s : Machine) : SvcInstr → Machine
  | .instr .bl => handler (s.exec .bl)
  | .instr i => s.exec i
  | .ldrR0Lr => (s.setR0 (s.mem (s.lr - 4))).next
  | .bicR0 imm => (s.setR0 (s.r 0 &&& ~~~ imm)).next
  | .andR0 imm => (s.setR0 (s.r 0 &&& imm)).next
  | .bxLr => { s with pc := s.lr }

end Machine

/-- `r1` to `r12`. -/
def svcRegs : List (Fin 13) := [1, 2, 3, 4, 5, 6, 7, 8, 9, 10, 11, 12]

/-- `_svc_handler`. -/
def svcHandler : List SvcInstr :=
  [.instr (.stmfd svcRegs),
   .ldrR0Lr,
   .bicR0 0xFF000000,
   .instr .bl,
   .instr (.ldmfdPc svcRegs)]

/-- An `svc`, up to the exception return. -/
def Machine.svc (entry : Word) (handler : Machine → Machine) (s : Machine) : Machine :=
  svcHandler.foldl (Machine.execSvc handler) (s.takeSvc entry)

/-- `get_prid`: `svc #10`, `and r0, r0, #3`, `bx lr`. -/
def Machine.getPrid (entry : Word) (handler : Machine → Machine) (s : Machine) : Machine :=
  [.andR0 3, .bxLr].foldl (Machine.execSvc handler) (s.svc entry handler)

/-- `_get_prid` -/
def asmGetPrid (mpidr : Word) : Word := mpidr &&& 0x3

/-- The value of `software_interrupt_handler`, which prints the number `no` of the call. -/
def softwareInterruptHandler (mpidr _no : Word) : Word := asmGetPrid mpidr

/-- What a caller in SVC mode may rely on: all that `Returns` says but for its link register,
which the function may overwrite. -/
def Machine.ReturnsSvc (n : ℕ) (s s' : Machine) : Prop :=
  s.Returns n { s' with bankedLr := Function.update s'.bankedLr .svc (s.bankedLr .svc) }

/-- `software_interrupt_handler` obeys the procedure-call standard and returns `result no`. -/
def SvcHandlerObeys (result : Word → Word) (handler : Machine → Machine) : Prop :=
  ∀ s, s.cpsr.mode = .svc →
    s.ReturnsSvc 13 (handler s) ∧ (handler s).r 0 = result (s.r 0)

/-- The number `_svc_handler` takes from the `svc` at `pc`, with its frame already on the
stack. -/
def Machine.svcNumber (s : Machine) : Word :=
  storeWords s.mem (s.bankedSp .svc - frameSize svcRegs) (svcRegs.map s.r ++ [s.pc + 4]) s.pc
    &&& ~~~ 0xFF000000

/-- `t` goes on after the `svc` of `s` as if it had only set `r0`. -/
structure RoundTrip (s t : Machine) (result : Word) : Prop where
  pc : t.pc = s.pc + 4
  cpsr : t.cpsr = s.cpsr
  r0 : t.r 0 = result
  r : ∀ k, k ≠ 0 → t.r k = s.r k
  sp : t.sp = s.sp
  lr : t.lr = s.lr

/-- `get_prid`, called in `s`, has returned to its caller in `t` with the number of the core. -/
structure PridReturned (mpidr : Word) (s t : Machine) : Prop where
  pc : t.pc = s.lr
  cpsr : t.cpsr = s.cpsr
  r0 : t.r 0 = asmGetPrid mpidr
  r : ∀ k, k ≠ 0 → t.r k = s.r k
  sp : t.sp = s.sp

end Arm

end Rpi2Baremetal
