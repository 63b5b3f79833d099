import Rpi2Baremetal.Framework.CallStack
import Rpi2Baremetal.Model.Interrupt
import Rpi2Baremetal.Model.Sysinfo

/-!
# Code that prints and takes locks

The functions of `cpu.c`, `uart.c`, `experiment.c` and `interrupt.c` on one core, as commands
on a call stack.  A call is replaced by the body of the function; the primitive commands are
`_spin_req`, `_spin_rel` and the accesses to devices and to the waking-core counter.  The
state says which lock words this core holds; no other core holds any.

The interrupt path is here for the locks it takes and the characters it sends.  The dispatch
without its messages is `interruptHandler` of `Model/Interrupt.lean`, which has the effects on the
interrupt controller; `interruptHandler_actions` of `Properties/InterruptLocking.lean` connects
the two.
-/

namespace Rpi2Baremetal

open Framework Interrupt

namespace Console

abbrev Byte := BitVec 8

/-- A device register written by the interrupt path. -/
inductive DeviceReg where
  | mailbox0Clr (core : Word)
  | irqsDisable (bank : ℕ)
  deriving DecidableEq

/-- What the code reads from its surroundings: the core id, whether the MMU is on, the mini
UART registers at each access, the outcome of a load (the fault status of one that aborts)
and the address of the handler table. -/
structure Env where
  prid : Word
  mmuEnabled : Bool
  muLsr : ℕ → Word
  muIir : ℕ → Word
  muIo : ℕ → Word
  load : Word → Except Word Word
  irqHandlerTable : Word

/-- The state of the core: the lock words it holds, the waking-core counter and the value last
read from it, the bytes written to `MU_IO`, the other device writes, and the number of UART
reads so far. -/
structure State where
  held : LockWord → Bool
  wakingCores : Word
  wakingCoresRead : Word
  output : List Byte
  writes : List (DeviceReg × Word)
  reads : ℕ

inductive Cmd where
  -- boot.s
  | asmSpinReq (lock : LockWord)
  | asmSpinRel (lock : LockWord)
  -- accesses
  | waitTxEmpty
  | waitRxReady
  | writeIo (c : Byte)
  | echoIo
  | addWakingCores
  | readWakingCores
  | write32 (reg : DeviceReg) (value : Word)
  -- cpu.c
  | spinReq (lock : LockWord)
  | spinRel (lock : LockWord)
  | getWakingCores
  | incWakingCores
  -- uart.c
  | uartSend (c : Byte)
  | uartPuts (s : List Byte)
  | hexstring (d : Word)
  | registerValuePuts (str : List Byte) (hex : Word)
  -- experiment.c
  | checkAddress (address : Word)
  | checkAddressesFrom (i : Word)
  | outputAccessPolicy
  -- interrupt.c and multicore.c
  | auxIntHandler
  | dataAbortVector (address status : Word)
  | callIrqHandler (nIrq : ℕ)
  | ipiHandler (nCore : Word) (nIpi : ℕ)
  | interruptHandler (i : IrqInput)

/-- The bytes of a C string before its terminator. -/
def cstr (s : String) : List Byte := s.toList.map fun c => .ofNat 8 c.toNat

def newline : Byte := 0x0A
def carriageReturn : Byte := 0x0D

/-- The character `hexstring` sends for the digit of `d` at bit `rb`. -/
def hexDigit (d : Word) (rb : ℕ) : Byte :=
  let rc := (d >>> rb) &&& 0xF
  (if rc > 9 then rc + 0x37 else rc + 0x30).setWidth 8

/-- The characters of the loop of `hexstring`, `rb` from 28 down to 0. -/
def hexDigits (d : Word) : List Byte := [28, 24, 20, 16, 12, 8, 4, 0].map (hexDigit d)

/-- `m_ap_irq_handler` after `init_irq_handler`. -/
def mApIrqHandler (nIrq : ℕ) : Option Cmd := if nIrq = 0x1d then some .auxIntHandler else none

/-- `call_irq_handler` returns `TRUE`. -/
def handled (nIrq : ℕ) : Bool := (mApIrqHandler nIrq).isSome

/-- The description `data_abort_vector` prints for a fault status. -/
def faultText (fs : Word) : List Cmd :=
  let text : Option String :=
    if fs = 0x1 then some " ::alignment fault"
    else if fs = 0x4 then some " ::instruction cache maitenance fault"
    else if fs = 0xC then some " ::translation table walk sync external abort L1"
    else if fs = 0xE then some " ::translation table walk sync external abort L2"
    else if fs = 0x40C then some " ::translation table walk sync pality error L1"
    else if fs = 0x40E then some " ::translation table walk sync pality error L2"
    else if fs = 0x5 then some " ::translation fault(MMU Fault) in section"
    else if fs = 0x7 then some " ::translation fault(MMU Fault) in page"
    else if fs = 0x3 then some " ::access flag fault(MMU Fault) in section"
    else if fs = 0x6 then some " ::access flag fault(MMU Fault) in page"
    else if fs = 0x9 then some " ::domain fault(MMU Fault) in section"
    else if fs = 0xB then some " ::domain fault(MMU Fault) in page"
    else if fs = 0xD then some " ::access policy fault(MMU Fault) in section"
    else if fs = 0xF then some " ::access policy fault(MMU Fault) in page"
    else none
  text.toList.map fun s => .uartPuts (cstr s)

/-- `read32` of an address that may abort: what the abort handler does, and the value left in
`r0`, which an abort leaves as it was. -/
def read32 (env : Env) (address : Word) : List Cmd × Word :=
  match env.load address with
  | .ok value => ([], value)
  | .error status => ([.dataAbortVector address status], address)

/-- The body of a function, and nothing for the primitive commands. -/
def Cmd.body (env : Env) : Cmd → List Cmd
  | .spinReq lock =>
      .asmSpinReq lock ::
        if env.prid ≠ 0 then [.registerValuePuts (cstr "get lock from: ") env.prid] else []
  | .spinRel lock =>
      .asmSpinRel lock ::
        if env.prid ≠ 0 then [.registerValuePuts (cstr "release lock from: ") env.prid] else []
  | .getWakingCores => [.spinReq .sysCommonLock, .readWakingCores, .spinRel .sysCommonLock]
  | .incWakingCores => [.spinReq .sysCommonLock, .addWakingCores, .spinRel .sysCommonLock]
  | .uartSend c =>
      .waitTxEmpty ::
        if c = newline ∨ c = carriageReturn then
          [.writeIo newline, .waitTxEmpty, .writeIo carriageReturn]
        else [.writeIo c]
  | .uartPuts s =>
      if env.mmuEnabled then
        .spinReq .uartLock :: s.map .uartSend ++ [.spinRel .uartLock]
      else s.map .uartSend
  | .hexstring d =>
      if env.mmuEnabled then
        .spinReq .uartLock :: (hexDigits d).map .uartSend ++ [.uartSend 0x20, .spinRel .uartLock]
      else (hexDigits d).map .uartSend ++ [.uartSend 0x20]
  | .registerValuePuts str hex => [.uartPuts str, .hexstring hex, .uartSend newline]
  | .checkAddress address =>
      let (abort, value) := read32 env address
      [.hexstring address, .uartPuts (cstr ": ")] ++ abort
        ++ [.hexstring value, .uartPuts (cstr "\n")]
  | .checkAddressesFrom i =>
      if i < 0x43000000 then [.checkAddress i, .checkAddressesFrom (i + 0x00100000)] else []
  | .outputAccessPolicy =>
      let rule := cstr "========================================================\n"
      [.spinReq .expLock, .uartPuts rule, .registerValuePuts (cstr "CPUID: ") env.prid,
        .checkAddressesFrom 0, .uartPuts rule, .spinRel .expLock]
  | .dataAbortVector address status =>
      [.hexstring address, .uartPuts (cstr ": ABORT caused by")]
        ++ (if status &&& 0x1000 ≠ 0 then [.uartPuts (cstr " ::external abort")] else [])
        ++ [.uartPuts (cstr (if status &&& 0x8000 ≠ 0 then " ::write access"
            else " ::read access"))]
        ++ faultText (status &&& 0x40F) ++ [.uartPuts (cstr "\n")]
  | .callIrqHandler nIrq =>
      match mApIrqHandler nIrq with
      | some handler => [handler]
      | none =>
          [.uartPuts (cstr "In call_irq_handler\n"),
            .registerValuePuts (cstr "n_irq: ") (.ofNat 32 nIrq),
            .registerValuePuts (cstr "m_ap_irq_handler: ") env.irqHandlerTable,
            .write32 (.irqsDisable (nIrq / 32)) (1 <<< (nIrq % 32))]
  | .ipiHandler _ nIpi =>
      if nIpi = 0x1 then [.registerValuePuts (cstr "Hello from CPU core ") env.prid]
      else if nIpi = 0x2 then [.outputAccessPolicy]
      else []
  | .interruptHandler i =>
      match localIpi i with
      | some nIpi =>
          [.write32 (.mailbox0Clr env.prid) (1 <<< nIpi), .ipiHandler env.prid nIpi]
      | none => (calledLines handled i).map .callIrqHandler
  | _ => []

/-- Executing one command. -/
def exec (env : Env) (c : Cmd) (s : State) : Effect Cmd State :=
  match c with
  | .asmSpinReq lock =>
      if s.held lock then .wait s
      else .call [] { s with held := Function.update s.held lock true }
  | .asmSpinRel lock =>
      if s.held lock then .call [] { s with held := Function.update s.held lock false }
      else .wait s
  | .waitTxEmpty =>
      let s' := { s with reads := s.reads + 1 }
      if env.muLsr s.reads &&& 0x20 ≠ 0 then .call [] s' else .wait s'
  | .waitRxReady =>
      let s' := { s with reads := s.reads + 1 }
      if env.muLsr s.reads &&& 0x1 ≠ 0 then .call [] s' else .wait s'
  | .writeIo c => .call [] { s with output := s.output ++ [c] }
  | .echoIo => .call [.uartSend ((env.muIo s.reads).setWidth 8)] { s with reads := s.reads + 1 }
  | .addWakingCores => .call [] { s with wakingCores := s.wakingCores + 1 }
  | .readWakingCores => .call [] { s with wakingCoresRead := s.wakingCores }
  | .write32 reg value => .call [] { s with writes := s.writes ++ [(reg, value)] }
  | .auxIntHandler =>
      let s' := { s with reads := s.reads + 1 }
      let rb := env.muIir s.reads
      if rb &&& 1 = 1 then .call [] s'
      else if rb &&& 6 = 4 then .call [.waitRxReady, .echoIo, .auxIntHandler] s'
      else .wait s'
  | c => .call (c.body env) s

/-- `_spin_req` is executed on a lock word of `held`. -/
def RequestsHeld (held : LockWord → Bool) (c : Cmd) : Prop :=
  ∃ lock, c = .asmSpinReq lock ∧ held lock

end Console

end Rpi2Baremetal
