import Rpi2Baremetal.Framework.AtomicObject
import Rpi2Baremetal.Model.Kernel
import Rpi2Baremetal.Model.SpinLock

/-!
# `SysCommonInfo`, access by access (`cpu.c`, `sysinfo.c`)

The functions that work on `pm`, `prev_pm` and `waking_cores`, on any number of cores.  Each load
and each store of a field is a step, and so is each instruction of the `_spin_req` and `_spin_rel`
of `SYSCommonInfo->lock`; the steps of all cores interleave.

What the functions print is left out.  On the cores other than 0 that includes what `spin_req`
and `spin_rel` print; with the MMU on it does not end there, and such a core makes no further
step.
-/

namespace Rpi2Baremetal

open Framework

namespace SysCommon

open Boot

inductive Field where
  | pm
  | prevPm
  | wakingCores
  deriving DecidableEq

end SysCommon

open SysCommon in
@[simp] def SysCommonInfo.get (c : SysCommonInfo) : Field → Word
  | .pm => c.pm
  | .prevPm => c.prevPm
  | .wakingCores => c.wakingCores

open SysCommon in
@[simp] def SysCommonInfo.set (c : SysCommonInfo) (v : Word) : Field → SysCommonInfo
  | .pm => { c with pm := v }
  | .prevPm => { c with prevPm := v }
  | .wakingCores => { c with wakingCores := v }

namespace SysCommon

open Boot

/-- The calls. -/
inductive Op where
  | incWakingCores
  | getWakingCores
  | changePm (pm : Word)
  | setPm (pm : Word)
  | setPrevPm (pm : Word)
  | getPm
  deriving DecidableEq

/-- An access to a field; a store computes its value from the one loaded last. -/
inductive Access where
  | load (f : Field)
  | store (f : Field) (value : Word → Word)

/-- One access, from the fields and the value loaded last. -/
def Access.run : Access → SysCommonInfo × Word → SysCommonInfo × Word
  | .load f, (c, _) => (c, c.get f)
  | .store f value, (c, reg) => (c.set (value reg) f, reg)

/-- The accesses in order. -/
def runAll (as : List Access) (x : SysCommonInfo × Word) : SysCommonInfo × Word :=
  as.foldl (fun x a => a.run x) x

namespace Op

/-- The accesses of a call, between `spin_req` and `spin_rel` if it locks. -/
def body : Op → List Access
  | .incWakingCores => [.load .wakingCores, .store .wakingCores (· + 1)]
  | .getWakingCores => [.load .wakingCores]
  | .changePm pm => [.load .pm, .store .prevPm id, .store .pm fun _ => pm]
  | .setPm pm => if isValidPm pm then [.store .pm fun _ => pm] else []
  | .setPrevPm pm => if isValidPm pm then [.store .prevPm fun _ => pm] else []
  | .getPm => [.load .pm]

/-- The call takes the lock. -/
def locks : Op → Bool
  | .setPm pm => isValidPm pm
  | .setPrevPm pm => isValidPm pm
  | .getPm => false
  | _ => true

/-- What the call returns, from the value loaded last; 0 for a `void` function. -/
def result : Op → Word → Word
  | .incWakingCores, _ => 0
  | .getWakingCores, reg => reg
  | .changePm _, _ => 1
  | .setPm pm, _ => if isValidPm pm then pm else -1
  | .setPrevPm pm, _ => if isValidPm pm then pm else -1
  | .getPm, reg => reg

end Op

/-! ## The cores -/

/-- Where a core is in a call: in `_spin_req`, before one of the accesses, in `_spin_rel`, or
before its return. -/
inductive Phase where
  | idle
  | requesting (op : Op)
  | accessing (op : Op) (rest : List Access) (reg : Word)
  | releasing (op : Op) (reg : Word)
  | returning (op : Op) (reg : Word)

/-- The lock and the cores as the lock routines see them, the fields, and the calls. -/
structure State (ι : Type*) where
  lock : LockState ι
  common : SysCommonInfo
  phase : ι → Phase

/-- A core calls a function, or goes on. -/
inductive Act where
  | call (op : Op)
  | next
  deriving DecidableEq

variable {ι : Type*} [DecidableEq ι]

namespace State

def goOn (s : State ι) (i : ι) (p : Phase) : State ι :=
  { s with phase := Function.update s.phase i p }

/-- Core `i` makes a step of a lock routine; `p` is its phase afterwards. -/
def lockStep (s : State ι) (i : ι) (a : LockAction) (p : LockCore → Phase) : Option (State ι) :=
  (Boot.lockStep s.lock (i, a)).map fun lock => { s.goOn i (p (lock.core i)) with lock }

end State

/-- The phase after an instruction of a lock routine, with `inside` until the routine returns. -/
def untilReturn (inside after : Phase) (c : LockCore) : Phase :=
  if c.routine = none then after else inside

/-- One step of core `i`. -/
def step (s : State ι) : ι × Act → Option (State ι)
  | (i, .call op) =>
      match s.phase i with
      | .idle =>
          if op.locks then s.lockStep i .callReq fun _ => .requesting op
          else some (s.goOn i (.accessing op op.body 0))
      | _ => none
  | (i, .next) =>
      match s.phase i with
      | .idle => none
      | .requesting op =>
          s.lockStep i .instr (untilReturn (.requesting op) (.accessing op op.body 0))
      | .accessing op (a :: rest) reg =>
          let x := a.run (s.common, reg)
          some { s.goOn i (.accessing op rest x.2) with common := x.1 }
      | .accessing op [] reg =>
          if op.locks then s.lockStep i .callRel fun _ => .releasing op reg
          else some (s.goOn i (.returning op reg))
      | .releasing op reg =>
          s.lockStep i .instr (untilReturn (.releasing op reg) (.returning op reg))
      | .returning _ _ => some (s.goOn i .idle)

/-- The calls and the results. -/
def events (s : State ι) : ι × Act → List (ObjectEvent ι Op Word)
  | (i, .call op) => [.call i op]
  | (i, .next) =>
      match s.phase i with
      | .returning op reg => [.ret i op (op.result reg)]
      | _ => []

/-- The lock is free and no core has called anything yet. -/
structure State.Initial (s : State ι) : Prop where
  lock : s.lock.Initial
  idle : ∀ i, s.phase i = .idle

/-! ## The calls as single steps -/

/-- What a call does to the fields, and what it returns. -/
def Op.apply : Op → SysCommonInfo → Word × SysCommonInfo
  | .incWakingCores, c => (0, { c with wakingCores := c.wakingCores + 1 })
  | .getWakingCores, c => (c.wakingCores, c)
  | .changePm pm, c => (1, { c with prevPm := c.pm, pm := pm })
  | .setPm pm, c => if isValidPm pm then (pm, { c with pm := pm }) else (-1, c)
  | .setPrevPm pm, c => if isValidPm pm then (pm, { c with prevPm := pm }) else (-1, c)
  | .getPm, c => (c.pm, c)

end SysCommon

end Rpi2Baremetal
