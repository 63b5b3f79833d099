import Rpi2Baremetal.Model.Console
import Rpi2Baremetal.Model.Mailbox
import Rpi2Baremetal.Model.Reset

/-!
# Starting the secondary cores through mailbox 3

`start_secondary_core` runs on core 0.  For each other core it waits until the mailbox of the core
is empty, writes the entry address to it and waits until it is empty again, and gives up after a
million reads.  What happens to the mailboxes in between is up to the other cores, whose accesses
are steps of their own; `sys_init_secondary` makes one.
-/

namespace Rpi2Baremetal

namespace Multicore

open Console

/-- `CORES`. -/
def CORES : ℕ := 4

/-! ## The registers (`hwio.h`) -/

def ARM_LOCAL_GPU_INT_ROUTING : Word := ARM_LOCAL_BASE + 0x00C
def ARM_LOCAL_MAILBOX_INT_CONTROL0 : Word := ARM_LOCAL_BASE + 0x050

/-- `ARM_LOCAL_MAILBOX3_SET0` to `ARM_LOCAL_MAILBOX3_SET3`. -/
def armLocalMailbox3Set (core : Fin NUM_CPU) : Word :=
  ARM_LOCAL_BASE + ![0x08C, 0x09C, 0x0AC, 0x0BC] core

/-- `ARM_LOCAL_MAILBOX3_CLR0` to `ARM_LOCAL_MAILBOX3_CLR3`. -/
def armLocalMailbox3Clr (core : Fin NUM_CPU) : Word :=
  ARM_LOCAL_BASE + ![0x0CC, 0x0DC, 0x0EC, 0x0FC] core

/-- What `read32` returns for the `CLR` register of a mailbox 3, and `other` for any other
register. -/
def readMailbox3 (mailbox3 : Fin NUM_CPU → Word) (other reg : Word) : Word :=
  match (List.finRange NUM_CPU).find? fun core => armLocalMailbox3Clr core = reg with
  | some core => mailbox3 core
  | none => other

/-- The mailboxes after `write32`. -/
def writeMailbox3 (mailbox3 : Fin NUM_CPU → Word) (reg value : Word) : Fin NUM_CPU → Word :=
  fun core =>
    if reg = armLocalMailbox3Set core then mailbox3 core ||| value
    else if reg = armLocalMailbox3Clr core then mailbox3 core &&& ~~~value
    else mailbox3 core

/-! ## `start_secondary_core` (`multicore.c`) -/

/-- Where `start_secondary_core` is. -/
inductive StartPc where
  /-- Before the first loop reads the mailbox. -/
  | awaitEmpty (nCore nTimeout : ℕ)
  | setMailbox (nCore : ℕ)
  /-- Before the second loop reads it. -/
  | awaitAnswer (nCore nTimeout : ℕ)
  | returned (result : Bool)
  deriving DecidableEq

/-- What `start_secondary_core` has done. -/
inductive StartEvent where
  | read (reg value : Word)
  | write (reg value : Word)
  /-- Call a print function. -/
  | print (call : Cmd)

structure StartState where
  mailbox3 : Fin NUM_CPU → Word
  pc : StartPc
  trace : List StartEvent

/-- The messages on a core that does not answer. -/
def noAnswer (nCore : ℕ) (text : String) : List StartEvent :=
  [.print (.uartPuts (cstr "CPU core ")), .print (.hexstring (.ofNat 32 nCore)),
    .print (.uartPuts (cstr text))]

/-- What is written to the routing register: GPU interrupts as before, the FIQ to core 1. -/
def gpuIntRouting (nRouting : Word) : Word := (nRouting &&& ~~~(0x0C : Word)) ||| (1 <<< 2)

/-- `start_secondary_core` before its loop, the routing register having held `nRouting`. -/
def startSecondaryCore (nRouting : Word) (mailbox3 : Fin NUM_CPU → Word) : StartState where
  mailbox3 := mailbox3
  pc := .awaitEmpty 1 0
  trace := [.read ARM_LOCAL_GPU_INT_ROUTING nRouting,
    .write ARM_LOCAL_GPU_INT_ROUTING (gpuIntRouting nRouting),
    .write ARM_LOCAL_MAILBOX_INT_CONTROL0 1]

/-- `n_mb_clr`. -/
def nMbClr (nCore : ℕ) : Word := armLocalMailbox3Clr 0 + 0x10 * .ofNat 32 nCore

/-- The register that the entry address is written to. -/
def nMbSet (nCore : ℕ) : Word := armLocalMailbox3Set 0 + 0x10 * .ofNat 32 nCore

/-- The next access of `start_secondary_core` to a mailbox, with what it does up to the one after
that. -/
def startNext (s : StartState) : Option StartState :=
  match s.pc with
  | .awaitEmpty nCore nTimeout =>
      let value := readMailbox3 s.mailbox3 0 (nMbClr nCore)
      let trace := s.trace ++ [.read (nMbClr nCore) value]
      if value ≠ 0 then
        let trace := trace ++
          [.print (.registerValuePuts (cstr "n_timeout: ") (.ofNat 32 nTimeout))]
        if nTimeout + 1 > 1000000 then
          some { s with
            pc := .returned false
            trace := trace ++ noAnswer nCore "does not respond\n" }
        else some { s with pc := .awaitEmpty nCore (nTimeout + 1), trace }
      else some { s with pc := .setMailbox nCore, trace }
  | .setMailbox nCore =>
      some
        { mailbox3 := writeMailbox3 s.mailbox3 (nMbSet nCore) Reset.secondaryStartBase
          pc := .awaitAnswer nCore 0
          trace := s.trace ++ [.write (nMbSet nCore) Reset.secondaryStartBase] }
  | .awaitAnswer nCore nTimeout =>
      let value := readMailbox3 s.mailbox3 0 (nMbClr nCore)
      let trace := s.trace ++ [.read (nMbClr nCore) value]
      if value ≠ 0 then
        if nTimeout + 1 > 1000000 then
          some { s with
            pc := .returned false
            trace := trace ++ noAnswer nCore "did not start\n" }
        else some { s with pc := .awaitAnswer nCore (nTimeout + 1), trace }
      else
        some { s with
          pc := if nCore + 1 < CORES then .awaitEmpty (nCore + 1) 0 else .returned true
          trace }
  | .returned _ => none

/-- A step: the next access of `start_secondary_core`, or a write by another core. -/
inductive StartAct where
  | primary
  | write (reg value : Word)
  deriving DecidableEq

def startStep (s : StartState) : StartAct → Option StartState
  | .primary => startNext s
  | .write reg value => some { s with mailbox3 := writeMailbox3 s.mailbox3 reg value }

/-- The write that `sys_init_secondary` makes to clear its mailbox. -/
def clearMailbox3 (cpuid : Fin NUM_CPU) : StartAct :=
  .write (armLocalMailbox3Clr 0 + 0x10 * .ofNat 32 cpuid) 0

end Multicore

end Rpi2Baremetal
