import Rpi2Baremetal.Model.Kernel

/-!
# Changing the address space of a core (`mmu.c`)

`sync_user_ttba_change` as one function of the kernel and of the registers of the core that
executes it.  Barriers are left out, and so is the TLB, which `Model/Tlb.lean` has.

What it prints is left out as well.  It prints before it changes a register, and where the MMU is
on its messages return on core 0 only (`Model/Kernel.lean`).
-/

namespace Rpi2Baremetal

namespace TtbaChange

open Kernel

/-- The kernel, and the registers of the executing core that the function writes. -/
structure TtbaState where
  kernel : Kernel
  contextidr : Word
  ttbr0 : Word
  ttbr1 : Word
  /-- The I bit of `CPSR`. -/
  irqMasked : Bool

abbrev TtbaM := EStateM Halt TtbaState

/-- A function of the kernel is called. -/
def call {α : Type} (x : KernelM α) : TtbaM α := fun s =>
  match x s.kernel with
  | .ok a k => .ok a { s with kernel := k }
  | .error e k => .error e { s with kernel := k }

/-- `cpsid i`. -/
def cpsid : TtbaM Unit := fun s => .ok () { s with irqMasked := true }

/-- `cpsie i`. -/
def cpsie : TtbaM Unit := fun s => .ok () { s with irqMasked := false }

/-- The low 8 bits of `CONTEXTIDR` are cleared, and `asid` is put there with `orr`. -/
def orrAsid (asid : Word) : TtbaM Unit := fun s =>
  .ok () { s with contextidr := (s.contextidr &&& 0xFFFFFF00) ||| asid }

def setTtbr0 (ttbr : Word) : TtbaM Unit := fun s => .ok () { s with ttbr0 := ttbr }

def setTtbr1 (ttbr : Word) : TtbaM Unit := fun s => .ok () { s with ttbr1 := ttbr }

/-- `sync_user_ttba_change`; `asid` is a `uint32_t`. -/
def syncUserTtbaChange (task cpuid pm : Word) : TtbaM Unit := do
  cpsid
  let asid ← call (setUserAsid task cpuid pm)
  if asid < 0 then cpsie
  else
    orrAsid RESERVED_ASID_NUM
    setTtbr0 (0x4a ||| (← call (readTcb task)).ttba)
    setTtbr1 (0x4a ||| (← call (readTcb task)).ttba)
    orrAsid asid
    cpsie

end TtbaChange

end Rpi2Baremetal
