import Rpi2Baremetal.Framework.Threads
import Rpi2Baremetal.Model.KernelTables
import Rpi2Baremetal.Model.Kernel

/-!
# Turning the MMU on (`init.c`, `mmu.c`)

`init_ttbs`, `init_mmu` and `start_mmu_no_lock`, as `sys_init_primary` and `sys_init_secondary`
call them on every core.  Each store of `init_ttbs` and each access to a `CP15` register is a
step; a register that is read, changed and written back is one, since no other code on the core
writes it.  What the functions print is left out, and so are barriers and caches.

Only the last message of `start_mmu_no_lock` is printed with the MMU on.  On cores 1 to 3 it does
not return (`Model/BootCalls.lean`); it comes after all of the steps here.
-/

namespace Rpi2Baremetal

open Framework

namespace Mmu

/-! ## Constants -/

def MMU_ENABLE : Word := 0x1
def ACHECK_ENABLE : Word := 0x2
def ICACHE_ENABLE : Word := 0x1000
def DCACHE_ENABLE : Word := 0x4
def PREDICT_ENABLE : Word := 0x800
def CP15B_ENABLE : Word := 0x20

def SCTLR_MMU_OPTION : Word :=
  MMU_ENABLE ||| ACHECK_ENABLE ||| ICACHE_ENABLE ||| DCACHE_ENABLE ||| PREDICT_ENABLE |||
    CP15B_ENABLE

def TTB_MASK : Word := 0xFFFFC000

/-! ## `init_ttbs`, store by store -/

/-- The store of `mmu_section` or `mmu_fault` in the loop of a table builder: its address and
its value. -/
def KernelTbl.store (K : KernelTbl) (ttba va : Word) : Word × Word :=
  match K.flags va with
  | some flags => (l1descpa va ttba, (va &&& FLD_SBA_MASK) ||| flags ||| FLD_SECTION_TYPE)
  | none => (l1descpa va ttba, (va &&& FLD_SBA_MASK) ||| FLD_FAULT_TYPE)

/-- The variables of the loops: `i` and `ttba` of `init_ttbs`, `va` of the table builder. -/
structure FillPos where
  i : ℕ
  ttba : Word
  va : Word
  deriving DecidableEq

namespace FillPos

def start (baseTtba : Word) : FillPos := ⟨0, baseTtba, 0⟩

/-- After a store, the next section, or the next table after the last; none after the last
table. -/
def next (s : FillPos) : Option FillPos :=
  if s.i < NUM_SYS_STRUCT then
    some (if s.va = 0xFFF00000 then ⟨s.i + 1, s.ttba + SECTION_TBL_SIZE, 0⟩
      else { s with va := s.va + SECTION_SIZE })
  else none

def stores (sysStructTop : Fin NUM_SYS_STRUCT → SysStructInfo) (s : FillPos) :
    List (Word × Word) :=
  if s.i < NUM_SYS_STRUCT then
    (initTtbsCall sysStructTop s.i).toList.map fun K => K.store s.ttba s.va
  else []

end FillPos

/-! ## The registers of a core -/

/-- The `CP15` registers that the functions write, and the translations that may be in the TLB:
the ASID and the `TTBR0` under which each was found. -/
structure Cp15 where
  sctlr : Word
  actlr : Word
  dacr : Word
  ttbcr : Word
  ttbr0 : Word
  ttbr1 : Word
  contextidr : Word
  irqMasked : Bool
  tlb : List (Word × Word)

namespace Cp15

/-- `is_mmu_enabled`. -/
def mmuEnabled (c : Cp15) : Bool := c.sctlr &&& MMU_ENABLE ≠ 0

/-- The ASID and the table of a translation made now. -/
def pair (c : Cp15) : Word × Word := (c.contextidr &&& 0xFF, c.ttbr0)

end Cp15

inductive Cp15Op where
  /-- `stop_mmu`. -/
  | stopMmu
  /-- `if (is_mmu_enabled()) stop_mmu()`. -/
  | stopMmuIfEnabled
  /-- `invalidate_all_tlbs`. -/
  | invalidateAllTlbs
  | orrActlr (bits : Word)
  | setDacr (v : Word)
  | setTtbcr (v : Word)
  | setTtbr0 (v : Word)
  | setTtbr1 (v : Word)
  /-- `set_asid`. -/
  | setAsid (asid : Word)
  | cpsid
  | cpsie
  | orrSctlr (bits : Word)

namespace Cp15

/-- What the instruction writes. -/
def exec (c : Cp15) : Cp15Op → Cp15
  | .stopMmu => { c with sctlr := c.sctlr &&& ~~~ SCTLR_MMU_OPTION }
  | .stopMmuIfEnabled =>
      if c.mmuEnabled then { c with sctlr := c.sctlr &&& ~~~ SCTLR_MMU_OPTION } else c
  | .invalidateAllTlbs => { c with tlb := [] }
  | .orrActlr bits => { c with actlr := c.actlr ||| bits }
  | .setDacr v => { c with dacr := v }
  | .setTtbcr v => { c with ttbcr := v }
  | .setTtbr0 v => { c with ttbr0 := v }
  | .setTtbr1 v => { c with ttbr1 := v }
  | .setAsid asid => { c with contextidr := (c.contextidr &&& 0xFFFFFF00) ||| asid }
  | .cpsid => { c with irqMasked := true }
  | .cpsie => { c with irqMasked := false }
  | .orrSctlr bits => { c with sctlr := c.sctlr ||| bits }

/-- With the MMU on, translations get into the TLB. -/
def fill (c : Cp15) : Cp15 := if c.mmuEnabled then { c with tlb := c.pair :: c.tlb } else c

def step (c : Cp15) (op : Cp15Op) : Cp15 := (c.exec op).fill

end Cp15

/-! ## The code (`mmu.c`) -/

/-- `init_mmu`. -/
def initMmu : List Cp15Op :=
  [.stopMmu, .invalidateAllTlbs, .orrActlr ((1 : Word) <<< 6), .setDacr initMmuDacr,
    .setTtbcr 0]

/-- `sync_ttba_change_no_lock`; its test `asid < 0` is never true. -/
def syncTtbaChangeNoLock (newTtba : Word) : List Cp15Op :=
  [.cpsid, .setAsid Kernel.RESERVED_ASID_NUM, .setTtbr0 (0x4a ||| newTtba),
    .setTtbr1 (0x4a ||| newTtba), .setAsid Kernel.RESERVED_ASID_NUM, .invalidateAllTlbs, .cpsie]

/-- `start_mmu_no_lock` with the table of `ssi`. -/
def startMmuNoLock (ttba : Word) : List Cp15Op :=
  .stopMmuIfEnabled :: syncTtbaChangeNoLock ttba ++ [.orrSctlr SCTLR_MMU_OPTION]

/-! ## A core -/

/-- The position in `init_ttbs`, what is left of the code after it, and the registers. -/
structure StartCore where
  fill : FillPos
  rest : List Cp15Op
  cp15 : Cp15

/-- A core calls `init_ttbs`; `ssi` is what `start_mmu_no_lock` gets of `get_sys_struct_info`. -/
def StartCore.start (sysStructTop : Fin NUM_SYS_STRUCT → SysStructInfo) (baseTtba : Word)
    (ssi : Fin NUM_SYS_STRUCT) (cp15 : Cp15) : StartCore where
  fill := .start baseTtba
  rest := initMmu ++ startMmuNoLock (sysStructTop ssi).ttba
  cp15

/-- The next store of `init_ttbs`, or the next instruction after it. -/
def StartCore.next (s : StartCore) : Option StartCore :=
  match s.fill.next with
  | some fill => some { s with fill, cp15 := s.cp15.fill }
  | none =>
      match s.rest with
      | [] => none
      | op :: rest => some { s with rest, cp15 := s.cp15.step op }

/-- The code of every core, which loads no descriptor. -/
def startThread (sysStructTop : Fin NUM_SYS_STRUCT → SysStructInfo) :
    Thread StartCore Word Word where
  next s _ := s.next
  loads _ := []
  stores s := s.fill.stores sysStructTop
  next_congr _ _ _ _ := rfl

end Mmu

end Rpi2Baremetal
