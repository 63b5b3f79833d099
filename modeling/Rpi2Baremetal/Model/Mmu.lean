import Rpi2Baremetal.Framework.Loop
import Rpi2Baremetal.Model.Word

/-!
# First-level translation tables

The section descriptors `mmu_section` and `mmu_fault` write, the loop over the 4096 sections
of the address space that `cre_usr_tbl` fills a table with, and the walk the processor makes
through the result (ARMv7 short descriptors, `TTBCR` 0).
-/

namespace Rpi2Baremetal

open Framework

namespace Mmu

/-! ## Constants -/

def SECTION_SIZE : Word := 0x00100000

def FLD_TYPE_MASK : Word := 0x3
def FLD_FAULT_TYPE : Word := 0x0
def FLD_PGTBL_TYPE : Word := 0x1
def FLD_SECTION_TYPE : Word := 0x2
def FLD_DOMAIN_MASK : Word := 0x1E0
def FLD_SBA_MASK : Word := 0xFFF00000

def FLD_AP_MASK : Word := 0x8C00
def FLD_PLV_ACCESS : Word := 0x0400
def FLD_NO_USR_WRITE : Word := 0x0800
def FLD_FULL_ACCESS : Word := 0x0C00
def FLD_PLV_READ_ONLY : Word := 0x8400
def FLD_READ_ONLY : Word := 0x8C00

def SHAREABLE_SECTION : Word := 0x10000
def SHAREABLE_DEV : Word := 0x00004
def WT_NWA : Word := 0x00008
def WB_WA : Word := 0x0100C
def WB_NWA : Word := 0x0000C

def SP_BASE : Word := 0x00100000
def SHARED_BOTTOM : Word := 0x00500000
def SHARED_LIMIT : Word := 0x1F000000
def PERIPH_BOTTOM : Word := 0x3F000000
def PERIPH_LIMIT : Word := 0x40400000

/-! ## Writing a table -/

/-- The address of the descriptor of `va` in the table at `ttba`. -/
def l1descpa (va ttba : Word) : Word :=
  let tblid := va >>> 20
  ttba ||| (tblid <<< 2)

/-- `mmu_section`. -/
def mmuSection (va pa flags ttba : Word) (m : Mem) : Mem :=
  m.write (l1descpa va ttba) ((pa &&& FLD_SBA_MASK) ||| flags ||| FLD_SECTION_TYPE)

/-- `mmu_fault`. -/
def mmuFault (va pa ttba : Word) (m : Mem) : Mem :=
  m.write (l1descpa va ttba) ((pa &&& FLD_SBA_MASK) ||| FLD_FAULT_TYPE)

/-- The chain of range tests in the body of `cre_usr_tbl`. -/
def creUsrEntry (ttba va : Word) (m : Mem) : Mem :=
  if va = ttba then
    mmuSection va ttba (SHAREABLE_SECTION ||| WB_WA ||| FLD_FULL_ACCESS) ttba m
  else if va < ttba then
    mmuSection va va (SHAREABLE_SECTION ||| WB_WA ||| FLD_FULL_ACCESS) ttba m
  else if va ≥ SHARED_BOTTOM ∧ va < SHARED_LIMIT then
    mmuSection va va (SHAREABLE_SECTION ||| WT_NWA ||| FLD_FULL_ACCESS) ttba m
  else if va ≥ PERIPH_BOTTOM ∧ va < PERIPH_LIMIT then
    mmuSection va va (SHAREABLE_DEV ||| FLD_FULL_ACCESS) ttba m
  else
    mmuFault va va ttba m

/-- One pass of the loop `for (va = 0;; va += SECTION_SIZE)` of a table builder, whose body
writes the entry of `va` and breaks after the last section. -/
def tblPass (entry : Word → Mem → Mem) : Mem × Word → Pass (Mem × Word) Mem
  | (m, va) =>
      let m := entry va m
      if va = 0xFFF00000 then .leave m else .again (m, va + SECTION_SIZE)

/-- `cre_usr_tbl`. -/
def creUsrTbl (fuel : ℕ) (ttba : Word) (m : Mem) : Option Mem :=
  Loop.run (tblPass (creUsrEntry ttba)) fuel (m, 0)

/-! ## Walking a table -/

/-- What the first-level descriptor of an address says about it. -/
inductive Translation where
  | fault
  | pageTable
  | «section» (pa : Word)
  deriving DecidableEq

/-- The translation of `va` by the first-level table at `ttba`. -/
def walk (m : Mem) (ttba va : Word) : Translation :=
  let desc := m (l1descpa va ttba)
  if desc &&& FLD_TYPE_MASK = FLD_FAULT_TYPE then .fault
  else if desc &&& FLD_TYPE_MASK = FLD_PGTBL_TYPE then .pageTable
  else .section ((desc &&& FLD_SBA_MASK) ||| (va &&& ~~~ FLD_SBA_MASK))

end Mmu

end Rpi2Baremetal
