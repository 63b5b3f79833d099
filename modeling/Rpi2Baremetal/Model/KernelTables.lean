import Rpi2Baremetal.Model.Sysinfo

/-!
# The translation tables of the kernels

`amp_tbl_setup` fills the table of a kernel on one core and `smp_tbl_setup` that of a kernel on
several; `init_ttbs` builds one table for each entry of `SYSStructTop`.  What they print is left
out.  They run before the MMU is on, so that their messages take no lock and return on every core.

`Mmu.access` is the check the processor makes of an access through a table, with the domain
access control register that `init_mmu` programs.
-/

namespace Rpi2Baremetal

open Framework

namespace Mmu

/-! ## Table builders -/

/-- The range tests in the loop of `amp_tbl_setup`: the flags of the section at `va`, or `none`
where it calls `mmu_fault`. -/
def ampFlags (kramArea uramArea kheapArea : Area) (spBottom va : Word) : Option Word :=
  if va ≥ 0x00000000 ∧ va < SP_BASE then
    some (SHAREABLE_SECTION ||| WB_WA ||| FLD_FULL_ACCESS)
  else if va ≥ spBottom ∧ va < spBottom + SECTION_SIZE then
    some (WT_NWA ||| FLD_PLV_ACCESS)
  else if va ≥ SHARED_BOTTOM ∧ va < SHARED_LIMIT then
    some (SHAREABLE_SECTION ||| WT_NWA ||| FLD_FULL_ACCESS)
  else if va ≥ kramArea.bottom ∧ va < kramArea.limit then
    some (WB_WA ||| FLD_PLV_ACCESS)
  else if va ≥ kheapArea.bottom ∧ va < kheapArea.limit then
    some (SHAREABLE_SECTION ||| WB_WA ||| FLD_PLV_ACCESS)
  else if va ≥ uramArea.bottom ∧ va < uramArea.limit then
    some (WB_WA ||| FLD_FULL_ACCESS)
  else if va ≥ PERIPH_BOTTOM ∧ va < PERIPH_LIMIT then
    some (SHAREABLE_DEV ||| FLD_FULL_ACCESS)
  else none

/-- The range tests in the loop of `smp_tbl_setup`. -/
def smpFlags (kramArea uramArea kheapArea : Area) (spBottom numCpu va : Word) : Option Word :=
  if va ≥ 0x00000000 ∧ va < SP_BASE then
    some (SHAREABLE_SECTION ||| WB_NWA ||| FLD_FULL_ACCESS)
  else if va ≥ spBottom ∧ va < spBottom + SECTION_SIZE * numCpu then
    some (WT_NWA ||| FLD_PLV_ACCESS)
  else if va ≥ SHARED_BOTTOM ∧ va < SHARED_LIMIT then
    some (SHAREABLE_SECTION ||| WT_NWA ||| FLD_FULL_ACCESS)
  else if va ≥ kramArea.bottom ∧ va < kramArea.limit then
    some (SHAREABLE_SECTION ||| WB_NWA ||| FLD_PLV_ACCESS)
  else if va ≥ kheapArea.bottom ∧ va < kheapArea.limit then
    some (SHAREABLE_SECTION ||| WB_NWA ||| FLD_PLV_ACCESS)
  else if va ≥ uramArea.bottom ∧ va < uramArea.limit then
    some (WB_NWA ||| FLD_FULL_ACCESS)
  else if va ≥ PERIPH_BOTTOM ∧ va < PERIPH_LIMIT then
    some (SHAREABLE_DEV ||| FLD_FULL_ACCESS)
  else if va > PERIPH_LIMIT then
    some (SHAREABLE_DEV ||| FLD_FULL_ACCESS)
  else none

/-- A kernel as the table builders see it: what `amp_tbl_setup` or `smp_tbl_setup` is called
with, the address of the table apart. -/
inductive KernelTbl where
  | amp (kramArea uramArea kheapArea : Area) (spBottom : Word)
  | smp (kramArea uramArea kheapArea : Area) (spBottom numCpu : Word)

namespace KernelTbl

/-- The flags of the section at `va`. -/
def flags : KernelTbl → Word → Option Word
  | amp kramArea uramArea kheapArea spBottom, va =>
      ampFlags kramArea uramArea kheapArea spBottom va
  | smp kramArea uramArea kheapArea spBottom numCpu, va =>
      smpFlags kramArea uramArea kheapArea spBottom numCpu va

/-- The body of the loop: the section is mapped to itself, or faults. -/
def entry (K : KernelTbl) (ttba va : Word) (m : Mem) : Mem :=
  match K.flags va with
  | some flags => mmuSection va va flags ttba m
  | none => mmuFault va va ttba m

/-- `amp_tbl_setup` and `smp_tbl_setup`. -/
def setup (K : KernelTbl) (fuel : ℕ) (ttba : Word) (m : Mem) : Option Mem :=
  Loop.run (tblPass (K.entry ttba)) fuel (m, 0)

end KernelTbl

/-! ## The tables of all kernels (`init.c`) -/

/-- The area a getter returns, if it returns one. -/
def returnedArea : Lookup (Option Area) → Option Area
  | .returns area => area
  | .readsPast _ => none

/-- `smp_pm`. -/
def smpPm (i : ℕ) : Word := [0x0, 0x8, 0xC].getD i 0

/-- The call of a table builder in pass `i` of `init_ttbs`. -/
def initTtbsCall (sysStructTop : Fin NUM_SYS_STRUCT → SysStructInfo) (i : ℕ) :
    Option KernelTbl :=
  if i < NUM_CPU then do
    let kramArea ← returnedArea (getKernelRamArea sysStructTop (.ofNat 32 i) 0xF)
    let uramArea ← returnedArea (getUserRamArea sysStructTop (.ofNat 32 i) 0xF)
    let kheapArea ← returnedArea (getKernelHeapArea sysStructTop (.ofNat 32 i) 0xF)
    some (.amp kramArea uramArea kheapArea (SP_BASE + SECTION_SIZE * .ofNat 32 i))
  else do
    let pm := smpPm (i - NUM_CPU)
    let kramArea ← returnedArea (getKernelRamArea sysStructTop PCore pm)
    let uramArea ← returnedArea (getUserRamArea sysStructTop PCore pm)
    let kheapArea ← returnedArea (getKernelHeapArea sysStructTop PCore pm)
    some (.smp kramArea uramArea kheapArea SP_BASE (.ofNat 32 (NUM_CPU - (i - NUM_CPU))))

/-- The passes of `init_ttbs` over the entries `is`, the first table being at `ttba`. -/
def initTtbsFrom (fuel : ℕ) (sysStructTop : Fin NUM_SYS_STRUCT → SysStructInfo) :
    List ℕ → Word → Mem → Option Mem
  | [], _, m => some m
  | i :: is, ttba, m => do
      let m ← (← initTtbsCall sysStructTop i).setup fuel ttba m
      initTtbsFrom fuel sysStructTop is (ttba + SECTION_TBL_SIZE) m

/-- `init_ttbs`. -/
def initTtbs (fuel : ℕ) (sysStructTop : Fin NUM_SYS_STRUCT → SysStructInfo) (baseTtba : Word)
    (m : Mem) : Option Mem :=
  initTtbsFrom fuel sysStructTop (List.range NUM_SYS_STRUCT) baseTtba m

/-! ## Access checks -/

/-- What `init_mmu` writes to the domain access control register. -/
def initMmuDacr : Word := 0xFFFFFFFF

inductive AccessKind where
  | read
  | write
  deriving DecidableEq

/-- The domain of a section descriptor. -/
def domainOf (desc : Word) : Word := (desc &&& FLD_DOMAIN_MASK) >>> 5

/-- The field of a domain in the domain access control register. -/
def dacrField (dacr domain : Word) : Word := (dacr >>> (2 * domain)) &&& 3

/-- The access permissions of a section descriptor (`SCTLR.AFE` 0). -/
def apPermits (desc : Word) (privileged : Bool) (kind : AccessKind) : Bool :=
  let ap := desc &&& FLD_AP_MASK
  match privileged, kind with
  | true, .read => ap ∈ [FLD_PLV_ACCESS, FLD_NO_USR_WRITE, FLD_FULL_ACCESS, FLD_PLV_READ_ONLY,
      0x8800, FLD_READ_ONLY]
  | true, .write => ap ∈ [FLD_PLV_ACCESS, FLD_NO_USR_WRITE, FLD_FULL_ACCESS]
  | false, .read => ap ∈ [FLD_NO_USR_WRITE, FLD_FULL_ACCESS, 0x8800, FLD_READ_ONLY]
  | false, .write => ap ∈ [FLD_FULL_ACCESS]

/-- The physical address an access to `va` through the first-level table at `ttba` reaches, or
`none` if it faults. -/
def access (dacr : Word) (m : Mem) (ttba va : Word) (privileged : Bool) (kind : AccessKind) :
    Option Word :=
  match walk m ttba va with
  | .section pa =>
      let desc := m (l1descpa va ttba)
      if dacrField dacr (domainOf desc) = 3 then some pa
      else if dacrField dacr (domainOf desc) = 1 ∧ apPermits desc privileged kind then some pa
      else none
  | .fault => none
  | .pageTable => none

end Mmu

end Rpi2Baremetal
