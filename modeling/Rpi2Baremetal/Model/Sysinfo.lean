import Rpi2Baremetal.Model.Mmu
import Rpi2Baremetal.Model.Sysconfs

/-!
# Processing modes and their `SysStructInfo` (`sysinfo.c`)

A processing mode `pm` has one bit for each core: set for AMP, clear for SMP.  A valid one is
all AMP, or SMP on the cores from 0 up to some core from 1 on.  `get_sys_struct_info` turns a
core and a mode into one of the seven entries of `SYSStructTop`, and the getters read a field
of that entry.  What these functions print is left out.
-/

namespace Rpi2Baremetal

/-- The lock words of the kernel. -/
inductive LockWord where
  | uartLock
  | sysCommonLock
  | ssiLock (i : Fin NUM_SYS_STRUCT)
  | expLock
  | smpQueueLock
  | other (address : Word)
  deriving DecidableEq

/-- `SysStructInfo`, its lock apart. -/
structure SysStructInfo where
  ttba : Word
  kernelRamArea : Area
  userRamArea : Area
  kernelHeapArea : Area
  kernelHeapFreep : Word
  asidArea : Area
  maxNumTaskSpace : Word

/-- `SysCommonInfo`, its lock apart; `asid_head` is an array. -/
structure SysCommonInfo where
  pm : Word
  prevPm : Word
  baseTtba : Word
  wakingCores : Word
  asidHead : Word → Word

def TTBA_BASE : Word := 0x00020000
def SECTION_TBL_SIZE : Word := 0x00004000
def SMP_USER_RAM_BOTTOM : Word := 0x24000000

def PCore : Word := 0
def ALL_SMP_MODE : Word := 0

/-- The `SysStructInfo` entries `init_sysinfos` sets up. -/
def initSysinfos (baseTtba : Word) (i : Fin NUM_SYS_STRUCT) : SysStructInfo where
  ttba := baseTtba + .ofNat 32 i * SECTION_TBL_SIZE
  kernelRamArea := kramAreas i
  userRamArea := uramAreas i
  kernelHeapArea := kheapAreas i
  kernelHeapFreep := NULL
  asidArea := asidAreas i
  maxNumTaskSpace := ((uramAreas i).limit - (uramAreas i).bottom) / Mmu.SECTION_SIZE

/-! ## Modes -/

def isValidCpuid (cpuid : Word) : Bool := cpuid < 4

def isAmp (cpuid pm : Word) : Bool := pm &&& ((1 : Word) <<< cpuid) ≠ 0

def isSmp (cpuid pm : Word) : Bool := !isAmp cpuid pm

/-- The loop of `is_valid_pm` over the cores after an SMP primary core, with
`smp_continuous_flg`. -/
def smpCoresContinuous (pm : Word) : List Word → Bool → Bool
  | [], _ => true
  | cpuid :: cpuids, flg =>
      if isSmp cpuid pm && !flg then false
      else if cpuid = PCore + 1 && isAmp cpuid pm then false
      else if isAmp cpuid pm && flg then smpCoresContinuous pm cpuids false
      else smpCoresContinuous pm cpuids flg

/-- `is_valid_pm`. -/
def isValidPm (pm : Word) : Bool :=
  if isAmp PCore pm then [1, 2, 3].all fun cpuid => !isSmp cpuid pm
  else smpCoresContinuous pm [1, 2, 3] true

/-- `SMP_PROC_NUM`. -/
def SMP_PROC_NUM (pm : Word) : Word :=
  if pm &&& 0xF = 0xC then 2
  else if pm &&& 0xF = 0x8 then 3
  else if pm &&& 0xF = 0x0 then 4
  else 0

def SYSSTRUCT_SMP_INDEX (pm : Word) : Word := 4 + (4 - SMP_PROC_NUM pm)

def SYSSTRUCT_AMP_INDEX (cpuid : Word) : Word := cpuid

/-- `get_sys_struct_info_index`. -/
def getSysStructInfoIndex (cpuid pm : Word) : Word :=
  if !isValidCpuid cpuid || !isValidPm pm then -1
  else if isAmp cpuid pm then SYSSTRUCT_AMP_INDEX cpuid
  else SYSSTRUCT_SMP_INDEX pm

/-- The entry `get_sys_struct_info` returns.  Its test `index < 0` is never true of an
unsigned index, so for an index beyond the array the source reads past it: `none`. -/
def getSysStructInfo (cpuid pm : Word) : Option (Fin NUM_SYS_STRUCT) :=
  let index := (getSysStructInfoIndex cpuid pm).toNat
  if h : index < NUM_SYS_STRUCT then some ⟨index, h⟩ else none

/-! ## Getters -/

/-- What a function that looks into `SYSStructTop` comes to: it returns, or it reads the array
at an index past its end. -/
inductive Lookup (α : Type) where
  | returns (a : α)
  | readsPast (index : Word)
  deriving DecidableEq

def Lookup.map {α β : Type} (f : α → β) : Lookup α → Lookup β
  | .returns a => .returns (f a)
  | .readsPast index => .readsPast index

/-- `SYSStructTop[index]`. -/
def sysStructTopAt (index : Word) : Lookup (Fin NUM_SYS_STRUCT) :=
  if h : index.toNat < NUM_SYS_STRUCT then .returns ⟨index.toNat, h⟩ else .readsPast index

/-- `get_sys_struct_info`, with `none` for `NULL`. -/
def lookupSysStructInfo (cpuid pm : Word) : Lookup (Option (Fin NUM_SYS_STRUCT)) :=
  let index := getSysStructInfoIndex cpuid pm
  if index < 0 then .returns none else (sysStructTopAt index).map some

section Getters

variable (sysStructTop : Fin NUM_SYS_STRUCT → SysStructInfo)

/-- `get_ttba`. -/
def getTtba (cpuid pm : Word) : Lookup Word :=
  let index := getSysStructInfoIndex cpuid pm
  if index < 0 then .returns (-1) else (sysStructTopAt index).map fun i => (sysStructTop i).ttba

/-- A getter that returns `failure` when `get_sys_struct_info` returns `NULL`. -/
def getField {α : Type} (failure : α) (field : SysStructInfo → α) (cpuid pm : Word) : Lookup α :=
  (lookupSysStructInfo cpuid pm).map fun ssi => ssi.elim failure fun i => field (sysStructTop i)

/-- `get_kernel_ram_bottom`. -/
def getKernelRamBottom := getField sysStructTop (-1) fun ssi => ssi.kernelRamArea.bottom

/-- `get_kernel_ram_limit`. -/
def getKernelRamLimit := getField sysStructTop (-1) fun ssi => ssi.kernelRamArea.limit

/-- `get_kernel_ram_area`. -/
def getKernelRamArea := getField sysStructTop none fun ssi => some ssi.kernelRamArea

/-- `get_user_ram_bottom`. -/
def getUserRamBottom := getField sysStructTop (-1) fun ssi => ssi.userRamArea.bottom

/-- `get_user_ram_limit`. -/
def getUserRamLimit := getField sysStructTop (-1) fun ssi => ssi.userRamArea.limit

/-- `get_user_ram_area`. -/
def getUserRamArea := getField sysStructTop none fun ssi => some ssi.userRamArea

/-- `get_kernel_heap_bottom`. -/
def getKernelHeapBottom := getField sysStructTop (-1) fun ssi => ssi.kernelHeapArea.bottom

/-- `get_kernel_heap_limit`. -/
def getKernelHeapLimit := getField sysStructTop (-1) fun ssi => ssi.kernelHeapArea.limit

/-- `get_kernel_heap_area`. -/
def getKernelHeapArea := getField sysStructTop none fun ssi => some ssi.kernelHeapArea

/-- `get_kernel_heap_free_head`. -/
def getKernelHeapFreeHead := getField sysStructTop NULL fun ssi => ssi.kernelHeapFreep

end Getters

end Rpi2Baremetal
