import Rpi2Baremetal.Model.Sysinfo

/-!
# The initialisation code of the cores (`init.c`)

`sys_init_primary` runs on core 0 and `sys_init_secondary` on the others, and both end in
`init_smp_kernel`.  Each is the list of what it calls, in order.  `Model/BootCalls.lean` executes
these lists on the four cores.
-/

namespace Rpi2Baremetal

namespace Startup

/-! ## The calls (`init.c`) -/

/-- The functions that call `inc_waking_cores`. -/
inductive IncSite where
  | sysInit
  | initSmpKernel
  deriving DecidableEq

/-- What the initialisation code calls or does itself. -/
inductive InitCall where
  | clearBss
  | initIrqHandler
  | disableIrq1
  | miniUartInit
  | enableIrq1
  | enableInterrupts
  | initSysinfos
  | initTtbs
  | initMmu
  | startMmuNoLock
  | clearMailbox3
  | enableIpi
  | cpsie
  | busyWait (count : ℕ)
  | incWakingCores (site : IncSite)
  | clearQueueLock
  | allocTaskMap
  | startSecondaryCore
  /-- The loop on `get_waking_cores() >= 4`. -/
  | waitWakingCores
  | outputAllPmAccessPolicy
  deriving DecidableEq

/-- `init_smp_kernel` on core `cpuid`. -/
def initSmpKernel (cpuid : Fin NUM_CPU) : List InitCall :=
  if cpuid.val = PCore.toNat then
    [.clearQueueLock, .allocTaskMap, .startSecondaryCore, .busyWait 10000000, .waitWakingCores,
      .outputAllPmAccessPolicy]
  else
    [.cpsie, .busyWait (10000 * cpuid)] ++
      if cpuid.val = 1 then [.incWakingCores .initSmpKernel] else []

/-- `sys_init_primary`. -/
def sysInitPrimary (cpuid : Fin NUM_CPU) : List InitCall :=
  [.clearBss, .initIrqHandler, .disableIrq1, .miniUartInit, .enableIrq1, .enableInterrupts,
    .initSysinfos, .initTtbs, .initMmu, .startMmuNoLock, .incWakingCores .sysInit] ++
    initSmpKernel cpuid

/-- `sys_init_secondary`. -/
def sysInitSecondary (cpuid : Fin NUM_CPU) : List InitCall :=
  [.enableInterrupts, .busyWait (2000000 * cpuid), .initTtbs, .initMmu, .startMmuNoLock,
    .clearMailbox3, .enableIpi, .cpsie, .incWakingCores .sysInit] ++ initSmpKernel cpuid

/-- What `boot.s` calls on a core. -/
def program (cpuid : Fin NUM_CPU) : List InitCall :=
  if cpuid.val = 0 then sysInitPrimary cpuid else sysInitSecondary cpuid

end Startup

end Rpi2Baremetal
