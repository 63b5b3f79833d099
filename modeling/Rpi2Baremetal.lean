import Rpi2Baremetal.Framework.Loop
import Rpi2Baremetal.Framework.Transition
import Rpi2Baremetal.Framework.Blocks
import Rpi2Baremetal.Framework.Memory
import Rpi2Baremetal.Model.Word
import Rpi2Baremetal.Model.Util
import Rpi2Baremetal.Framework.Segment
import Rpi2Baremetal.Properties.HeapRefinement
import Rpi2Baremetal.Properties.HeapSafety
import Rpi2Baremetal.Model.SpinLock
import Rpi2Baremetal.Properties.SpinLock
import Rpi2Baremetal.Model.Sysconfs
import Rpi2Baremetal.Model.Mmu
import Rpi2Baremetal.Properties.TableBuilder
import Rpi2Baremetal.Properties.UserIsolation
import Rpi2Baremetal.Model.Arm
import Rpi2Baremetal.Model.Irq
import Rpi2Baremetal.Properties.IrqTransparency
import Rpi2Baremetal.Framework.CallStack
import Rpi2Baremetal.Model.Interrupt
import Rpi2Baremetal.Model.Console
import Rpi2Baremetal.Properties.DiagnosticLocking
import Rpi2Baremetal.Properties.Dispatch
import Rpi2Baremetal.Properties.InterruptLocking
import Rpi2Baremetal.Model.Sysinfo
import Rpi2Baremetal.Model.Kernel
import Rpi2Baremetal.Properties.Modes
import Rpi2Baremetal.Properties.KernelHeap
import Rpi2Baremetal.Properties.KernelOps
import Rpi2Baremetal.Framework.Triple
import Rpi2Baremetal.Model.Task
import Rpi2Baremetal.Properties.TaskOps
import Rpi2Baremetal.Properties.AsidExclusivity
import Rpi2Baremetal.Properties.TaskSpaces
import Rpi2Baremetal.Properties.MapBounds
import Rpi2Baremetal.Properties.SysinfoLookup
import Rpi2Baremetal.Properties.ModeValidity
import Rpi2Baremetal.Properties.KernelAsids
import Rpi2Baremetal.Model.KernelTables
import Rpi2Baremetal.Properties.KernelTables
import Rpi2Baremetal.Properties.KernelProtection
import Rpi2Baremetal.Properties.KernelIsolation
import Rpi2Baremetal.Model.Init
import Rpi2Baremetal.Properties.BootBarrier
import Rpi2Baremetal.Model.Mailbox
import Rpi2Baremetal.Properties.Mailbox
import Rpi2Baremetal.Properties.TaskPlacement
import Rpi2Baremetal.Properties.SpaceMigration
import Rpi2Baremetal.Model.Tlb
import Rpi2Baremetal.Properties.TlbTags
import Rpi2Baremetal.Properties.TlbCalls
import Rpi2Baremetal.Framework.Ring
import Rpi2Baremetal.Properties.HeapSearch
import Rpi2Baremetal.Properties.HeapHandle
import Rpi2Baremetal.Framework.BlockRuns
import Rpi2Baremetal.Properties.HeapCanonical
import Rpi2Baremetal.Properties.LockBalance
import Rpi2Baremetal.Properties.CoreTasks
import Rpi2Baremetal.Model.TtbaChange
import Rpi2Baremetal.Properties.TtbaChange
import Rpi2Baremetal.Properties.TaskQueues
import Rpi2Baremetal.Properties.TaskOwnership
import Rpi2Baremetal.Model.TaskRam
import Rpi2Baremetal.Properties.TaskRam
import Rpi2Baremetal.Properties.ReadyQueues
import Rpi2Baremetal.Properties.HeapPair
import Rpi2Baremetal.Properties.CreateAtomic
import Rpi2Baremetal.Properties.LeastAsid
import Rpi2Baremetal.Properties.IdentityTables
import Rpi2Baremetal.Properties.SpaceCount
import Rpi2Baremetal.Properties.DispatchEffects
import Rpi2Baremetal.Model.DataCache
import Rpi2Baremetal.Properties.DataCache
import Rpi2Baremetal.Model.Svc
import Rpi2Baremetal.Properties.SvcRoundTrip
import Rpi2Baremetal.Model.Abort
import Rpi2Baremetal.Properties.AbortSkip
import Rpi2Baremetal.Properties.ExceptionFrames
import Rpi2Baremetal.Framework.AtomicObject
import Rpi2Baremetal.Model.SysCommon
import Rpi2Baremetal.Properties.SpinLockSteps
import Rpi2Baremetal.Properties.SysCommon
import Rpi2Baremetal.Properties.SpinLockProgress
import Rpi2Baremetal.Framework.Threads
import Rpi2Baremetal.Model.Reset
import Rpi2Baremetal.Model.MmuStart
import Rpi2Baremetal.Properties.Reset
import Rpi2Baremetal.Properties.MmuStart
import Rpi2Baremetal.Model.BootCalls
import Rpi2Baremetal.Properties.BootHang
import Rpi2Baremetal.Properties.ConsoleOutput
import Rpi2Baremetal.Properties.AccessReport
import Rpi2Baremetal.Properties.AccessPolicy
import Rpi2Baremetal.Model.StartSecondary
import Rpi2Baremetal.Properties.StartSecondary
import Rpi2Baremetal.Model.InterruptController
import Rpi2Baremetal.Properties.InterruptController
import Rpi2Baremetal.Model.Receive
import Rpi2Baremetal.Properties.Receive
import Rpi2Baremetal.Model.Transmit
import Rpi2Baremetal.Properties.Transmit
import Rpi2Baremetal.Model.Memcpy
import Rpi2Baremetal.Properties.Memcpy
import Rpi2Baremetal.Properties.FreeFromNull
