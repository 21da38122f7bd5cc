import BeauOs.Proofs.Sched.CbsServer
import BeauOs.Proofs.Sched.ArincPath
import BeauOs.Proofs.Sched.QueueContents
import BeauOs.Proofs.Sched.BfpHardBudget
import BeauOs.Proofs.Sched.QuiesceGate
import BeauOs.Proofs.Sched.FreezeThaw
import BeauOs.Proofs.Timer.SoftirqPass
import BeauOs.Proofs.Vm.TopologyClaim
import BeauOs.Proofs.Wdt.RestartBound
import BeauOs.Proofs.Wdt.PmTransparency
import BeauOs.Proofs.Virtio.Order
import BeauOs.Proofs.Virtio.Drain
import BeauOs.Proofs.Virtio.Deferred
import BeauOs.Proofs.Virtio.IrqLine
import BeauOs.Proofs.Core.SbufFifo
import BeauOs.Proofs.Guest.VsmmuQueue
import BeauOs.Proofs.Iommu.OwnershipLedgers
import BeauOs.Proofs.Iommu.StaleDma
import BeauOs.Proofs.Guest.GvaCopy
import BeauOs.Proofs.Sched.BvtFairness
import BeauOs.Proofs.Sched.BvtCredit
import BeauOs.Proofs.Sched.Admission
import BeauOs.Proofs.Sched.AdvisorGate
import BeauOs.Proofs.Platform.StrictPlacement
import BeauOs.Proofs.Platform.MemIsolation
import BeauOs.Proofs.Platform.RamlogReader
import BeauOs.Proofs.Vpci.BarConfinement
import BeauOs.Proofs.Vpci.CapabilityList
import BeauOs.Proofs.Guest.Vtimer
import BeauOs.Proofs.Virtio.ChainCapture
import BeauOs.Proofs.Core.IrqOwner
import BeauOs.Proofs.Kbe.IpcConfinement
