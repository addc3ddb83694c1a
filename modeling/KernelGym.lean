import KernelGym.CallOutcome
import KernelGym.PostedRequests
import KernelGym.QuarantineCleared
import KernelGym.QuarantineKept
import KernelGym.PoolEpochs
import KernelGym.PoolProbe
import KernelGym.QuarantineConverges
import KernelGym.NotificationOnce
import KernelGym.PublishedResult
import KernelGym.DispatchOnce
import KernelGym.ErrorSimplifier
import KernelGym.RequestHash
import KernelGym.ChannelCodec
import KernelGym.WorkerHeartbeat
import KernelGym.NodeInjective
import KernelGym.CorrectnessVerdict
import KernelGym.ReferenceCacheSound
import KernelGym.TensorVerdict
import KernelGym.MismatchDiagnostics
import KernelGym.ProfilingWindow
import KernelGym.KernelCoverage
import KernelGym.SanitizerReport
import KernelGym.CompileErrorCounts
import KernelGym.NcuRoundTrip
import KernelGym.PerturbedOrigins
import KernelGym.RpcReplies
import KernelGym.PageRedaction
import KernelGym.ProcessContainment
import KernelGym.AllocationReport
import KernelGym.HeldOutBlocks
import KernelGym.ArtifactCache
import KernelGym.ObjectCache
import KernelGym.RestartBudget
import KernelGym.Library.ProcessTable
import KernelGym.Library.Clients
import KernelGym.WorkerSession
import KernelGym.WorkerContainment
import KernelGym.WorkerRestart
import KernelGym.ServiceWorkers
import KernelGym.WorkerGenerations
import KernelGym.Library.ExtendedSums
import KernelGym.Library.Reductions
import KernelGym.FusedCompare
import KernelGym.FusedTiles
import KernelGym.FusedSound
import KernelGym.FusedBuffers
