import GapsoRbfPid.Library.Vectors
import GapsoRbfPid.Library.CInt
import GapsoRbfPid.Library.Transition
import GapsoRbfPid.Library.WorkerPool
import GapsoRbfPid.Library.ShiftRegister
import GapsoRbfPid.Library.Pid
import GapsoRbfPid.Library.SeqFile
import GapsoRbfPid.Library.Stdio
import GapsoRbfPid.Library.ByteQueue
import GapsoRbfPid.Library.Argmin
import GapsoRbfPid.Library.FixedPoint
import GapsoRbfPid.Library.RadialBasis
import GapsoRbfPid.Library.Clamp
import GapsoRbfPid.Library.LossyChannel
import GapsoRbfPid.Library.Rounding
import GapsoRbfPid.Library.UnpackedFloat
import GapsoRbfPid.Library.Binary64
import GapsoRbfPid.Library.Approximation
import GapsoRbfPid.Library.PolyBound
import GapsoRbfPid.Library.ExpSeries
import GapsoRbfPid.Parms
import GapsoRbfPid.Learning
import GapsoRbfPid.Qdisc
import GapsoRbfPid.Scheduler
import GapsoRbfPid.Effects
import GapsoRbfPid.Instances
import GapsoRbfPid.ByteFifo
import GapsoRbfPid.Deployment
import GapsoRbfPid.OptionParser
import GapsoRbfPid.OptionValues
import GapsoRbfPid.FixpointCodec
import GapsoRbfPid.ControlRange
import GapsoRbfPid.QueueLength
import GapsoRbfPid.Backlog
import GapsoRbfPid.Marking
import GapsoRbfPid.MarkingRate
import GapsoRbfPid.RandomRange
import GapsoRbfPid.Accounting
import GapsoRbfPid.Sampling
import GapsoRbfPid.PidRefinement
import GapsoRbfPid.Swarm
import GapsoRbfPid.SwarmRecord
import GapsoRbfPid.Reconfiguration
import GapsoRbfPid.OnePass
import GapsoRbfPid.StepBounds
import GapsoRbfPid.InertiaSchedule
import GapsoRbfPid.Jacobian
import GapsoRbfPid.Isolation
import GapsoRbfPid.Threads
import GapsoRbfPid.FailedConfiguration
import GapsoRbfPid.StopProtocol
import GapsoRbfPid.Log
import GapsoRbfPid.LogExport
import GapsoRbfPid.LogDecoding
import GapsoRbfPid.TraceQueue
import GapsoRbfPid.TraceText
import GapsoRbfPid.Pso
import GapsoRbfPid.WorkQueue
import GapsoRbfPid.PsoLoop
import GapsoRbfPid.HiddenLayer
import GapsoRbfPid.GainTuning
import GapsoRbfPid.Saturation
import GapsoRbfPid.Delivery
import GapsoRbfPid.Pipeline
import GapsoRbfPid.Exponential
import GapsoRbfPid.ExponentialKernel
import GapsoRbfPid.ExponentialRounding
import GapsoRbfPid.ExponentialReduction
import GapsoRbfPid.ExponentialAccuracy
import GapsoRbfPid.ExponentialRange
import GapsoRbfPid.HiddenUnit
