import RunnerCm33.Allocator.Accounting
import RunnerCm33.Allocator.Refusals
import RunnerCm33.Planned.DdrContainment
import RunnerCm33.Planned.Decision
import RunnerCm33.Planned.Separation
import RunnerCm33.Planned.DdrPlacement
import RunnerCm33.Planned.PathsAgree
import RunnerCm33.Planned.SmallModels
import RunnerCm33.Inputs.Mismatch
import RunnerCm33.Inputs.FromFiles
import RunnerCm33.Inputs.EvalueArray
import RunnerCm33.Inputs.Defaults
import RunnerCm33.Inference.RunModel
import RunnerCm33.Inference.LogMemStatus
import RunnerCm33.Trace.Interrupts
import RunnerCm33.Trace.Startup
import RunnerCm33.Trace.FaultReports
import RunnerCm33.Trace.PrintOutputs
import RunnerCm33.Clock.Ticks
import RunnerCm33.Clock.Durations
import RunnerCm33.CommandLine.Operands
import RunnerCm33.Patches.Installed
import RunnerCm33.Patches.Repeated
import RunnerCm33.Planned.HierarchicalAllocator
import RunnerCm33.Runtime.BufferDataLoader
import RunnerCm33.Allocator.TypedAllocations
import RunnerCm33.Planned.EitherBranch
import RunnerCm33.Planned.MemoryManager
import RunnerCm33.Inputs.EvaluesInPool
import RunnerCm33.Lib.SizeCounts
import RunnerCm33.Planned.Memsize
import RunnerCm33.Trace.FaultMoments
import RunnerCm33.Lib.LittleEndian
import RunnerCm33.Trace.ResourceTable
import RunnerCm33.Lib.InterruptedEdits
import RunnerCm33.Patches.Interrupted
import RunnerCm33.Lib.Emitting
import RunnerCm33.Runner.Logging
import RunnerCm33.Runner.RunnerInit
import RunnerCm33.Runner.Main
import RunnerCm33.Runner.Sound
import RunnerCm33.Runner.Outcome
import RunnerCm33.Runner.Results
import RunnerCm33.Runner.Memory
import RunnerCm33.Trace.ReportSize
import RunnerCm33.Runner.InferenceLog
import RunnerCm33.Runner.Completion
import RunnerCm33.Lib.Linearization
import RunnerCm33.Lib.SharedLog
import RunnerCm33.Trace.Linearized
import RunnerCm33.Runner.InterruptedLog
