import Kernelet.Body.Ensemble
import Kernelet.Config.File
import Kernelet.Gate.Waiting
import Kernelet.Kernel.Request
import Kernelet.Kernel.Startup
import Kernelet.Memory.FramePool.Lemmas
import Kernelet.Memory.PageTable.Lemmas
import Kernelet.Memory.Spaces
import Kernelet.Process.Scheduler.Lemmas
import Kernelet.Proofs.Memory.FrameBytes
import Kernelet.Proofs.Memory.NamedFrames
import Kernelet.Proofs.Memory.References
import Kernelet.Proofs.Memory.PageUpdates
import Kernelet.Proofs.Memory.Sharing
import Kernelet.Proofs.Memory.Forking
import Kernelet.Proofs.Memory.Balance
import Kernelet.Proofs.Memory.Places
import Kernelet.Proofs.Memory.Alike
import Kernelet.Proofs.Spaces.Balance
import Kernelet.Proofs.Spaces.Accounting
import Kernelet.Proofs.Spaces.Eager
import Kernelet.Proofs.Spaces.Refinement
import Kernelet.Proofs.Spaces.Noninterference
import Kernelet.Proofs.Process.Table
import Kernelet.Proofs.Process.Balance
import Kernelet.Proofs.Kernel.Balance
import Kernelet.Proofs.Kernel.Lifecycle
import Kernelet.Proofs.Kernel.Accounting
import Kernelet.Proofs.Process.Kinship
import Kernelet.Proofs.Kernel.Waiting
import Kernelet.Proofs.Gate.Exclusion
import Kernelet.Proofs.Gate.Calls
import Kernelet.Proofs.Kernel.Dispatch
import Kernelet.Proofs.Kernel.Course
import Kernelet.Proofs.Kernel.Reaping
import Kernelet.Proofs.Process.Standing
import Kernelet.Proofs.Kernel.Diagram
import Kernelet.Proofs.Kernel.Turns
import Kernelet.Proofs.Body.World
import Kernelet.Proofs.Body.Exclusion
import Kernelet.Proofs.Kernel.Parentage
import Kernelet.Proofs.Process.Pace
import Kernelet.Proofs.Kernel.Seating
import Kernelet.Proofs.Kernel.Numbering
import Kernelet.Proofs.Kernel.FirstProcess
import Kernelet.Proofs.Process.Slices
import Kernelet.Proofs.Kernel.Idling
import Kernelet.Proofs.Kernel.Asking
import Kernelet.Proofs.Kernel.DeepSleep
import Kernelet.Proofs.Process.Choice
import Kernelet.Proofs.Process.Epoch
import Kernelet.Proofs.Memory.ByteAccess
import Kernelet.Proofs.Spaces.ByteAccess
import Kernelet.Proofs.Memory.HeapGrowth
import Kernelet.Proofs.Memory.HeapCover
import Kernelet.Proofs.Memory.Ranges
import Kernelet.Proofs.Spaces.Origin
import Kernelet.Proofs.Spaces.Forking
import Kernelet.Proofs.Spaces.HeapGrowth
import Kernelet.Proofs.Spaces.HeapCover
import Kernelet.Proofs.Spaces.RangeAccess
import Kernelet.Proofs.Body.Stranding
import Kernelet.Proofs.Config.RoundTrip
import Kernelet.Proofs.Memory.CleanFailure
import Kernelet.Proofs.Kernel.Ending
import Kernelet.Proofs.Kernel.AllOrNothing
import Kernelet.Memory.FramePool.Request
import Kernelet.Proofs.Memory.FirstFit
import Kernelet.Memory.PageTable.Request
import Kernelet.Proofs.Memory.PageMap
import Kernelet.Proofs.Kernel.SliceBound
import Kernelet.Proofs.Memory.Marks
import Kernelet.Proofs.Process.Mirror
import Kernelet.Proofs.Kernel.Mirror
import Kernelet.Proofs.Kernel.Traceless
import Kernelet.Process.Task.Request
import Kernelet.Proofs.Memory.PhysicalAccess
import Kernelet.Proofs.Process.Signals
import Kernelet.Process.Scheduler.Request
import Kernelet.Proofs.Process.SlotTable
import Kernelet.Words.Basic
import Kernelet.Words.Kernel
import Kernelet.Proofs.Kernel.Images
import Kernelet.Proofs.Kernel.Tables
import Kernelet.Proofs.Words.Memory
import Kernelet.Proofs.Words.Kernel
