import Kernelet.Memory.Address
import Kernelet.Process.State

/-!
Everything that can go wrong, by cause. A failed operation answers with one of
these; `KernelError.message` is the sentence that people read.
-/

namespace Kernelet

/-- Why a configuration is refused. -/
inductive ConfigFault where
  /-- Physical memory is empty or is not whole pages. -/
  | memorySize
  /-- The kernel's share of memory is not whole pages. -/
  | kernelMemory
  /-- The kernel's share leaves no frame for processes. -/
  | noFrames
  /-- The address space is empty or is not whole pages. -/
  | taskSize
  | maxTasks
  /-- A priority or time slice is above `maxTimeSlice`. -/
  | timeSlice
  | hz
  /-- The text is not a JSON description of a configuration. -/
  | malformed
  /-- The bytes are not text. -/
  | notText
  | notFound
  /-- Some other reason, already put into words. -/
  | other (reason : String)
deriving DecidableEq, Repr

def ConfigFault.message : ConfigFault → String
  | memorySize => "memory_size must be a non-zero multiple of " ++ toString pageSize ++ " bytes"
  | kernelMemory => "kernel_memory must be a multiple of " ++ toString pageSize ++ " bytes"
  | noFrames => "kernel_memory leaves no frames for processes"
  | taskSize => "task_size must be a non-zero multiple of " ++ toString pageSize ++ " bytes"
  | maxTasks => "max_tasks must be at least 1"
  | timeSlice =>
    "default_priority and default_counter must not exceed " ++ toString maxTimeSlice
  | hz => "hz must be at least 1"
  | malformed => "not a JSON description of a configuration"
  | notText => "stream did not contain valid UTF-8"
  | notFound => "No such file or directory (os error 2)"
  | other reason => reason

/-- Why an operation failed. -/
inductive KernelError where
  | outOfMemory
  | pageFault (address : VirtAddr)
  /-- The page of this address is mapped, and is neither writable nor
  copy-on-write. -/
  | permissionFault (address : VirtAddr)
  /-- Physical memory does not reach that far. -/
  | hostFault (address : PhysAddr)
  /-- The address lies beyond the end of the address space. -/
  | addressOutOfRange (address : VirtAddr)
  /-- A free or unknown frame cannot be shared. -/
  | frameNotAllocated (frame : FrameId)
  | processTableFull
  | noSuchProcess (pid : Pid)
  /-- The task has no child to wait for. -/
  | noChildren (pid : Pid)
  /-- The task has children, and none has terminated yet. -/
  | wouldBlock
  | alreadyExists (pid : Pid)
  /-- The task cannot do that from the state it is in. -/
  | invalidState (pid : Pid) (state : TaskState)
  | invalidSignal (number : Nat)
  /-- The execution gate was shut, and no further turn will come. -/
  | gateClosed
  /-- The configuration is refused. -/
  | invalidConfiguration (fault : ConfigFault)
deriving DecidableEq

namespace KernelError

def message : KernelError → String
  | outOfMemory => "Out of memory: no free frames"
  | pageFault a => "Page fault at " ++ a.text ++ ": page not present"
  | permissionFault a => "Permission fault at " ++ a.text ++ ": page is read-only"
  | hostFault a =>
    "Host fault: physical address " ++ Text.hexAddress a.toNat ++ " out of range"
  | addressOutOfRange a => "Virtual address " ++ a.text ++ " outside the address space"
  | frameNotAllocated f => "Frame " ++ f.text ++ " is not allocated"
  | processTableFull => "Process table full"
  | noSuchProcess p => "No such process: " ++ toString p
  | noChildren p => "Process " ++ toString p ++ " has no children"
  | wouldBlock => "Operation would block"
  | alreadyExists p => "Process " ++ toString p ++ " already exists"
  | invalidState p s => "Process " ++ toString p ++ " cannot do that while " ++ s.text
  | invalidSignal n => "Invalid signal number: " ++ toString n
  | gateClosed => "Execution gate closed"
  | invalidConfiguration f => "Invalid configuration: " ++ f.message

/-- The address at which a process faulted, for the two faults that a process
can cause by its own memory access. -/
def faultAddress? : KernelError → Option VirtAddr
  | pageFault a | permissionFault a => some a
  | _ => none

def isFault (e : KernelError) : Bool :=
  e.faultAddress?.isSome

end KernelError

/-- What an operation leaves behind: its result and the state after it. An
operation that fails may have changed the state on the way, and then that
change is part of its outcome. -/
structure Outcome (σ α : Type) where
  result : Except KernelError α
  state : σ

/-- The same outcome with its value seen through `f`. -/
def Outcome.map {σ α β : Type} (f : α → β) (o : Outcome σ α) : Outcome σ β :=
  ⟨o.result.map f, o.state⟩

end Kernelet
