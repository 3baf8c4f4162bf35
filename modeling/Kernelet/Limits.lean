/-!
The fixed sizes of the machine: the page, the time slice of a new task, and
the defaults of a configuration. Everything else is sized by a `Config`.
-/

namespace Kernelet

def kernelName : String := "μSim"

def kernelVersion : String := "0.1.0"

/-- The number of binary digits in an offset within a page. -/
def pageShift : Nat := 12

/-- Bytes in a page, and in the physical frame behind it. -/
def pageSize : Nat := 4096

/-- Physical memory of the default machine, in bytes. -/
def defaultMemorySize : Nat := 16 * 1024 * 1024

/-- Low memory that the default machine keeps for its kernel, in bytes. -/
def defaultKernelMemory : Nat := 1024 * 1024

/-- Size of an address space on the default machine, in bytes. -/
def defaultTaskSize : Nat := 64 * 1024 * 1024

def defaultMaxTasks : Nat := 64

/-- Descriptor slots of a task. -/
def descriptorSlots : Nat := 20

/-- Static priority of a task that is given none. -/
def defaultPriority : Nat := 15

/-- Time slice of a task that is given none. -/
def defaultCounter : Nat := 10

/-- Timer ticks in a second on the default machine. -/
def defaultHz : Nat := 100

/-- The largest value that a 32-bit unsigned word holds. Time slices stop
there instead of wrapping. -/
def maxWord : Nat := UInt32.size - 1

/-- The largest priority and time slice that a configuration may ask for.
Twice this value still fits in a word, so that a decayed slice does too. -/
def maxTimeSlice : Nat := maxWord / 2

theorem pageSize_pos : 0 < pageSize := by decide

end Kernelet
