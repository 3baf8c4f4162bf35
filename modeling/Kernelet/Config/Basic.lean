import Kernelet.Error

/-!
What sizes a machine: its memory, the address space of a process, the process
table and the defaults of the scheduler. `Config.validate` accepts exactly the
configurations that a machine can be built from.
-/

namespace Kernelet

/-- The configuration of a machine. -/
structure Config where
  /-- Physical memory in bytes. -/
  memorySize : UInt64
  /-- The part of it that the kernel keeps, from address 0 on. -/
  kernelMemory : UInt64
  /-- Size of the address space of a process in bytes. -/
  taskSize : UInt64
  /-- Slots of the process table. -/
  maxTasks : UInt64
  defaultPriority : UInt32
  defaultCounter : UInt32
  hz : UInt32
deriving DecidableEq

namespace Config

/-- The default machine: 16 MB of memory, 1 MB of it for the kernel, and 64
process slots. -/
def default : Config where
  memorySize := UInt64.ofNat defaultMemorySize
  kernelMemory := UInt64.ofNat defaultKernelMemory
  taskSize := UInt64.ofNat defaultTaskSize
  maxTasks := UInt64.ofNat defaultMaxTasks
  defaultPriority := UInt32.ofNat Kernelet.defaultPriority
  defaultCounter := UInt32.ofNat Kernelet.defaultCounter
  hz := UInt32.ofNat defaultHz

/-- A small machine: 64 frames, all of them for processes, and 8 slots. -/
def small : Config :=
  { default with memorySize := UInt64.ofNat (64 * pageSize), kernelMemory := 0, maxTasks := 8 }

/-- What is wrong with the configuration: the first of the rules, in this
order, that it breaks. -/
def fault? (config : Config) : Option ConfigFault :=
  if config.memorySize.toNat = 0 ∨ config.memorySize.toNat % pageSize ≠ 0 then
    some .memorySize
  else if config.kernelMemory.toNat % pageSize ≠ 0 then
    some .kernelMemory
  else if config.memorySize.toNat ≤ config.kernelMemory.toNat then
    some .noFrames
  else if config.taskSize.toNat = 0 ∨ config.taskSize.toNat % pageSize ≠ 0 then
    some .taskSize
  else if config.maxTasks.toNat = 0 then
    some .maxTasks
  else if maxTimeSlice < config.defaultPriority.toNat ∨
      maxTimeSlice < config.defaultCounter.toNat then
    some .timeSlice
  else if config.hz.toNat = 0 then
    some .hz
  else
    none

/-- A configuration is without fault if it keeps to all of the rules. -/
theorem fault?_eq_none_iff {config : Config} :
    config.fault? = none ↔
      (config.memorySize.toNat ≠ 0 ∧ config.memorySize.toNat % pageSize = 0) ∧
      config.kernelMemory.toNat % pageSize = 0 ∧
      config.kernelMemory.toNat < config.memorySize.toNat ∧
      (config.taskSize.toNat ≠ 0 ∧ config.taskSize.toNat % pageSize = 0) ∧
      config.maxTasks.toNat ≠ 0 ∧
      (config.defaultPriority.toNat ≤ maxTimeSlice ∧
        config.defaultCounter.toNat ≤ maxTimeSlice) ∧
      config.hz.toNat ≠ 0 := by
  have hrule : ∀ {broken : Prop} [Decidable broken] (fault : ConfigFault)
      (rest : Option ConfigFault),
      (if broken then some fault else rest) = none ↔ ¬broken ∧ rest = none := by
    intro broken _ fault rest
    split
    · simp_all
    · simp_all
  simp only [fault?, hrule, not_or, Nat.not_le, Nat.not_lt, Decidable.not_not, and_true]

/-- Refuses a configuration that no machine can be built from. -/
def validate (config : Config) : Except KernelError Unit :=
  match config.fault? with
  | some fault => .error (.invalidConfiguration fault)
  | none => .ok ()

def totalFrames (config : Config) : Nat :=
  config.memorySize.toNat / pageSize

def reservedFrames (config : Config) : Nat :=
  config.kernelMemory.toNat / pageSize

/-- Milliseconds in a timer tick. -/
def tickMs (config : Config) : Nat :=
  1000 / config.hz.toNat

end Config

end Kernelet
