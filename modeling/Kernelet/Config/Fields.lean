import Kernelet.Config.Basic

/-!
The fields of a configuration by name and number, for reading and writing.
-/

namespace Kernelet.Config

inductive Field where
  | memorySize
  | kernelMemory
  | taskSize
  | maxTasks
  | defaultPriority
  | defaultCounter
  | hz
deriving DecidableEq, Repr

namespace Field

/-- All fields, in the order in which they are written. -/
def all : List Field :=
  [memorySize, kernelMemory, taskSize, maxTasks, defaultPriority, defaultCounter, hz]

/-- The name of a field in a file. -/
def key : Field → String
  | memorySize => "memory_size"
  | kernelMemory => "kernel_memory"
  | taskSize => "task_size"
  | maxTasks => "max_tasks"
  | defaultPriority => "default_priority"
  | defaultCounter => "default_counter"
  | hz => "hz"

/-- The field with a name. -/
def ofKey? (key : String) : Option Field :=
  all.find? fun field => field.key == key

/-- The values of a field are the numbers below its limit. -/
def limit : Field → Nat
  | memorySize | kernelMemory | taskSize | maxTasks => UInt64.size
  | defaultPriority | defaultCounter | hz => UInt32.size

theorem mem_all (field : Field) : field ∈ all := by
  cases field <;> decide

/-- The name of a field leads back to it. -/
theorem ofKey?_key (field : Field) : ofKey? field.key = some field := by
  cases field <;> decide

end Field

def get (config : Config) : Field → Nat
  | .memorySize => config.memorySize.toNat
  | .kernelMemory => config.kernelMemory.toNat
  | .taskSize => config.taskSize.toNat
  | .maxTasks => config.maxTasks.toNat
  | .defaultPriority => config.defaultPriority.toNat
  | .defaultCounter => config.defaultCounter.toNat
  | .hz => config.hz.toNat

def set (config : Config) (field : Field) (value : Nat) : Config :=
  match field with
  | .memorySize => { config with memorySize := UInt64.ofNat value }
  | .kernelMemory => { config with kernelMemory := UInt64.ofNat value }
  | .taskSize => { config with taskSize := UInt64.ofNat value }
  | .maxTasks => { config with maxTasks := UInt64.ofNat value }
  | .defaultPriority => { config with defaultPriority := UInt32.ofNat value }
  | .defaultCounter => { config with defaultCounter := UInt32.ofNat value }
  | .hz => { config with hz := UInt32.ofNat value }

end Kernelet.Config
