import Kernelet.Config.Basic
import Kernelet.Gate
import Kernelet.Memory.Fork
import Kernelet.Memory.Request
import Kernelet.Process.Machine

/-!
The kernel: a configured machine and the execution gate in front of it.
Whenever the kernel selects a task to run, the token of the gate goes to it.
-/

namespace Kernelet

/-- Pages of the image of the first process. -/
def initPages : Nat := 4

/-- A running kernel. -/
structure Kernel extends Machine where
  config : Config
  gate : Gate

namespace Kernel

/-- Starts a kernel, if the configuration is one for which that can be done. -/
def boot (config : Config) : Except KernelError Kernel :=
  match config.validate with
  | .error e => .error e
  | .ok () =>
    .ok {
      sched := Scheduler.new config.maxTasks.toNat
      pool := FramePool.new config.totalFrames config.reservedFrames
      config := config
      gate := Gate.new }

def find? (k : Kernel) (pid : Pid) : Option Task :=
  k.sched.find? pid

def current (k : Kernel) : Option Pid :=
  k.sched.current

/-- An empty address space of the configured size. -/
def newSpace (k : Kernel) : AddressSpace :=
  AddressSpace.new k.config.taskSize.toNat

/-- The kernel with its token handed to `pid`. -/
def grant (k : Kernel) (pid : Option Pid) : Kernel :=
  { k with gate := k.gate.grant pid }

/-- The kernel with another machine behind the same gate. -/
def withMachine (k : Kernel) (m : Machine) : Kernel :=
  { k with toMachine := m }

/-- The image of a new process: `pages` zeroed pages from address 0 on, which
are its data segment. -/
def newImage (k : Kernel) (pages : Nat) : Outcome Memory Unit :=
  match (Memory.mk k.newSpace k.pool).mapPages 0 .userData pages with
  | ⟨.error e, m⟩ => ⟨.error e, m.release⟩
  | ⟨.ok (), m⟩ => ⟨.ok (), { m with space := m.space.setData 0 (pages * pageSize) }⟩

/-- Creates a runnable process with a data segment of `pages` zeroed pages and
returns its number. A parent of 0 stands for none. -/
def spawn (k : Kernel) (name : String) (parent : Pid) (pages : Nat) : Outcome Kernel Pid :=
  if parent ≠ 0 ∧ k.sched.contains parent = false then
    ⟨.error (.noSuchProcess parent), k⟩
  else
    match k.newImage pages with
    | ⟨.error e, m⟩ => ⟨.error e, { k with pool := m.pool }⟩
    | ⟨.ok (), m⟩ =>
      let (pid, sched) := k.sched.allocatePid
      let task := ((Task.new pid parent name m.space).withTimeSlice
        k.config.defaultPriority.toNat k.config.defaultCounter.toNat).startedAt sched.jiffies
      match Machine.add ⟨sched, m.pool⟩ task with
      | ⟨result, machine⟩ => ⟨result.map fun () => pid, k.withMachine machine⟩

/-- Creates the first process, unless there is one of that number. -/
def createInit (k : Kernel) : Outcome Kernel Pid :=
  if k.sched.contains initPid then
    ⟨.error (.alreadyExists initPid), k⟩
  else
    k.spawn "init" 0 initPages

def schedule (k : Kernel) : Option Pid × Kernel :=
  let (next, sched) := k.sched.schedule
  (next, { k with sched }.grant next)

def timerTick (k : Kernel) : Bool × Kernel :=
  match k.sched.timerTick with
  | (true, sched) => (true, { k with sched }.grant sched.current)
  | (false, sched) => (false, { k with sched })

/-- Puts the running task to sleep, selects another and hands it the token. -/
def sleep (k : Kernel) (interruptible : Bool) : Outcome Kernel (Option Pid) :=
  match k.sched.sleep interruptible with
  | .error e => ⟨.error e, k⟩
  | .ok (next, sched) => ⟨.ok next, { k with sched }.grant next⟩

/-- Wakes every sleeping task and tells how many there were. The running task
keeps running. -/
def wakeAll (k : Kernel) : Nat × Kernel :=
  let (count, sched) := k.sched.wakeAll
  (count, { k with sched })

/-- Does something with the address space of process `pid`. A task whose address
space is gone cannot do that any more. -/
def accessSpace {α : Type} (k : Kernel) (pid : Pid) (act : Memory → α × Memory) :
    Outcome Kernel α :=
  match k.find? pid with
  | none => ⟨.error (.noSuchProcess pid), k⟩
  | some task =>
    match task.space with
    | none => ⟨.error task.invalidState, k⟩
    | some space =>
      let (answer, m) := act ⟨space, k.pool⟩
      let sched := k.sched.put { task with space := some m.space }
      ⟨.ok answer, { k with sched, pool := m.pool }⟩

def shutdown (k : Kernel) : Kernel :=
  { k with gate := k.gate.close }

end Kernel

end Kernelet
