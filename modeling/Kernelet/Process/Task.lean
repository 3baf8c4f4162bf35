import Kernelet.Memory.AddressSpace
import Kernelet.Process.Descriptors
import Kernelet.Process.Signal
import Kernelet.Text.Quoted

/-!
The task, the unit of scheduling: who it is, how much of its time slice is
left, its descriptors, signals and address space, and the state that these
move it through.

```text
             block
  runnable ---------> interruptible or uninterruptible wait
     ^  ^ <---------       |
     |       wake          |  stop, from any state but zombie
     | continue            v
     +---------------- stopped

  any state but zombie -- exit --> zombie
```
-/

namespace Kernelet

/-- The first descriptor slot that a new program image does not inherit. -/
def stdioSlots : Nat := 3

structure Task where
  pid : Pid
  /-- The parent, or 0. -/
  ppid : Pid
  name : String
  state : TaskState
  /-- What is left of the time slice. -/
  counter : Nat
  /-- Added to the time slice whenever slices are refilled. -/
  priority : Nat
  startTime : Nat
  utime : Nat
  /-- Ticks spent in the kernel. -/
  stime : Nat
  descriptors : Descriptors
  pending : SignalSet
  blocked : SignalSet
  /-- The task asked for a terminated child and there was none yet. -/
  waitingForChild : Bool
  exitCode : Option Int
  /-- The address space, until it is released. -/
  space : Option AddressSpace

/-- What a process listing shows of a task. -/
structure TaskInfo where
  pid : Pid
  ppid : Pid
  name : String
  state : TaskState
  counter : Nat
  priority : Nat
  utime : Nat
deriving DecidableEq, Repr

namespace Task

def new (pid ppid : Pid) (name : String) (space : AddressSpace) : Task where
  pid := pid
  ppid := ppid
  name := name
  state := .runnable
  counter := defaultCounter
  priority := defaultPriority
  startTime := 0
  utime := 0
  stime := 0
  descriptors := Descriptors.empty
  pending := SignalSet.empty
  blocked := SignalSet.empty
  waitingForChild := false
  exitCode := none
  space := some space

/-- The task with a priority and a time slice of its own. -/
def withTimeSlice (task : Task) (priority counter : Nat) : Task :=
  { task with priority, counter }

/-- The task as created at tick `jiffies`. -/
def startedAt (task : Task) (jiffies : Nat) : Task :=
  { task with startTime := jiffies }

/-- The child of a fork. It inherits name, priority, time slice, descriptors
and blocked signals, and starts afresh in all else. -/
def forkChild (task : Task) (pid : Pid) (space : AddressSpace) : Task :=
  { (new pid task.pid task.name space).withTimeSlice task.priority task.counter with
    descriptors := task.descriptors
    blocked := task.blocked }

/-- Whether the task may be selected: runnable, with some of its slice left. -/
def isRunnable (task : Task) : Bool :=
  task.state == .runnable && 0 < task.counter

def isZombie (task : Task) : Bool :=
  task.state == .zombie

/-- The complaint that the task cannot do that from its present state. -/
def invalidState (task : Task) : KernelError :=
  .invalidState task.pid task.state

/-- Puts a runnable task to sleep. -/
def block (task : Task) (interruptible : Bool) : Except KernelError Task :=
  if task.state = .runnable then
    .ok { task with
      state := if interruptible then .interruptibleWait else .uninterruptibleWait }
  else
    .error task.invalidState

/-- Wakes a sleeping task, and leaves any other alone. -/
def wake (task : Task) : Task :=
  if task.state.isWaiting then { task with state := .runnable } else task

/-- Suspends a task that has not terminated. -/
def stop (task : Task) : Except KernelError Task :=
  if task.isZombie then .error task.invalidState else .ok { task with state := .stopped }

/-- Resumes a stopped task, and leaves any other alone. -/
def resume (task : Task) : Task :=
  if task.state = .stopped then { task with state := .runnable } else task

/-- Terminates the task with exit code `code` and closes its descriptors. Its
address space is left for the caller to release. -/
def exit (task : Task) (code : Int) : Except KernelError Task :=
  if task.isZombie then
    .error task.invalidState
  else
    .ok { task with
      state := .zombie
      exitCode := some code
      counter := 0
      waitingForChild := false
      descriptors := task.descriptors.closeAll }

/-- The same process at the start of a new program image: no signal pending or
blocked, no time spent, and only the standard descriptors open. -/
def execReset (task : Task) : Task :=
  { task with
    pending := SignalSet.empty
    blocked := SignalSet.empty
    utime := 0
    descriptors := task.descriptors.closeFrom stdioSlots }

/-- The task after one tick of its slice. -/
def decrementCounter (task : Task) : Task :=
  { task with counter := task.counter - 1 }

/-- The task with a time slice of `counter`. -/
def setCounter (task : Task) (counter : Nat) : Task :=
  { task with counter }

/-- The task with its slice refilled: half of what was left, and the priority
on top, as far as a word can hold. -/
def decayCounter (task : Task) : Task :=
  { task with counter := min maxWord (task.counter / 2 + task.priority) }

/-- Posts a signal. It stays pending until it is cleared. Stopping, continuing
and killing also act on the state at once, the first two calling each other
off, and any other signal ends an interruptible sleep unless it is blocked. A
zombie takes no signals. -/
def send (task : Task) (signal : Signal) : Task :=
  if task.isZombie then
    task
  else
    let task := { task with pending := task.pending.insert signal }
    match signal with
    | .stop => { task with state := .stopped, pending := task.pending.erase .cont }
    | .cont => { task.resume with pending := task.pending.erase .stop }
    | .kill =>
      if task.state.isWaiting || task.state == .stopped then
        { task with state := .runnable }
      else
        task
    | _ =>
      if task.state = .interruptibleWait ∧ task.blocked.contains signal = false then
        { task with state := .runnable }
      else
        task

/-- The pending signals that are not blocked. -/
def ready (task : Task) : SignalSet :=
  task.pending.diff task.blocked

def hasPendingSignals (task : Task) : Bool :=
  !task.ready.isEmpty

/-- The signal to take next, the lowest-numbered of those that wait. -/
def nextSignal? (task : Task) : Option Signal :=
  task.ready.first?

/-- Takes a signal off the pending ones. -/
def clearSignal (task : Task) (signal : Signal) : Task :=
  { task with pending := task.pending.erase signal }

/-- Blocks a signal, if it is one that can be blocked. -/
def blockSignal (task : Task) (signal : Signal) : Task :=
  if signal.isUnblockable then task else { task with blocked := task.blocked.insert signal }

def unblockSignal (task : Task) (signal : Signal) : Task :=
  { task with blocked := task.blocked.erase signal }

/-- The task without its address space, and the pool with the frames of that
space given back. -/
def releaseSpace (task : Task) (pool : FramePool) : Task × FramePool :=
  match task.space with
  | some space => ({ task with space := none }, space.releaseFrames pool)
  | none => (task, pool)

/-- The pool once the task, and its address space with it, is gone. -/
def discard (task : Task) (pool : FramePool) : FramePool :=
  (task.releaseSpace pool).2

/-- The task with `space` in place of the address space that it had, whose
frames are given back. -/
def replaceSpace (task : Task) (space : AddressSpace) (pool : FramePool) : Task × FramePool :=
  ({ task with space := some space }, task.discard pool)

def info (task : Task) : TaskInfo where
  pid := task.pid
  ppid := task.ppid
  name := task.name
  state := task.state
  counter := task.counter
  priority := task.priority
  utime := task.utime

/-- The task in one line, for those who look for a fault. -/
def summary (task : Task) : String :=
  let code :=
    match task.exitCode with
    | some code => "Some(" ++ toString code ++ ")"
    | none => "None"
  "Task \x7b pid: " ++ toString task.pid ++ ", ppid: " ++ toString task.ppid ++
    ", name: " ++ Text.quoted task.name ++ ", state: " ++ task.state.name ++
    ", counter: " ++ toString task.counter ++ ", priority: " ++ toString task.priority ++
    ", exit_code: " ++ code ++ " \x7d"

end Task

end Kernelet
