import Kernelet.Process.Task

/-!
Round robin with decaying priorities over a fixed table of slots. The task
with the greatest time slice left runs, and among equals the one in the lowest
slot. When no runnable task has any slice left, every task that has not
terminated gets half of what it had and its priority on top. A task that slept
through keeps half of its slice, and so comes back ahead of one that used its
slice up.

Tasks are numbered in the order in which they are created. Numbers are words of
32 bits, and once all of them have been handed out they come round.
-/

namespace Kernelet

/-- The table of tasks and the choice of the one that runs. -/
structure Scheduler where
  slots : List (Option Task)
  current : Option Pid
  /-- The number of the next task to be created, on a count without end. The task
  gets its remainder, `nextNumber`. -/
  nextPid : Nat
  jiffies : Nat
  /-- How often another task was selected. -/
  contextSwitches : Nat

namespace Scheduler

/-- A table of `capacity` empty slots. -/
def new (capacity : Nat) : Scheduler where
  slots := List.replicate capacity none
  current := none
  nextPid := 1
  jiffies := 0
  contextSwitches := 0

def capacity (s : Scheduler) : Nat :=
  s.slots.length

/-- All tasks, in slot order. -/
def tasks (s : Scheduler) : List Task :=
  s.slots.filterMap id

def find? (s : Scheduler) (pid : Pid) : Option Task :=
  s.tasks.find? fun task => task.pid == pid

def contains (s : Scheduler) (pid : Pid) : Bool :=
  (s.find? pid).isSome

def currentTask? (s : Scheduler) : Option Task :=
  s.current.bind s.find?

/-- The children of `ppid`, in slot order. -/
def childrenOf (s : Scheduler) (ppid : Pid) : List Task :=
  s.tasks.filter fun task => task.ppid == ppid

/-- The same table with every task seen through `f`. -/
def mapTasks (s : Scheduler) (f : Task → Task) : Scheduler :=
  { s with slots := s.slots.map (Option.map f) }

/-- The same table with the task numbered `pid` seen through `f`. -/
def update (s : Scheduler) (pid : Pid) (f : Task → Task) : Scheduler :=
  s.mapTasks fun task => if task.pid = pid then f task else task

/-- The same table with `task` in place of the task of that number. -/
def put (s : Scheduler) (task : Task) : Scheduler :=
  s.update task.pid fun _ => task

/-- The number that is handed out next. After the last word of 32 bits comes 0. -/
def nextNumber (s : Scheduler) : Pid :=
  s.nextPid % UInt32.size

/-- The count of numbers is a word still, so that no number has come round: those that
were handed out are all different. -/
def NumbersFit (s : Scheduler) : Prop :=
  s.nextPid < UInt32.size

instance (s : Scheduler) : Decidable s.NumbersFit :=
  inferInstanceAs (Decidable (s.nextPid < UInt32.size))

/-- Hands out a number. -/
def allocatePid (s : Scheduler) : Pid × Scheduler :=
  (s.nextNumber, { s with nextPid := s.nextPid + 1 })

/-- The slots with `task` in the first empty one, if there is one. -/
def place (task : Task) : List (Option Task) → Option (List (Option Task))
  | [] => none
  | none :: rest => some (some task :: rest)
  | some other :: rest => (place task rest).map (some other :: ·)

/-- Puts a task into the first empty slot. -/
def add (s : Scheduler) (task : Task) : Except KernelError Scheduler :=
  if s.contains task.pid then
    .error (.alreadyExists task.pid)
  else
    match place task s.slots with
    | none => .error .processTableFull
    | some slots => .ok { s with slots }

/-- Takes a task out of the table. If it was selected to run, none is now. -/
def remove (s : Scheduler) (pid : Pid) : Option Task × Scheduler :=
  match s.find? pid with
  | none => (none, s)
  | some task =>
    (some task,
      { s with
        slots := s.slots.map fun slot => slot.filter fun task => task.pid != pid
        current := if s.current = some pid then none else s.current })

/-- The better of the best task so far and the next one: a later task has to
have strictly more of its slice left. -/
def better (best : Option Task) (task : Task) : Option Task :=
  match best with
  | none => some task
  | some b => if b.counter < task.counter then some task else some b

/-- The runnable task with the most of its slice left. -/
def select (s : Scheduler) : Option Pid :=
  (((s.tasks.filter Task.isRunnable).foldl better none)).map Task.pid

/-- Refills the slice of every task that has not terminated. -/
def decay (s : Scheduler) : Scheduler :=
  s.mapTasks fun task => if task.isZombie then task else task.decayCounter

def switchTo (s : Scheduler) (next : Option Pid) : Scheduler :=
  { s with
    current := next
    contextSwitches :=
      if next.isSome && next != s.current then s.contextSwitches + 1 else s.contextSwitches }

/-- Selects the task to run next, refilling the slices first if no runnable
task has any left. -/
def schedule (s : Scheduler) : Option Pid × Scheduler :=
  match s.select with
  | some pid => (some pid, s.switchTo (some pid))
  | none =>
    let s := s.decay
    let next := s.select
    (next, s.switchTo next)

/-- One timer tick. The running task spends a tick of its slice; once the slice
is used up another task is selected, and the answer is `true`. -/
def timerTick (s : Scheduler) : Bool × Scheduler :=
  let s := { s with jiffies := s.jiffies + 1 }
  match s.currentTask? with
  | none => (false, s)
  | some task =>
    let task := { task with utime := task.utime + 1 }.decrementCounter
    let s := s.put task
    if task.counter = 0 then (true, s.schedule.2) else (false, s)

/-- Puts the running task to sleep and selects another. -/
def sleep (s : Scheduler) (interruptible : Bool) :
    Except KernelError (Option Pid × Scheduler) :=
  match s.currentTask? with
  | none => .ok s.schedule
  | some task =>
    match task.block interruptible with
    | .error e => .error e
    | .ok task => .ok (s.put task).schedule

/-- Wakes every sleeping task and tells how many there were. -/
def wakeAll (s : Scheduler) : Nat × Scheduler :=
  (s.tasks.countP fun task => task.state.isWaiting, s.mapTasks Task.wake)

/-- The process listing, in slot order. -/
def processList (s : Scheduler) : List TaskInfo :=
  s.tasks.map Task.info

end Scheduler

end Kernelet
