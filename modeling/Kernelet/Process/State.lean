/-!
The states of a task's life, and the process numbers by which tasks are known.
-/

namespace Kernelet

/-- A process number. Those that a kernel hands out are words of 32 bits. 0 stands for
no process where a parent is named. -/
abbrev Pid := Nat

/-- The first process. -/
def initPid : Pid := 1

/-- Where a task stands between its creation and its reaping. -/
inductive TaskState where
  /-- May be selected while its time slice lasts. -/
  | runnable
  /-- Asleep; an explicit wake or a signal ends it. -/
  | interruptibleWait
  /-- Asleep; only an explicit wake ends it. -/
  | uninterruptibleWait
  /-- Suspended until it is continued. -/
  | stopped
  /-- Terminated, and kept until its parent has asked for the exit code. -/
  | zombie
deriving DecidableEq, Repr

namespace TaskState

def isWaiting : TaskState → Bool
  | interruptibleWait | uninterruptibleWait => true
  | runnable | stopped | zombie => false

/-- How the state is named in prose. -/
def text : TaskState → String
  | runnable => "runnable"
  | interruptibleWait => "interruptible wait"
  | uninterruptibleWait => "uninterruptible wait"
  | stopped => "stopped"
  | zombie => "zombie"

def name : TaskState → String
  | runnable => "Runnable"
  | interruptibleWait => "InterruptibleWait"
  | uninterruptibleWait => "UninterruptibleWait"
  | stopped => "Stopped"
  | zombie => "Zombie"

end TaskState

end Kernelet
