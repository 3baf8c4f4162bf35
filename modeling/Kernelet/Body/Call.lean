import Kernelet.Kernel.Lifecycle

/-!
The calls by which the body of a process reaches the kernel, and the way of a
body through them, one critical section at a time. Between two critical
sections anything else may happen to the kernel.

A body runs only in its turn. It waits at the gate before it starts, and a call
that may give the CPU to another process waits there again before it returns.
A call takes effect only while the process is the selected one: a body that
lost the CPU to a tick from outside gives it up first and tries again.
-/

namespace Kernelet

/-- What a body may ask of the kernel. The answer to a request to its own
memory is of type `ρ`. -/
inductive Call (ρ : Type) where
  /-- Offer the CPU to the others. -/
  | yield
  /-- Sleep until woken. -/
  | sleep (interruptible : Bool)
  /-- Let one timer tick pass. -/
  | tick
  | fork
  /-- Reap a child, and sleep until there is one to reap. -/
  | wait
  | exit (code : Int)
  /-- Do something with the address space of the process. -/
  | memory (act : Memory → ρ × Memory)

inductive Reply (ρ : Type) where
  | done
  /-- The child of a fork. -/
  | child (pid : Pid)
  | reaped (pid : Pid) (code : Int)
  /-- What was found in memory. -/
  | value (answer : ρ)

/-- What a body does once it has got the CPU. -/
inductive Resume (ρ : Type) where
  /-- It starts. -/
  | start
  /-- It makes its call once more. -/
  | again (call : Call ρ)
  /-- Its call returns. -/
  | finish (reply : Reply ρ)

/-- How far a body has come. -/
inductive Point (ρ : Type) where
  /-- It waits at the gate, and last looked when the gate had made `seen`
  calls, or has not looked yet. -/
  | turning (resume : Resume ρ) (seen : Option Nat)
  | ready
  /-- It is about to enter the kernel. -/
  | entering (call : Call ρ)
  /-- It is about to give up the CPU. -/
  | leaving (resume : Resume ρ)
  /-- A call has returned. -/
  | returned (result : Except KernelError (Reply ρ))
  /-- Its own code is over. -/
  | stopping (outcome : Except KernelError Unit)
  /-- Its own code is over, and the process is still alive. -/
  | exiting (outcome : Except KernelError Unit)
  /-- The process has terminated, and the CPU is still to be given up. -/
  | departing (outcome : Except KernelError Unit)
  | ended (outcome : Except KernelError Unit)

/-- The exit code of a process whose body came to an end. -/
def bodyExitCode : Except KernelError Unit → Int
  | .ok () => 0
  | .error _ => 1

namespace Call

variable {ρ : Type}

/-- A call takes effect for the selected process `pid`. -/
def run (call : Call ρ) (k : Kernel) (pid : Pid) : Kernel × Point ρ :=
  match call with
  | .yield => (k.schedule.2, .leaving (.finish .done))
  | .sleep interruptible =>
    match k.sleep interruptible with
    | ⟨.error e, k⟩ => (k, .returned (.error e))
    | ⟨.ok _, k⟩ => (k, .leaving (.finish .done))
  | .tick => (k.timerTick.2, .leaving (.finish .done))
  | .fork =>
    match k.fork pid with
    | ⟨result, k⟩ => (k, .returned (result.map .child))
  | .wait =>
    match k.waitOrBlock pid with
    | ⟨.error e, k⟩ => (k, .returned (.error e))
    | ⟨.ok (some (child, code)), k⟩ => (k, .returned (.ok (.reaped child code)))
    | ⟨.ok none, k⟩ => (k, .leaving (.again .wait))
  | .exit code =>
    match k.exit pid code with
    | .error e => (k, .returned (.error e))
    | .ok k => (k, .returned (.ok .done))
  | .memory act =>
    match k.accessSpace pid act with
    | ⟨result, k⟩ => (k, .returned (result.map .value))

/-- A body enters the kernel. A process that is gone or has terminated gets an
error, and one that is not the selected one gives up the CPU and tries again. -/
def enter (call : Call ρ) (k : Kernel) (pid : Pid) : Kernel × Point ρ :=
  match k.find? pid with
  | none => (k, .returned (.error (.noSuchProcess pid)))
  | some task =>
    if task.isZombie then
      (k, .returned (.error task.invalidState))
    else if k.current = some pid then
      call.run k pid
    else
      (k, .leaving (.again call))

end Call

namespace Resume

variable {ρ : Type}

/-- Where a body goes on once it has its turn. -/
def passed : Resume ρ → Point ρ
  | .start => .ready
  | .again call => .entering call
  | .finish reply => .returned (.ok reply)

/-- Where a body goes on when it is turned away. One that has not started yet
never does. -/
def turnedAway : Resume ρ → Point ρ
  | .start => .ended (.error .gateClosed)
  | .again _ | .finish _ => .returned (.error .gateClosed)

end Resume

namespace Point

variable {ρ : Type}

def start : Point ρ :=
  .turning .start none

/-- One critical section of the body of `pid`. Nothing happens where the next
step is up to the body's own code, or the body is gone. -/
def advance (k : Kernel) (pid : Pid) : Point ρ → Kernel × Point ρ
  | .turning resume _ =>
    match k.gate.look pid with
    | .closed => (k, resume.turnedAway)
    | .passed gate => ({ k with gate }, resume.passed)
    | .wait => (k, .turning resume (some k.gate.calls))
  | .entering call => call.enter k pid
  | .leaving resume => ({ k with gate := k.gate.release pid }, .turning resume none)
  | .stopping outcome =>
    let alive := (k.find? pid).any fun task => !task.isZombie
    (k, if alive then .exiting outcome else .departing outcome)
  | .exiting outcome =>
    match k.exit pid (bodyExitCode outcome) with
    | .ok k => (k, .departing outcome)
    | .error _ => (k, .departing outcome)
  | .departing outcome => ({ k with gate := k.gate.release pid }, .ended outcome)
  | .ready => (k, .ready)
  | .returned result => (k, .returned result)
  | .ended outcome => (k, .ended outcome)

/-- Whether the body waits at the gate and has not been called since it last
looked. -/
def isParked (gate : Gate) : Point ρ → Bool
  | .turning _ (some seen) => gate.calls ≤ seen
  | _ => false

def isEnded : Point ρ → Bool
  | .ended _ => true
  | _ => false

/-- Whether the body has passed the gate and not given the CPU up since. -/
def isExecuting : Point ρ → Bool
  | .turning _ _ | .ended _ => false
  | _ => true

end Point

end Kernelet
