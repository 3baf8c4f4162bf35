import Kernelet.Process.Scheduler

/-!
What may be asked of a process table, as data, and the answers. A history of a table is a list
of these requests. A task that is added may have any number, one that was handed out or not.
-/

namespace Kernelet.Scheduler

/-- A request to a process table. -/
inductive Request where
  | allocatePid
  | add (task : Task)
  | remove (pid : Pid)
  | schedule
  | timerTick
  | sleep (interruptible : Bool)
  | wakeAll

/-- The answer to a request that succeeds. -/
inductive Reply where
  | done
  /-- The number that was handed out. -/
  | pid (pid : Pid)
  /-- The task that was taken out, if there was one. -/
  | removed (task : Option Task)
  /-- Who is selected now. -/
  | selected (next : Option Pid)
  /-- Whether the tick used up a slice. -/
  | ticked (rescheduled : Bool)
  /-- How many tasks were asleep. -/
  | woken (count : Nat)

def serve (s : Scheduler) : Request → Outcome Scheduler Reply
  | .allocatePid =>
    let (pid, after) := s.allocatePid
    ⟨.ok (.pid pid), after⟩
  | .add task =>
    match s.add task with
    | .ok after => ⟨.ok .done, after⟩
    | .error e => ⟨.error e, s⟩
  | .remove pid =>
    let (task, after) := s.remove pid
    ⟨.ok (.removed task), after⟩
  | .schedule =>
    let (next, after) := s.schedule
    ⟨.ok (.selected next), after⟩
  | .timerTick =>
    let (rescheduled, after) := s.timerTick
    ⟨.ok (.ticked rescheduled), after⟩
  | .sleep interruptible =>
    match s.sleep interruptible with
    | .ok (next, after) => ⟨.ok (.selected next), after⟩
    | .error e => ⟨.error e, s⟩
  | .wakeAll =>
    let (count, after) := s.wakeAll
    ⟨.ok (.woken count), after⟩

/-- The table after requests that were served in turn. -/
def serveAll (s : Scheduler) (requests : List Request) : Scheduler :=
  requests.foldl (fun s request => (s.serve request).state) s

end Kernelet.Scheduler
