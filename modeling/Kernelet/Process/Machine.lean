import Kernelet.Process.Scheduler

/-!
The process table together with the memory that its tasks live in. A task that
leaves the table, or is refused by it, gives its frames back.
-/

namespace Kernelet

/-- A process table and the pool of frames behind it. -/
structure Machine where
  sched : Scheduler
  pool : FramePool

namespace Machine

/-- Puts a task into the table. A task that is refused is let go. -/
def add (m : Machine) (task : Task) : Outcome Machine Unit :=
  match m.sched.add task with
  | .ok sched => ⟨.ok (), { m with sched }⟩
  | .error e => ⟨.error e, { m with pool := task.discard m.pool }⟩

/-- Takes a task out of the table and lets it go. -/
def remove (m : Machine) (pid : Pid) : Option Task × Machine :=
  match m.sched.remove pid with
  | (none, sched) => (none, { m with sched })
  | (some task, sched) => (some task, { sched, pool := task.discard m.pool })

end Machine

end Kernelet
