import Kernelet.Proofs.Process.Table

/-!
What the table tells of the end of a process. While a process lives it has no
fate, and from its end on its fate is its exit code, until it leaves the table.
Slices, signals, sleep, parents and spaces do not enter into it.
-/

namespace Kernelet

namespace Task

/-- The exit code of a task that has terminated. One that lives has none. -/
def fate (task : Task) : Option Int :=
  if task.isZombie then some (task.exitCode.getD 0) else none

/-- A task with its number, as far as its fate goes. -/
def entry (task : Task) : Pid × Option Int :=
  (task.pid, task.fate)

theorem fate_of_live {task : Task} (h : task.isZombie = false) : task.fate = none := by
  simp [fate, h]

theorem fate_of_isZombie {task : Task} (h : task.isZombie = true) :
    task.fate = some (task.exitCode.getD 0) := by
  simp [fate, h]

theorem fate_eq_none_iff {task : Task} : task.fate = none ↔ task.isZombie = false := by
  simp [fate]

theorem lasting_entry : Lasting entry where
  counter _ _ := rfl
  utime _ _ := rfl
  live := by
    intro task state pending hlive hstate
    have hafter : { task with state, pending }.isZombie = false := isZombie_of_state hstate
    unfold entry
    rw [fate_of_live hlive, fate_of_live hafter]

end Task

namespace Scheduler

variable {s after : Scheduler}

/-- What the table tells of process `pid`: nothing if it is not there, that it
lives, or the exit code that it has terminated with. -/
def fate? (s : Scheduler) (pid : Pid) : Option (Option Int) :=
  (s.find? pid).map Task.fate

theorem fate?_eq_none_iff {pid : Pid} : s.fate? pid = none ↔ s.find? pid = none := by
  simp [fate?]

theorem fate?_of_find? {pid : Pid} {task : Task} (h : s.find? pid = some task) :
    s.fate? pid = some task.fate := by
  simp [fate?, h]

/-- Tables that agree in number and fate of their tasks tell the same of everybody. -/
theorem SameView.fate?_eq (h : SameView Task.entry s after) (pid : Pid) :
    after.fate? pid = s.fate? pid := by
  have hlookup : ∀ s : Scheduler, s.fate? pid =
      ((s.tasks.map Task.entry).find? fun entry => entry.1 == pid).map Prod.snd := by
    intro s
    unfold fate? find?
    rw [List.find?_map, Option.map_map]
    rfl
  rw [hlookup, hlookup, h.tasks_eq]

theorem fate?_put (task : Task) {old : Task} (h : s.find? task.pid = some old) (pid : Pid) :
    (s.put task).fate? pid = if task.pid = pid then some task.fate else s.fate? pid := by
  unfold fate?
  rw [find?_put h]
  split <;> rfl

theorem fate?_add {task : Task} (h : s.add task = .ok after) (pid : Pid) :
    after.fate? pid = if task.pid = pid then some task.fate else s.fate? pid := by
  unfold fate?
  rw [find?_add h]
  split <;> rfl

theorem fate?_remove (s : Scheduler) (q pid : Pid) :
    (s.remove q).2.fate? pid = if q = pid then none else s.fate? pid := by
  unfold fate?
  rw [find?_remove]
  split <;> rfl

end Scheduler

end Kernelet
