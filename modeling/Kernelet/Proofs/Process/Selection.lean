import Kernelet.Proofs.Process.Balance

/-!
Whoever is selected can run. A selection answers with a task of the table that is
runnable and has some of its slice left (`canRun_of_schedule`), and what happens
to other tasks afterwards leaves it so (`CanRun.put_of_ne`, `CanRun.mapTasks`).
-/

namespace Kernelet

theorem Task.isRunnable_iff {task : Task} :
    task.isRunnable = true ↔ task.state = .runnable ∧ 0 < task.counter := by
  simp [isRunnable]

/-- The change leaves a task its number, and whoever can run can run after it. -/
structure Task.KeepsRunnable (change : Task → Task) : Prop where
  pid : ∀ task, (change task).pid = task.pid
  isRunnable : ∀ task, task.isRunnable = true → (change task).isRunnable = true

namespace Task.KeepsRunnable

variable {change : Task → Task}

theorem ite (h : KeepsRunnable change) (concerns : Task → Prop) [DecidablePred concerns] :
    KeepsRunnable fun task => if concerns task then change task else task := by
  constructor
  · intro task
    split
    · exact h.pid task
    · rfl
  · intro task hruns
    split
    · exact h.isRunnable task hruns
    · exact hruns

theorem wake : KeepsRunnable Task.wake := by
  constructor
  · intro task
    exact pid_eq_of_outline task.outline_wake
  · intro task hruns
    have hstate := (isRunnable_iff.mp hruns).1
    simpa [Task.wake, hstate, TaskState.isWaiting] using hruns

end Task.KeepsRunnable

namespace Scheduler

variable {s after : Scheduler} {pid : Pid}

/-- Process `pid` is in the table, runnable, and has some of its slice left. -/
def CanRun (s : Scheduler) (pid : Pid) : Prop :=
  ∃ task ∈ s.tasks, task.pid = pid ∧ task.isRunnable = true

/-- Every task that has not terminated owns a space. -/
def Housed (s : Scheduler) : Prop :=
  ∀ task ∈ s.tasks, task.isZombie = false → task.space.isSome = true

theorem mem_of_foldl_better {tasks : List Task} {best : Option Task} {task : Task}
    (h : tasks.foldl better best = some task) : best = some task ∨ task ∈ tasks := by
  induction tasks generalizing best with
  | nil => exact Or.inl h
  | cons first rest ih =>
      rcases ih h with hbetter | hrest
      · unfold better at hbetter
        split at hbetter
        · simp_all
        · split at hbetter
          · simp_all
          · exact Or.inl hbetter
      · exact Or.inr (List.mem_cons_of_mem first hrest)

theorem canRun_of_select (h : s.select = some pid) : s.CanRun pid := by
  obtain ⟨task, hbest, hpid⟩ := Option.map_eq_some_iff.mp h
  rcases mem_of_foldl_better hbest with hnone | hmem
  · cases hnone
  · obtain ⟨htask, hruns⟩ := List.mem_filter.mp hmem
    exact ⟨task, htask, hpid, hruns⟩

theorem schedule_fst (s : Scheduler) : s.schedule.1 = s.schedule.2.current := by
  rcases s.schedule_cases with ⟨pid, -, hrun⟩ | ⟨-, hrun⟩
  · rw [hrun]
    rfl
  · rw [hrun]
    rfl

/-- Whoever has just been selected can run. -/
theorem canRun_of_schedule (h : s.schedule.2.current = some pid) : s.schedule.2.CanRun pid := by
  rcases s.schedule_cases with ⟨next, hselect, hrun⟩ | ⟨-, hrun⟩
  · rw [hrun] at h ⊢
    cases h
    exact canRun_of_select hselect
  · rw [hrun] at h ⊢
    exact canRun_of_select h

/-- Whoever can run is found in the table as one that can. -/
theorem CanRun.isRunnable_of_find? (h : s.CanRun pid) (hproper : s.Proper) {task : Task}
    (hfind : s.find? pid = some task) : task.isRunnable = true := by
  obtain ⟨other, hmem, hpid, hruns⟩ := h
  rw [(find?_eq_some_iff hproper).mpr ⟨hmem, hpid⟩] at hfind
  cases hfind
  exact hruns

theorem not_canRun_of_zombie (hproper : s.Proper) {task : Task} (hfind : s.find? pid = some task)
    (hdead : task.isZombie = true) : ¬ s.CanRun pid := by
  intro h
  have hstate := (Task.isRunnable_iff.mp (h.isRunnable_of_find? hproper hfind)).1
  simp [Task.isZombie, hstate] at hdead

namespace CanRun

theorem mapTasks (h : s.CanRun pid) {change : Task → Task} (hkeeps : Task.KeepsRunnable change) :
    (s.mapTasks change).CanRun pid := by
  obtain ⟨task, hmem, hpid, hruns⟩ := h
  refine ⟨change task, ?_, (hkeeps.pid task).trans hpid, hkeeps.isRunnable task hruns⟩
  rw [tasks_mapTasks]
  exact List.mem_map_of_mem hmem

/-- What becomes of another task does not matter. -/
theorem put_of_ne (h : s.CanRun pid) {new : Task} (hne : pid ≠ new.pid) :
    (s.put new).CanRun pid := by
  obtain ⟨task, hmem, hpid, hruns⟩ := h
  refine ⟨task, ?_, hpid, hruns⟩
  unfold put
  rw [tasks_update]
  refine List.mem_map.mpr ⟨task, hmem, if_neg ?_⟩
  rw [hpid]
  exact hne

/-- A task that is put back can run if it could before. -/
theorem put (h : s.CanRun pid) (hproper : s.Proper) {task new : Task} {q : Pid}
    (hfind : s.find? q = some task) (hnew : new.pid = task.pid)
    (hruns : task.isRunnable = true → new.isRunnable = true) : (s.put new).CanRun pid := by
  by_cases hne : pid = new.pid
  · obtain ⟨old, hmem, hpid, hold⟩ := h
    have hsame : old = task :=
      eq_of_pid_eq hproper (mem_tasks_of_find? hfind) hmem (hpid.trans (hne.trans hnew))
    rw [hsame] at hold
    refine ⟨new, ?_, hne.symm, hruns hold⟩
    have hput : s.find? new.pid = some task := by
      rw [hnew, pid_of_find? hfind]
      exact hfind
    exact (tasks_put_perm hproper hput).mem_iff.mpr List.mem_cons_self
  · exact h.put_of_ne hne

theorem of_subset (h : s.CanRun pid) (hsub : s.tasks ⊆ after.tasks) : after.CanRun pid := by
  obtain ⟨task, hmem, hpid, hruns⟩ := h
  exact ⟨task, hsub hmem, hpid, hruns⟩

/-- A zombie that is taken out of the table was not selected. -/
theorem remove (h : s.CanRun pid) {q : Pid} (hne : pid ≠ q) : (s.remove q).2.CanRun pid := by
  obtain ⟨task, hmem, hpid, hruns⟩ := h
  refine ⟨task, ?_, hpid, hruns⟩
  rw [tasks_remove, List.mem_filter]
  refine ⟨hmem, ?_⟩
  simpa [hpid] using hne

end CanRun

namespace Housed

theorem of_new (capacity : Nat) : (new capacity).Housed := by
  simp [Housed]

theorem of_sameOutline (h : s.Housed) (hsame : s.SameOutline after) : after.Housed := by
  intro task hmem hlive
  have houtline : task.outline ∈ s.tasks.map Task.outline := by
    rw [← hsame.tasks_eq]
    exact List.mem_map_of_mem hmem
  obtain ⟨old, hold, heq⟩ := List.mem_map.mp houtline
  rw [← Task.space_eq_of_outline heq]
  exact h old hold ((Task.isZombie_eq_of_outline heq).trans hlive)

theorem mapTasks (h : s.Housed) {change : Task → Task} (hkeeps : Task.KeepsSpace change) :
    (s.mapTasks change).Housed := by
  intro task hmem hlive
  rw [tasks_mapTasks] at hmem
  obtain ⟨old, hold, rfl⟩ := List.mem_map.mp hmem
  rw [hkeeps.space]
  exact h old hold ((hkeeps.isZombie old).symm.trans hlive)

theorem put (h : s.Housed) {new : Task}
    (hnew : new.isZombie = false → new.space.isSome = true) : (s.put new).Housed := by
  intro task hmem hlive
  unfold Scheduler.put at hmem
  rw [tasks_update] at hmem
  obtain ⟨old, hold, rfl⟩ := List.mem_map.mp hmem
  split at hlive
  · rw [if_pos (by assumption)]
    exact hnew hlive
  · rw [if_neg (by assumption)]
    exact h old hold hlive

theorem add (h : s.Housed) {task : Task} (hspace : task.space.isSome = true)
    (hrun : s.add task = .ok after) : after.Housed := by
  intro other hmem hlive
  rcases List.mem_cons.mp ((tasks_add_perm hrun).mem_iff.mp hmem) with rfl | hold
  · exact hspace
  · exact h other hold hlive

theorem remove (h : s.Housed) (q : Pid) : (s.remove q).2.Housed := by
  intro task hmem
  rw [tasks_remove] at hmem
  exact h task (List.mem_filter.mp hmem).1

end Housed

theorem current_add {task : Task} (hrun : s.add task = .ok after) :
    after.current = s.current := by
  unfold add at hrun
  split at hrun
  · cases hrun
  · split at hrun
    · cases hrun
    · cases hrun
      rfl

theorem current_remove (s : Scheduler) (pid : Pid) :
    (s.remove pid).2.current = s.current ∨
      (s.current = some pid ∧ (s.remove pid).2.current = none) := by
  unfold remove
  split
  · exact Or.inl rfl
  · by_cases hcurrent : s.current = some pid
    · exact Or.inr ⟨hcurrent, if_pos hcurrent⟩
    · exact Or.inl (if_neg hcurrent)

end Scheduler

end Kernelet
