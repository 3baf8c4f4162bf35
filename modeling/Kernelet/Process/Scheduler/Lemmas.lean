import Kernelet.Process.Scheduler

/-!
What the operations of the scheduler do to `tasks`, the occupied slots in
order, and to `find?`. Changing a task in its slot moves no other
(`tasks_update`), and a task that is added or removed leaves the others in
their places and order (`filterMap_place`, `tasks_remove`).
-/

namespace Kernelet

/-- The task with a tick of its slice spent. -/
def Task.spendTick (task : Task) : Task :=
  { task with utime := task.utime + 1 }.decrementCounter

namespace Scheduler

theorem nextNumber_le (s : Scheduler) : s.nextNumber ≤ s.nextPid :=
  Nat.mod_le _ _

theorem nextNumber_lt_size (s : Scheduler) : s.nextNumber < UInt32.size :=
  Nat.mod_lt _ (by decide)

/-- As long as no number has come round, the next one is the next of the count. -/
theorem nextNumber_eq {s : Scheduler} (h : s.NumbersFit) : s.nextNumber = s.nextPid :=
  Nat.mod_eq_of_lt h

/-- What has not come round by now had not come round before. -/
theorem NumbersFit.of_le {s later : Scheduler} (h : later.NumbersFit)
    (hle : s.nextPid ≤ later.nextPid) : s.NumbersFit :=
  Nat.lt_of_le_of_lt hle h

theorem numbersFit_of_allocatePid {s : Scheduler} (h : s.allocatePid.2.NumbersFit) :
    s.NumbersFit :=
  h.of_le (Nat.le_succ _)

@[simp] theorem tasks_new (capacity : Nat) : (new capacity).tasks = [] := by
  unfold tasks new
  induction capacity with
  | zero => rfl
  | succ n ih =>
    rw [List.replicate_succ, List.filterMap_cons_none rfl]
    exact ih

theorem tasks_mapTasks (s : Scheduler) (f : Task → Task) :
    (s.mapTasks f).tasks = s.tasks.map f := by
  unfold tasks mapTasks
  rw [List.filterMap_map, List.map_filterMap]
  rfl

theorem tasks_update (s : Scheduler) (pid : Pid) (f : Task → Task) :
    (s.update pid f).tasks = s.tasks.map fun task => if task.pid = pid then f task else task :=
  s.tasks_mapTasks _

theorem mem_tasks_of_find? {s : Scheduler} {pid : Pid} {task : Task}
    (h : s.find? pid = some task) : task ∈ s.tasks :=
  List.mem_of_find?_eq_some h

theorem pid_of_find? {s : Scheduler} {pid : Pid} {task : Task}
    (h : s.find? pid = some task) : task.pid = pid := by
  have hpid := List.find?_some h
  exact beq_iff_eq.1 hpid

theorem find?_eq_none_iff {s : Scheduler} {pid : Pid} :
    s.find? pid = none ↔ ∀ task ∈ s.tasks, task.pid ≠ pid := by
  unfold find?
  rw [List.find?_eq_none]
  constructor
  · intro h task hmem heq
    exact h task hmem (beq_iff_eq.2 heq)
  · intro h task hmem heq
    exact h task hmem (beq_iff_eq.1 heq)

/-- A change that keeps the numbers of tasks commutes with looking one up. -/
theorem find?_mapTasks {s : Scheduler} {f : Task → Task} (h : ∀ task, (f task).pid = task.pid)
    (pid : Pid) : (s.mapTasks f).find? pid = (s.find? pid).map f := by
  unfold find?
  rw [tasks_mapTasks, List.find?_map]
  congr 2
  funext task
  exact congrArg (· == pid) (h task)

/-- The task that is put into the table is found there, and no other is
affected. -/
theorem find?_put {s : Scheduler} {task old : Task} (h : s.find? task.pid = some old)
    (pid : Pid) : (s.put task).find? pid = if task.pid = pid then some task else s.find? pid := by
  unfold put update
  rw [find?_mapTasks]
  · by_cases hpid : task.pid = pid
    · subst hpid
      rw [if_pos rfl, h, Option.map_some, if_pos (pid_of_find? h)]
    · rw [if_neg hpid]
      cases hfind : s.find? pid with
      | none => rfl
      | some other =>
        have hne : other.pid ≠ task.pid := fun he => hpid (he.symm.trans (pid_of_find? hfind))
        rw [Option.map_some, if_neg hne]
  · intro other
    split
    · rename_i heq
      exact heq.symm
    · rfl

theorem currentTask?_eq_some_iff {s : Scheduler} {task : Task} :
    s.currentTask? = some task ↔ ∃ pid, s.current = some pid ∧ s.find? pid = some task :=
  Option.bind_eq_some_iff

/-- Slices are refilled where nobody could be selected without. -/
theorem schedule_cases (s : Scheduler) :
    (∃ pid, s.select = some pid ∧ s.schedule = (some pid, s.switchTo (some pid))) ∨
    (s.select = none ∧ s.schedule = (s.decay.select, s.decay.switchTo s.decay.select)) := by
  unfold schedule
  cases hselect : s.select with
  | none => exact Or.inr ⟨rfl, rfl⟩
  | some pid => exact Or.inl ⟨pid, rfl, rfl⟩

/-- A tick goes to the selected task. Another is selected once the slice is used
up. -/
theorem timerTick_cases (s : Scheduler) :
    (s.currentTask? = none ∧ s.timerTick = (false, { s with jiffies := s.jiffies + 1 })) ∨
    ∃ task, s.currentTask? = some task ∧
      let after := { s with jiffies := s.jiffies + 1 }.put task.spendTick
      (task.counter - 1 = 0 ∧ s.timerTick = (true, after.schedule.2)) ∨
        (task.counter - 1 ≠ 0 ∧ s.timerTick = (false, after)) := by
  have hcurrent : { s with jiffies := s.jiffies + 1 }.currentTask? = s.currentTask? := rfl
  unfold timerTick
  dsimp only
  rw [hcurrent]
  cases s.currentTask? with
  | none => exact Or.inl ⟨rfl, rfl⟩
  | some task =>
      refine Or.inr ⟨task, rfl, ?_⟩
      by_cases hspent : task.counter - 1 = 0
      · exact Or.inl ⟨hspent, if_pos hspent⟩
      · exact Or.inr ⟨hspent, if_neg hspent⟩

/-- The selected task goes to sleep, if there is one and it is not asleep. -/
theorem sleep_cases (s : Scheduler) (interruptible : Bool) :
    (s.currentTask? = none ∧ s.sleep interruptible = .ok s.schedule) ∨
    ∃ task, s.currentTask? = some task ∧
      ((∃ e, task.block interruptible = .error e ∧ s.sleep interruptible = .error e) ∨
        ∃ blocked, task.block interruptible = .ok blocked ∧
          s.sleep interruptible = .ok (s.put blocked).schedule) := by
  unfold sleep
  cases s.currentTask? with
  | none => exact Or.inl ⟨rfl, rfl⟩
  | some task =>
      refine Or.inr ⟨task, rfl, ?_⟩
      dsimp only
      cases task.block interruptible with
      | error e => exact Or.inl ⟨e, rfl, rfl⟩
      | ok blocked => exact Or.inr ⟨blocked, rfl, rfl⟩

/-- A new task stands between the tasks of the slots before its own and those
of the slots after it. -/
theorem filterMap_place {task : Task} {slots after : List (Option Task)}
    (h : place task slots = some after) :
    ∃ before rest, slots.filterMap id = before ++ rest ∧
      after.filterMap id = before ++ task :: rest := by
  induction slots generalizing after with
  | nil => cases h
  | cons slot tail ih =>
    cases slot with
    | none =>
      cases h
      exact ⟨[], tail.filterMap id, rfl, rfl⟩
    | some other =>
      obtain ⟨placed, hplaced, rfl⟩ := Option.map_eq_some_iff.1 h
      obtain ⟨before, rest, hold, hnew⟩ := ih hplaced
      refine ⟨other :: before, rest, ?_, ?_⟩
      · rw [List.filterMap_cons_some (by rfl), hold, List.cons_append]
      · rw [List.filterMap_cons_some (by rfl), hnew, List.cons_append]

theorem mem_tasks_of_place {s : Scheduler} {task : Task} {slots : List (Option Task)}
    (h : place task slots = some s.slots) : task ∈ s.tasks := by
  obtain ⟨before, rest, -, hnew⟩ := filterMap_place h
  unfold tasks
  rw [hnew]
  exact List.mem_append_right _ List.mem_cons_self

theorem length_place {task : Task} {slots after : List (Option Task)}
    (h : place task slots = some after) : after.length = slots.length := by
  induction slots generalizing after with
  | nil => cases h
  | cons slot tail ih =>
    cases slot with
    | none =>
      cases h
      rfl
    | some other =>
      obtain ⟨placed, hplaced, rfl⟩ := Option.map_eq_some_iff.1 h
      exact congrArg (· + 1) (ih hplaced)

/-- A number that is taken cannot be taken again. -/
theorem find?_eq_none_of_add {s after : Scheduler} {task : Task} (h : s.add task = .ok after) :
    s.find? task.pid = none := by
  unfold add at h
  split at h
  · cases h
  · rename_i habsent
    simpa [contains] using habsent

/-- The task that joins the table is found there, and no other is affected. -/
theorem find?_add {s after : Scheduler} {task : Task} (h : s.add task = .ok after) (pid : Pid) :
    after.find? pid = if task.pid = pid then some task else s.find? pid := by
  have hnone := find?_eq_none_of_add h
  unfold add at h
  split at h
  · cases h
  · split at h
    · cases h
    · rename_i slots hplace
      cases h
      obtain ⟨before, rest, hold, hnew⟩ := filterMap_place hplace
      unfold find? tasks at hnone ⊢
      rw [hold, List.find?_append] at hnone ⊢
      rw [hnew, List.find?_append, List.find?_cons]
      by_cases hpid : task.pid = pid
      · subst hpid
        obtain ⟨hbefore, -⟩ := Option.or_eq_none_iff.mp hnone
        simp [hbefore]
      · rw [if_neg hpid, beq_eq_false_iff_ne.mpr hpid]

/-- There is no room exactly when every slot is taken. -/
theorem place_eq_none_iff {task : Task} {slots : List (Option Task)} :
    place task slots = none ↔ none ∉ slots := by
  induction slots with
  | nil => exact ⟨fun _ => List.not_mem_nil, fun _ => rfl⟩
  | cons slot tail ih =>
    cases slot with
    | none =>
      constructor
      · intro h
        cases h
      · intro h
        exact absurd List.mem_cons_self h
    | some other =>
      rw [place, Option.map_eq_none_iff, ih, List.mem_cons]
      constructor
      · rintro h (he | hmem)
        · cases he
        · exact h hmem
      · exact fun h hmem => h (Or.inr hmem)

/-- The tasks that stay are those of other numbers, in the order that they
had. -/
theorem tasks_remove (s : Scheduler) (pid : Pid) :
    (s.remove pid).2.tasks = s.tasks.filter fun task => task.pid != pid := by
  unfold remove
  split
  · rename_i hnone
    symm
    rw [List.filter_eq_self]
    intro task hmem
    exact bne_iff_ne.2 (find?_eq_none_iff.1 hnone task hmem)
  · simp only [tasks]
    rw [List.filterMap_map, List.filter_filterMap]
    rfl

/-- The task that is removed is not found any more, and no other is affected. -/
theorem find?_remove (s : Scheduler) (q pid : Pid) :
    (s.remove q).2.find? pid = if q = pid then none else s.find? pid := by
  unfold find?
  rw [tasks_remove, List.find?_filter]
  split
  · rename_i heq
    subst heq
    simp
  · rename_i hne
    congr 1
    funext task
    by_cases hpid : task.pid = pid
    · simp [hpid, Ne.symm hne]
    · simp [hpid]

theorem remove_fst (s : Scheduler) (pid : Pid) : (s.remove pid).1 = s.find? pid := by
  unfold remove
  split
  · rename_i h
    exact h.symm
  · rename_i task h
    exact h.symm

end Scheduler

end Kernelet
