import Kernelet.Proofs.Kernel.Lifecycle
import Kernelet.Proofs.Process.Slices

/-!
What the end of a task makes of the tasks of the table (`Task.afterEnd`): the task itself is
left as a zombie, its children have the heir for a parent, and its own parent is told
(`Task.told`). A signal that is pending at a task changes nothing about who runs, so that it
may be posted before a selection as well as after it (`Scheduler.schedule_update`).
-/

namespace Kernelet

namespace Task

/-- Nothing is left open by a task that has ended. -/
theorem terminated_eq (task : Task) (code : Int) :
    task.terminated code = { task with
      state := .zombie
      exitCode := some code
      counter := 0
      waitingForChild := false
      descriptors := Descriptors.empty
      space := none } := by
  have hclosed : task.descriptors.closeAll = Descriptors.empty := by
    apply Vector.ext
    intro i hi
    simp [Descriptors.closeAll, Descriptors.closeFrom, Descriptors.empty]
  unfold terminated
  rw [hclosed]

/-- The task once it has been told that one of its children has ended. A zombie is told
nothing, and stops waiting. -/
def told (task : Task) : Task :=
  if task.state = .zombie then { task with waitingForChild := false }
  else
    { task with
      pending := task.pending.insert .chld
      waitingForChild := false
      state :=
        if task.state = .runnable ∨
            ((task.state = .interruptibleWait ∨ task.state = .uninterruptibleWait) ∧
              task.waitingForChild = true) ∨
            (task.state = .interruptibleWait ∧ task.blocked.contains .chld = false) then
          .runnable
        else
          task.state }

/-- What the end of task `pid`, whose parent is `ppid`, makes of a task. -/
def afterEnd (pid ppid : Pid) (code : Int) (task : Task) : Task :=
  let task := { task with
    ppid := if task.ppid = pid then if pid = initPid then 0 else initPid else task.ppid }
  if task.pid = pid then task.terminated code
  else if task.pid = ppid then task.told
  else task

/-- The task with a signal pending. -/
def post (signal : Signal) (task : Task) : Task :=
  { task with pending := task.pending.insert signal }

theorem pid_told (task : Task) : task.told.pid = task.pid := by
  unfold told
  split <;> rfl

theorem pid_afterEnd (pid ppid : Pid) (code : Int) (task : Task) :
    (task.afterEnd pid ppid code).pid = task.pid := by
  unfold afterEnd
  dsimp only
  split
  · rfl
  · split
    · exact pid_told _
    · rfl

theorem afterEnd_self {task : Task} (hparent : task.ppid ≠ task.pid) (ppid : Pid) (code : Int) :
    task.afterEnd task.pid ppid code = task.terminated code := by
  unfold afterEnd
  rw [if_neg hparent]
  exact if_pos rfl

/-- Who is told by the kernel is told. -/
theorem notifyParent_eq (task : Task) : Kernel.notifyParent task = task.told := by
  obtain ⟨pid, ppid, name, state, counter, priority, startTime, utime, stime, descriptors,
    pending, blocked, waiting, exitCode, space⟩ := task
  cases state with
  | runnable => cases waiting <;> rfl
  | stopped => cases waiting <;> rfl
  | zombie => cases waiting <;> rfl
  | uninterruptibleWait => cases waiting <;> rfl
  | interruptibleWait =>
      cases hblocked : blocked.contains .chld <;> cases waiting <;>
        simp [Kernel.notifyParent, send, isZombie, wake, told, TaskState.isWaiting, hblocked]

/-- Whom a kill reaches has the signal pending, and may have been woken for it. -/
theorem send_kill {task : Task} (h : task.state ≠ .zombie) :
    ∃ state, task.send .kill = { task.post .kill with state } := by
  have hlive : task.isZombie = false := isZombie_of_state h
  unfold send
  rw [hlive, if_neg (by simp)]
  dsimp only
  split
  · exact ⟨.runnable, rfl⟩
  · exact ⟨task.state, rfl⟩

/-- The change leaves a task its number, and everything that decides when it runs. -/
structure KeepsTurn (change : Task → Task) : Prop where
  pid : ∀ task, (change task).pid = task.pid
  state : ∀ task, (change task).state = task.state
  counter : ∀ task, (change task).counter = task.counter
  decay : ∀ task, (change task).decayCounter = change task.decayCounter

theorem KeepsTurn.post (signal : Signal) : KeepsTurn (Task.post signal) :=
  ⟨fun _ => rfl, fun _ => rfl, fun _ => rfl, fun _ => rfl⟩

/-- The change may concern one task alone. -/
theorem KeepsTurn.only {change : Task → Task} (h : KeepsTurn change) (pid : Pid) :
    KeepsTurn fun task => if task.pid = pid then change task else task := by
  constructor
  · intro task
    split
    · exact h.pid task
    · rfl
  · intro task
    split
    · exact h.state task
    · rfl
  · intro task
    split
    · exact h.counter task
    · rfl
  · intro task
    have hsame : task.decayCounter.pid = task.pid := rfl
    rw [hsame]
    split
    · exact h.decay task
    · rfl

end Task

namespace Scheduler

variable {s : Scheduler} {change other : Task → Task} {pid : Pid}

theorem mapTasks_congr (h : ∀ task ∈ s.tasks, change task = other task) :
    s.mapTasks change = s.mapTasks other := by
  have hslots : s.slots.map (Option.map change) = s.slots.map (Option.map other) := by
    apply List.map_congr_left
    rintro (_ | task) hmem
    · rfl
    · exact congrArg some (h task (mem_tasks_iff.mpr hmem))
  unfold mapTasks
  rw [hslots]

theorem mapTasks_mapTasks (s : Scheduler) (change other : Task → Task) :
    (s.mapTasks change).mapTasks other = s.mapTasks fun task => other (change task) := by
  unfold mapTasks
  dsimp only
  rw [List.map_map]
  congr 1
  apply List.map_congr_left
  rintro (_ | task) -
  · rfl
  · rfl

/-- A task that is changed in its slot is found there as it is changed. -/
theorem find?_update {task : Task} (hpid : ∀ task, (change task).pid = task.pid)
    (hfind : s.find? pid = some task) : (s.update pid change).find? pid = some (change task) := by
  have hkeeps : ∀ other : Task,
      (if other.pid = pid then change other else other).pid = other.pid := by
    intro other
    split
    · exact hpid other
    · rfl
  unfold update
  rw [find?_mapTasks hkeeps, hfind, Option.map_some, if_pos (pid_of_find? hfind)]

theorem foldl_better_map (h : Task.KeepsTurn change) (tasks : List Task) (best : Option Task) :
    (tasks.map change).foldl better (best.map change) =
      (tasks.foldl better best).map change := by
  induction tasks generalizing best with
  | nil => rfl
  | cons task rest ih =>
      have hstep : better (best.map change) (change task) = (better best task).map change := by
        cases best with
        | none => rfl
        | some b =>
            unfold better
            rw [Option.map_some]
            dsimp only
            rw [h.counter, h.counter]
            split <;> rfl
      rw [List.map_cons, List.foldl_cons, List.foldl_cons, hstep, ih]

theorem select_mapTasks (h : Task.KeepsTurn change) (s : Scheduler) :
    (s.mapTasks change).select = s.select := by
  have hruns : Task.isRunnable ∘ change = Task.isRunnable := by
    funext task
    unfold Task.isRunnable
    rw [Function.comp_apply, h.state, h.counter]
  unfold select
  rw [tasks_mapTasks, List.filter_map, hruns, ← Option.map_none, foldl_better_map h,
    Option.map_map]
  congr 1
  funext task
  exact h.pid task

theorem decay_mapTasks (h : Task.KeepsTurn change) (s : Scheduler) :
    (s.mapTasks change).decay = s.decay.mapTasks change := by
  unfold decay
  rw [mapTasks_mapTasks, mapTasks_mapTasks]
  congr 1
  funext task
  have hsame : (change task).isZombie = task.isZombie := by
    unfold Task.isZombie
    rw [h.state]
  rw [hsame]
  split
  · rfl
  · exact h.decay task

/-- A change that leaves everybody their turn can be made before a selection or after it. -/
theorem schedule_mapTasks (h : Task.KeepsTurn change) (s : Scheduler) :
    (s.mapTasks change).schedule = (s.schedule.1, s.schedule.2.mapTasks change) := by
  unfold schedule
  rw [select_mapTasks h, decay_mapTasks h]
  cases s.select with
  | some next => rfl
  | none =>
      dsimp only
      rw [select_mapTasks h]
      rfl

theorem schedule_update (h : Task.KeepsTurn change) (s : Scheduler) (pid : Pid) :
    (s.update pid change).schedule = (s.schedule.1, s.schedule.2.update pid change) :=
  schedule_mapTasks (h.only pid) s

/-- A selection leaves a zombie as it is. -/
theorem find?_schedule_of_zombie {task : Task} (hfind : s.find? pid = some task)
    (hdead : task.state = .zombie) : s.schedule.2.find? pid = some task := by
  rcases find?_schedule hfind with ⟨hafter, -⟩ | ⟨-, hafter⟩
  · exact hafter
  · have hkept : task.refill = task := by
      unfold Task.refill Task.isZombie
      rw [hdead]
      rfl
    exact hkept ▸ hafter

end Scheduler

end Kernelet
