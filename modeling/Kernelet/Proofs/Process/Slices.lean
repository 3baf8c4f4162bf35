import Mathlib.Algebra.Order.BigOperators.Group.List
import Mathlib.Algebra.Order.Ring.Nat
import Kernelet.Proofs.Process.Pace
import Kernelet.Proofs.Process.Selection
import Kernelet.Proofs.Process.Standing

/-!
How slices are used up. A runnable task gets its turn if some of its slice is left or
will be at the next refill (`Task.IsHopeful`). Every tick uses up something of what is
left to all tasks together, and so its turn comes (`exists_ticks_current`). Where no
task has a priority a refill gives nothing to anybody, and after some ticks nobody runs
any more (`exists_ticks_idle`).
-/

namespace Kernelet

namespace Task

/-- The task can be selected, at the latest when slices have been refilled. -/
structure IsHopeful (task : Task) : Prop where
  state_eq : task.state = .runnable
  slice : 0 < task.counter ∨ 0 < task.priority

/-- The task with its slice refilled, unless it has terminated. -/
def refill (task : Task) : Task :=
  if task.isZombie then task else task.decayCounter

variable {task : Task}

theorem IsHopeful.of_isRunnable (h : task.isRunnable = true) : task.IsHopeful :=
  ⟨(isRunnable_iff.mp h).1, Or.inl (isRunnable_iff.mp h).2⟩

/-- A refill lets those run who had nothing left and have a priority. -/
theorem isRunnable_refill_iff (h : task.isRunnable = false) :
    task.refill.isRunnable = true ↔ task.IsHopeful := by
  cases hdead : task.isZombie with
  | true =>
      have hsame : task.refill = task := if_pos hdead
      rw [hsame, h]
      refine iff_of_false Bool.false_ne_true ?_
      intro hhope
      simp [isZombie, hhope.state_eq] at hdead
  | false =>
      have hlive : task.refill = task.decayCounter := if_neg (by simp [hdead])
      have hspent : task.state = .runnable → task.counter = 0 := by
        intro hstate
        simpa [isRunnable, hstate] using h
      have hrefill : task.counter = 0 → (0 < task.decayCounter.counter ↔ 0 < task.priority) := by
        intro hzero
        show 0 < min maxWord (task.counter / 2 + task.priority) ↔ _
        rw [hzero, Nat.zero_div, Nat.zero_add, Nat.lt_min, and_iff_right (by decide)]
      rw [hlive, isRunnable_iff]
      constructor
      · rintro ⟨hstate, hleft⟩
        exact ⟨hstate, Or.inr ((hrefill (hspent hstate)).mp hleft)⟩
      · rintro ⟨hstate, hslice⟩
        refine ⟨hstate, (hrefill (hspent hstate)).mpr ?_⟩
        exact hslice.resolve_left (by simp [hspent hstate])

/-- A refill gives hope to nobody. -/
theorem IsHopeful.of_refill (h : task.refill.IsHopeful) : task.IsHopeful := by
  unfold refill at h
  split at h
  · exact h
  · refine ⟨h.state_eq, ?_⟩
    have hslice : 0 < min maxWord (task.counter / 2 + task.priority) ∨ 0 < task.priority := h.slice
    omega

theorem counter_refill_le (h : task.priority = 0) : task.refill.counter ≤ task.counter := by
  unfold refill
  split
  · exact Nat.le_refl _
  · show min maxWord (task.counter / 2 + task.priority) ≤ task.counter
    omega

end Task

namespace Scheduler

/-- What is left of all slices together. -/
def slicesLeft (s : Scheduler) : Nat :=
  (s.tasks.map Task.counter).sum

/-- The table after a number of ticks. -/
def ticks (s : Scheduler) : Nat → Scheduler
  | 0 => s
  | n + 1 => s.timerTick.2.ticks n

/-- The selected task can run, and if there is none nobody is hopeful. -/
structure Staffed (s : Scheduler) : Prop where
  proper : s.Proper
  canRun : ∀ pid, s.current = some pid → s.CanRun pid
  idle : s.current = none → ∀ task ∈ s.tasks, ¬ task.IsHopeful

variable {s after : Scheduler} {pid : Pid} {task : Task}

theorem foldl_better_eq_none_iff {tasks : List Task} {best : Option Task} :
    tasks.foldl better best = none ↔ best = none ∧ tasks = [] := by
  induction tasks generalizing best with
  | nil => simp
  | cons first rest ih =>
      have hbetter : better best first ≠ none := by
        unfold better
        split
        · simp
        · split <;> simp
      rw [List.foldl_cons, ih]
      simp [hbetter]

theorem select_eq_none_iff : s.select = none ↔ ∀ task ∈ s.tasks, task.isRunnable = false := by
  unfold select
  rw [Option.map_eq_none_iff, foldl_better_eq_none_iff, and_iff_right rfl, List.filter_eq_nil_iff]
  simp

theorem tasks_decay (s : Scheduler) : s.decay.tasks = s.tasks.map Task.refill :=
  s.tasks_mapTasks _

/-- A selection fails exactly if nobody is hopeful. -/
theorem schedule_eq_none_iff : s.schedule.1 = none ↔ ∀ task ∈ s.tasks, ¬ task.IsHopeful := by
  rcases s.schedule_cases with ⟨pid, hselect, hrun⟩ | ⟨hselect, hrun⟩
  · rw [hrun]
    refine iff_of_false (Option.some_ne_none pid) ?_
    intro hnobody
    obtain ⟨task, hmem, -, hruns⟩ := canRun_of_select hselect
    exact hnobody task hmem (Task.IsHopeful.of_isRunnable hruns)
  · rw [select_eq_none_iff] at hselect
    rw [hrun, select_eq_none_iff, tasks_decay, List.forall_mem_map]
    refine forall₂_congr fun task hmem => ?_
    rw [← Task.isRunnable_refill_iff (hselect task hmem), Bool.not_eq_true]

/-- Once a selection has been made, the selected task can run, or nobody is hopeful. -/
theorem Staffed.schedule (h : s.Proper) : s.schedule.2.Staffed where
  proper := (SameOutline.schedule s).proper h
  canRun _ hcurrent := canRun_of_schedule hcurrent
  idle := by
    rw [← schedule_fst]
    intro hnone
    have hnobody := schedule_eq_none_iff.mp hnone
    rcases s.schedule_cases with ⟨pid, -, hrun⟩ | ⟨-, hrun⟩
    · rw [hrun]
      exact hnobody
    · rw [hrun]
      show ∀ task ∈ s.decay.tasks, ¬ task.IsHopeful
      rw [tasks_decay, List.forall_mem_map]
      exact fun task hmem hhope => hnobody task hmem hhope.of_refill

theorem find?_decay (s : Scheduler) (pid : Pid) :
    s.decay.find? pid = (s.find? pid).map Task.refill := by
  apply find?_mapTasks
  intro task
  split <;> rfl

/-- A selection leaves a task as it was, or it refills an empty slice. -/
theorem find?_schedule (hfind : s.find? pid = some task) :
    (s.schedule.2.find? pid = some task ∧ s.schedule.2.slicesLeft = s.slicesLeft) ∨
    (task.isRunnable = false ∧ s.schedule.2.find? pid = some task.refill) := by
  rcases s.schedule_cases with ⟨next, -, hrun⟩ | ⟨hselect, hrun⟩
  · rw [hrun]
    exact Or.inl ⟨hfind, rfl⟩
  · right
    refine ⟨select_eq_none_iff.mp hselect task (mem_tasks_of_find? hfind), ?_⟩
    have hdecay := s.find?_decay pid
    rw [hfind] at hdecay
    rw [hrun]
    exact hdecay

theorem slicesLeft_put (h : s.Proper) {new : Task} (hfind : s.find? new.pid = some task) :
    (s.put new).slicesLeft + task.counter = s.slicesLeft + new.counter := by
  have hbefore := ((tasks_perm h hfind).map Task.counter).sum_nat
  have hafter := ((tasks_put_perm h hfind).map Task.counter).sum_nat
  unfold slicesLeft
  rw [hbefore, hafter, List.map_cons, List.map_cons, List.sum_cons, List.sum_cons]
  omega

/-- The table one tick later. -/
def clock (s : Scheduler) : Scheduler :=
  { s with jiffies := s.jiffies + 1 }

theorem Proper.clock (h : s.Proper) : s.clock.Proper :=
  h.of_perm (List.Perm.refl _) rfl

theorem find?_spendTick (hfind : s.find? pid = some task) :
    s.clock.find? task.spendTick.pid = some task := by
  show s.find? task.pid = some task
  rw [pid_of_find? hfind]
  exact hfind

/-- Something is spent with every tick. -/
theorem slicesLeft_spendTick (h : s.Proper) (hfind : s.find? pid = some task)
    (hleft : 0 < task.counter) : (s.clock.put task.spendTick).slicesLeft < s.slicesLeft := by
  have hput := slicesLeft_put h.clock (find?_spendTick hfind)
  have hsame : s.clock.slicesLeft = s.slicesLeft := rfl
  have hspent : task.spendTick.counter = task.counter - 1 := rfl
  omega

namespace Staffed

/-- A tick goes to the selected task, which has something left of its slice. -/
theorem tick_cases (h : s.Staffed) :
    (s.current = none ∧ s.timerTick.2 = s.clock) ∨
    ∃ pid task, s.current = some pid ∧ s.find? pid = some task ∧ task.isRunnable = true ∧
      ((task.counter = 1 ∧ s.timerTick.2 = (s.clock.put task.spendTick).schedule.2) ∨
        (1 < task.counter ∧ s.timerTick.2 = s.clock.put task.spendTick)) := by
  cases hcurrent : s.current with
  | none =>
      left
      refine ⟨rfl, ?_⟩
      rcases s.timerTick_cases with ⟨-, hrun⟩ | ⟨task, hsome, -⟩
      · exact congrArg Prod.snd hrun
      · obtain ⟨pid, hpid, -⟩ := currentTask?_eq_some_iff.mp hsome
        rw [hcurrent] at hpid
        cases hpid
  | some pid =>
      right
      obtain ⟨task, hmem, hpid, hruns⟩ := h.canRun pid hcurrent
      have hfind := (find?_eq_some_iff h.proper).mpr ⟨hmem, hpid⟩
      have hthere := currentTask?_eq_some_iff.mpr ⟨pid, hcurrent, hfind⟩
      have hleft := (Task.isRunnable_iff.mp hruns).2
      refine ⟨pid, task, rfl, hfind, hruns, ?_⟩
      rcases s.timerTick_cases with ⟨hnone, -⟩ | ⟨other, hother, hcases⟩
      · rw [hthere] at hnone
        cases hnone
      · rw [hthere] at hother
        cases hother
        rcases hcases with ⟨hspent, hrun⟩ | ⟨hmore, hrun⟩
        · exact Or.inl ⟨by omega, congrArg Prod.snd hrun⟩
        · exact Or.inr ⟨by omega, congrArg Prod.snd hrun⟩

theorem timerTick (h : s.Staffed) : s.timerTick.2.Staffed := by
  rcases h.tick_cases with
    ⟨-, hrun⟩ | ⟨pid, task, hcurrent, hfind, hruns, ⟨-, hrun⟩ | ⟨hmore, hrun⟩⟩
  · rw [hrun]
    exact ⟨h.proper.clock, h.canRun, h.idle⟩
  · rw [hrun]
    exact Staffed.schedule (h.proper.clock.put task.spendTick)
  · rw [hrun]
    refine ⟨h.proper.clock.put task.spendTick, ?_, ?_⟩
    · intro q hq
      have hbefore : s.clock.CanRun q := h.canRun q hq
      have hthere : s.clock.find? pid = some task := hfind
      have hstill : task.spendTick.isRunnable = true :=
        Task.isRunnable_iff.mpr ⟨(Task.isRunnable_iff.mp hruns).1, Nat.sub_pos_of_lt hmore⟩
      exact hbefore.put h.proper.clock hthere rfl fun _ => hstill
    · intro hnone
      have hsame : s.current = none := hnone
      rw [hcurrent] at hsame
      cases hsame

theorem ticks (h : s.Staffed) (n : Nat) : (s.ticks n).Staffed := by
  induction n generalizing s with
  | zero => exact h
  | succ n ih => exact ih h.timerTick

/-- A tick that goes to another task leaves a task as it was and takes something off
what is left, or it ends with a refill of its empty slice. -/
theorem find?_timerTick (h : s.Staffed) (hfind : s.find? pid = some task)
    (hhope : task.IsHopeful) (hother : s.current ≠ some pid) :
    (s.timerTick.2.find? pid = some task ∧ s.timerTick.2.slicesLeft < s.slicesLeft) ∨
    (task.isRunnable = false ∧ s.timerTick.2.find? pid = some task.refill) := by
  rcases h.tick_cases with ⟨hnone, -⟩ | ⟨q, running, hcurrent, hthere, hruns, hcases⟩
  · exact absurd hhope (h.idle hnone task (mem_tasks_of_find? hfind))
  · have hne : q ≠ pid := by
      rintro rfl
      exact hother hcurrent
    have hless := slicesLeft_spendTick h.proper hthere (Task.isRunnable_iff.mp hruns).2
    have hkept : (s.clock.put running.spendTick).find? pid = some task := by
      have hpid : running.spendTick.pid ≠ pid := by
        show running.pid ≠ pid
        rw [pid_of_find? hthere]
        exact hne
      exact (find?_put (find?_spendTick hthere) pid).trans ((if_neg hpid).trans hfind)
    rcases hcases with ⟨-, hrun⟩ | ⟨-, hrun⟩
    · rw [hrun]
      rcases find?_schedule hkept with ⟨hsame, hleft⟩ | hrefilled
      · exact Or.inl ⟨hsame, hleft ▸ hless⟩
      · exact Or.inr hrefilled
    · rw [hrun]
      exact Or.inl ⟨hkept, hless⟩

end Staffed

/-- Who has something left of its slice gets its turn when the others have used up
theirs, at the latest. -/
theorem exists_ticks_of_isRunnable (h : s.Staffed) (hfind : s.find? pid = some task)
    (hruns : task.isRunnable = true) : ∃ n, (s.ticks n).current = some pid := by
  induction hleft : s.slicesLeft using Nat.strongRecOn generalizing s with
  | ind left ih =>
      by_cases hturn : s.current = some pid
      · exact ⟨0, hturn⟩
      · rcases h.find?_timerTick hfind (Task.IsHopeful.of_isRunnable hruns) hturn with
          ⟨hkept, hless⟩ | ⟨hspent, -⟩
        · obtain ⟨n, hn⟩ := ih _ (hleft ▸ hless) h.timerTick hkept rfl
          exact ⟨n + 1, hn⟩
        · rw [hruns] at hspent
          cases hspent

/-- Who is hopeful gets its turn, after a refill if need be. -/
theorem exists_ticks_current (h : s.Staffed) (hfind : s.find? pid = some task)
    (hhope : task.IsHopeful) : ∃ n, (s.ticks n).current = some pid := by
  induction hleft : s.slicesLeft using Nat.strongRecOn generalizing s with
  | ind left ih =>
      by_cases hturn : s.current = some pid
      · exact ⟨0, hturn⟩
      · rcases h.find?_timerTick hfind hhope hturn with ⟨hkept, hless⟩ | ⟨hspent, hrefilled⟩
        · obtain ⟨n, hn⟩ := ih _ (hleft ▸ hless) h.timerTick hkept rfl
          exact ⟨n + 1, hn⟩
        · have hruns := (Task.isRunnable_refill_iff hspent).mpr hhope
          obtain ⟨n, hn⟩ := exists_ticks_of_isRunnable h.timerTick hrefilled hruns
          exact ⟨n + 1, hn⟩

/-- Tasks keep their states while slices are used up and refilled. -/
theorem follows_ticks (s : Scheduler) (n : Nat) : Follows StateArrow.stays s (s.ticks n) := by
  induction n generalizing s with
  | zero => exact Follows.refl s
  | succ n ih => exact (Follows.timerTick s).stays (ih _)

section Exhaustion

/-- Nobody has a priority. -/
def Flat (s : Scheduler) : Prop :=
  ∀ task ∈ s.tasks, task.priority = 0

theorem Flat.of_paced (h : s.Flat) (hpaced : Paced s after) : after.Flat :=
  hpaced.forall_tasks (fun _ _ hzero hstep => hstep.priority_eq.trans hzero) h

/-- Where nobody has a priority a selection adds nothing to what is left. -/
theorem slicesLeft_schedule_le (h : s.Flat) : s.schedule.2.slicesLeft ≤ s.slicesLeft := by
  rcases s.schedule_cases with ⟨next, -, hrun⟩ | ⟨-, hrun⟩
  · rw [hrun]
    exact Nat.le_refl _
  · rw [hrun]
    show (s.decay.tasks.map Task.counter).sum ≤ (s.tasks.map Task.counter).sum
    rw [tasks_decay, List.map_map]
    exact List.sum_le_sum fun task hmem => Task.counter_refill_le (h task hmem)

/-- Where nobody has a priority a tick takes something off what is left. -/
theorem Staffed.slicesLeft_timerTick (h : s.Staffed) (hflat : s.Flat)
    (hsome : s.current ≠ none) : s.timerTick.2.slicesLeft < s.slicesLeft := by
  rcases h.tick_cases with ⟨hnone, -⟩ | ⟨pid, task, -, hfind, hruns, hcases⟩
  · exact absurd hnone hsome
  · have hless := slicesLeft_spendTick h.proper hfind (Task.isRunnable_iff.mp hruns).2
    have hthere : s.clock.find? pid = some task := hfind
    have hclock : s.clock.Flat := hflat
    have hput : (s.clock.put task.spendTick).Flat :=
      hclock.of_paced (Paced.put h.proper.clock hthere
        (Task.Paced.of_slice rfl rfl Task.SliceStep.ticked))
    rcases hcases with ⟨-, hrun⟩ | ⟨-, hrun⟩
    · rw [hrun]
      exact Nat.lt_of_le_of_lt (slicesLeft_schedule_le hput) hless
    · rw [hrun]
      exact hless

/-- Where nobody has a priority nobody runs any more after some ticks. -/
theorem exists_ticks_idle (h : s.Staffed) (hflat : s.Flat) : ∃ n, (s.ticks n).current = none := by
  induction hleft : s.slicesLeft using Nat.strongRecOn generalizing s with
  | ind left ih =>
      cases hcurrent : s.current with
      | none => exact ⟨0, hcurrent⟩
      | some pid =>
          have hless := h.slicesLeft_timerTick hflat (by simp [hcurrent])
          obtain ⟨n, hn⟩ := ih _ (hleft ▸ hless) h.timerTick
            (hflat.of_paced (Paced.timerTick h.proper)) rfl
          exact ⟨n + 1, hn⟩

end Exhaustion

end Scheduler

end Kernelet
