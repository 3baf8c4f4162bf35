import Mathlib.Data.Option.Basic
import Mathlib.Data.List.Basic
import Kernelet.Proofs.Process.Table

/-!
Where a task stands in its life, and what becomes of that. State, exit code, address
space, time slice and descriptors are kept apart in a task, and `Task.Sound` says how
they go together. `Task.Turns` says that a task goes along a given arrow from state to
state and stays sound, and `Scheduler.Follows` that every task of a table does; both
are put together step by step (`Task.Turns.comp`, `Scheduler.Follows.comp`).
-/

namespace Kernelet

/-- A relation between the states of a task of some number, before and after. -/
abbrev StateArrow : Type :=
  Pid → TaskState → TaskState → Prop

/-- The state that the task had. -/
def StateArrow.stays : StateArrow :=
  fun _ before after => after = before

/-- The state that the task had, or an end of its sleep. -/
def StateArrow.wakes : StateArrow :=
  fun _ before after => after = before ∨ (before.isWaiting = true ∧ after = .runnable)

/-- Who has woken is not asleep any more. -/
theorem StateArrow.wakes_trans {pid : Pid} {x y z : TaskState} (h : StateArrow.wakes pid x y)
    (hnext : StateArrow.wakes pid y z) : StateArrow.wakes pid x z := by
  rcases h with rfl | ⟨hwaits, rfl⟩
  · exact hnext
  · rcases hnext with rfl | ⟨hstill, -⟩
    · exact Or.inr ⟨hwaits, rfl⟩
    · cases hstill

namespace Task

/-- A task has terminated exactly if it has an exit code, and exactly if its space is
gone. It then has nothing left of its slice, and no descriptor open. -/
structure Sound (task : Task) : Prop where
  code_iff : task.isZombie = true ↔ task.exitCode.isSome = true
  bare_iff : task.isZombie = true ↔ task.space = none
  spent : task.isZombie = true → task.counter = 0
  closed : task.isZombie = true → task.descriptors.openCount = 0

/-- The task goes along the arrow. If it has terminated it stays so, with the exit
code that it has. -/
structure Turns (arrow : StateArrow) (task after : Task) : Prop where
  pid_eq : after.pid = task.pid
  arrow : arrow task.pid task.state after.state
  kept : task.isZombie = true → after.isZombie = true ∧ after.exitCode = task.exitCode
  sound : task.Sound → after.Sound

variable {task after next : Task} {arrow other whole : StateArrow}

theorem isZombie_eq_false_iff : task.isZombie = false ↔ task.state ≠ .zombie := by
  simp [isZombie]

theorem Sound.of_live (hlive : task.isZombie = false) (hcode : task.exitCode = none)
    (hspace : task.space.isSome = true) : task.Sound where
  code_iff := by simp [hlive, hcode]
  bare_iff := by
    rw [Option.isSome_iff_ne_none] at hspace
    simp [hlive, hspace]
  spent := by simp [hlive]
  closed := by simp [hlive]

theorem Sound.exitCode_eq_none (h : task.Sound) (hlive : task.isZombie = false) :
    task.exitCode = none := by
  have hcode := h.code_iff
  rw [hlive] at hcode
  simpa using hcode

theorem Sound.space_isSome (h : task.Sound) (hlive : task.isZombie = false) :
    task.space.isSome = true := by
  have hbare := h.bare_iff
  rw [hlive] at hbare
  rw [Option.isSome_iff_ne_none]
  simpa using hbare

theorem openCount_closeAll (d : Descriptors) : d.closeAll.openCount = 0 := by
  unfold Descriptors.openCount
  rw [List.countP_eq_zero]
  intro handle hmem
  obtain ⟨i, hi, rfl⟩ := List.mem_iff_getElem.mp hmem
  simp [Descriptors.closeAll, Descriptors.closeFrom]

namespace Turns

theorem mono (h : Turns arrow task after)
    (harrow : ∀ before last, arrow task.pid before last → other task.pid before last) :
    Turns other task after :=
  ⟨h.pid_eq, harrow _ _ h.arrow, h.kept, h.sound⟩

/-- One turn after another. -/
theorem comp (h : Turns arrow task after) (hnext : Turns other after next)
    (harrow : ∀ pid x y z, arrow pid x y → other pid y z → whole pid x z) :
    Turns whole task next where
  pid_eq := hnext.pid_eq.trans h.pid_eq
  arrow := harrow _ _ _ _ h.arrow (h.pid_eq ▸ hnext.arrow)
  kept := by
    intro hdead
    obtain ⟨hmid, hcode⟩ := h.kept hdead
    obtain ⟨hlast, hlastCode⟩ := hnext.kept hmid
    exact ⟨hlast, hlastCode.trans hcode⟩
  sound := fun hsound => hnext.sound (h.sound hsound)

/-- Nothing happens to the standing of the task. -/
theorem of_stays (hpid : after.pid = task.pid) (hstate : after.state = task.state)
    (hcode : after.exitCode = task.exitCode)
    (hspace : after.space.isSome = task.space.isSome)
    (hdead : task.isZombie = true →
      after.counter ≤ task.counter ∧ after.descriptors = task.descriptors) :
    Turns StateArrow.stays task after := by
  have hzombie : after.isZombie = task.isZombie := by
    unfold isZombie
    rw [hstate]
  refine ⟨hpid, hstate, fun h => ⟨hzombie.trans h, hcode⟩, ?_⟩
  intro hsound
  have hnone : after.space = none ↔ task.space = none := by
    rw [← Option.isSome_eq_false_iff.trans Option.isNone_iff_eq_none,
      ← Option.isSome_eq_false_iff.trans Option.isNone_iff_eq_none, hspace]
  constructor
  · rw [hzombie, hcode]
    exact hsound.code_iff
  · rw [hzombie, hnone]
    exact hsound.bare_iff
  · intro h
    rw [hzombie] at h
    have hspent := hsound.spent h
    have hle := (hdead h).1
    omega
  · intro h
    rw [hzombie] at h
    rw [(hdead h).2]
    exact hsound.closed h

theorem refl (task : Task) : Turns StateArrow.stays task task :=
  of_stays rfl rfl rfl rfl fun _ => ⟨Nat.le_refl _, rfl⟩

/-- A live task goes to another live state. -/
theorem of_live (hlive : task.isZombie = false) (hafter : after.isZombie = false)
    (hpid : after.pid = task.pid) (hcode : after.exitCode = task.exitCode)
    (hspace : after.space = task.space) (harrow : arrow task.pid task.state after.state) :
    Turns arrow task after where
  pid_eq := hpid
  arrow := harrow
  kept := by simp [hlive]
  sound := by
    intro hsound
    apply Sound.of_live hafter
    · rw [hcode]
      exact hsound.exitCode_eq_none hlive
    · rw [hspace]
      exact hsound.space_isSome hlive

/-! ### What is done to tasks -/

theorem decay (task : Task) :
    Turns StateArrow.stays task (if task.isZombie then task else task.decayCounter) := by
  split
  · exact refl task
  · rename_i hlive
    exact of_stays rfl rfl rfl rfl fun hdead => absurd hdead hlive

theorem spendTick (task : Task) : Turns StateArrow.stays task task.spendTick :=
  of_stays rfl rfl rfl rfl fun _ => ⟨Nat.sub_le _ _, rfl⟩

theorem adopt (ppid : Pid) (task : Task) : Turns StateArrow.stays task { task with ppid } :=
  of_stays rfl rfl rfl rfl fun _ => ⟨Nat.le_refl _, rfl⟩

theorem withSpace {space new : AddressSpace} (h : task.space = some space) :
    Turns StateArrow.stays task { task with space := some new } :=
  of_stays rfl rfl rfl (by rw [h]; rfl) fun _ => ⟨Nat.le_refl _, rfl⟩

/-- A live task starts over in a new space. -/
theorem execReset (hlive : task.isZombie = false) (space : AddressSpace) :
    Turns StateArrow.stays task { task.execReset with space := some space } where
  pid_eq := rfl
  arrow := rfl
  kept := by simp [hlive]
  sound := fun hsound => Sound.of_live hlive (hsound.exitCode_eq_none hlive) rfl

theorem wake (task : Task) : Turns StateArrow.wakes task task.wake := by
  unfold Task.wake
  split
  · rename_i hwaits
    have hlive : task.isZombie = false := by
      rw [isZombie_eq_false_iff]
      intro hdead
      simp [hdead, TaskState.isWaiting] at hwaits
    exact of_live hlive rfl rfl rfl rfl (Or.inr ⟨hwaits, rfl⟩)
  · exact (refl task).mono fun _ _ => Or.inl

theorem block {interruptible : Bool} (h : task.block interruptible = .ok after)
    (harrow : arrow task.pid .runnable
      (if interruptible then .interruptibleWait else .uninterruptibleWait)) :
    Turns arrow task after := by
  unfold Task.block at h
  split at h
  · rename_i hstate
    cases h
    refine of_live (isZombie_of_state (by simp [hstate])) ?_ rfl rfl rfl ?_
    · cases interruptible <;> rfl
    · rw [hstate]
      exact harrow
  · cases h

/-- A signal that is sent to a live task does not terminate it yet. -/
theorem send (hlive : task.isZombie = false) {signal : Signal}
    (harrow : arrow task.pid task.state (task.send signal).state) :
    Turns arrow task (task.send signal) := by
  have houtline := task.outline_send signal
  have hcode : Lasting Task.exitCode := ⟨fun _ _ => rfl, fun _ _ => rfl, fun _ _ _ _ _ => rfl⟩
  exact of_live hlive ((isZombie_eq_of_outline houtline).trans hlive)
    (pid_eq_of_outline houtline) (hcode.send task signal) (space_eq_of_outline houtline) harrow

theorem send_chld (task : Task) : Turns StateArrow.wakes task (task.send .chld) := by
  cases hdead : task.isZombie with
  | true =>
      have hsame : task.send .chld = task := if_pos hdead
      rw [hsame]
      exact (refl task).mono fun _ _ => Or.inl
  | false =>
      apply send hdead
      unfold Task.send
      rw [if_neg (by simp [hdead])]
      dsimp only
      split
      · rename_i hwaits
        exact Or.inr ⟨by rw [hwaits.1]; rfl, rfl⟩
      · exact Or.inl rfl

end Turns

end Task

namespace Scheduler

/-- The tables have tasks of the same numbers, and each of them went along the arrow. -/
def Follows (arrow : StateArrow) (s after : Scheduler) : Prop :=
  ∀ pid, Option.Rel (Task.Turns arrow) (s.find? pid) (after.find? pid)

namespace Follows

variable {s after next : Scheduler} {arrow other whole : StateArrow} {pid : Pid} {task : Task}

theorem exists_of_find? (h : Follows arrow s after) (hfind : s.find? pid = some task) :
    ∃ turned, after.find? pid = some turned ∧ Task.Turns arrow task turned := by
  have hpid := h pid
  rw [hfind] at hpid
  cases hlast : after.find? pid with
  | none =>
      rw [hlast] at hpid
      cases hpid
  | some turned =>
      rw [hlast] at hpid
      cases hpid with
      | some hturns => exact ⟨turned, rfl, hturns⟩

theorem find?_eq_none (h : Follows arrow s after) (hnone : s.find? pid = none) :
    after.find? pid = none := by
  have hpid := h pid
  rw [hnone] at hpid
  cases hlast : after.find? pid with
  | none => rfl
  | some turned =>
      rw [hlast] at hpid
      cases hpid

theorem comp (h : Follows arrow s after) (hnext : Follows other after next)
    (harrow : ∀ pid x y z, arrow pid x y → other pid y z → whole pid x z) :
    Follows whole s next := by
  intro pid
  cases hfind : s.find? pid with
  | none =>
      rw [hnext.find?_eq_none (h.find?_eq_none hfind)]
      exact Option.Rel.none
  | some task =>
      obtain ⟨turned, hturned, hturns⟩ := h.exists_of_find? hfind
      obtain ⟨last, hlast, hlastTurns⟩ := hnext.exists_of_find? hturned
      rw [hlast]
      exact Option.Rel.some (hturns.comp hlastTurns harrow)

/-- What keeps the state may come after anything. -/
theorem stays (h : Follows arrow s after) (hnext : Follows StateArrow.stays after next) :
    Follows arrow s next := by
  refine h.comp hnext ?_
  rintro pid x y z hxy rfl
  exact hxy

theorem mono (h : Follows arrow s after)
    (harrow : ∀ pid before last, arrow pid before last → other pid before last) :
    Follows other s after := by
  intro pid
  cases hfind : s.find? pid with
  | none =>
      rw [h.find?_eq_none hfind]
      exact Option.Rel.none
  | some task =>
      obtain ⟨turned, hturned, hturns⟩ := h.exists_of_find? hfind
      rw [hturned]
      exact Option.Rel.some (hturns.mono (harrow task.pid))

theorem refl (s : Scheduler) : Follows StateArrow.stays s s := by
  intro pid
  cases s.find? pid with
  | none => exact Option.Rel.none
  | some task => exact Option.Rel.some (Task.Turns.refl task)

theorem of_tasks_eq (h : after.tasks = s.tasks) : Follows StateArrow.stays s after := by
  have hsame : after.find? = s.find? := by
    funext pid
    unfold find?
    rw [h]
  intro pid
  rw [hsame]
  exact refl s pid

theorem mapTasks {change : Task → Task} (h : ∀ task, Task.Turns arrow task (change task)) :
    Follows arrow s (s.mapTasks change) := by
  intro pid
  rw [find?_mapTasks fun task => (h task).pid_eq]
  cases s.find? pid with
  | none => exact Option.Rel.none
  | some task => exact Option.Rel.some (h task)

/-- One task goes along the arrow, and the others stay. -/
theorem put {new : Task} (hfind : s.find? pid = some task) (h : Task.Turns arrow task new)
    (hstays : ∀ q state, q ≠ pid → arrow q state state) : Follows arrow s (s.put new) := by
  have hpid : new.pid = pid := h.pid_eq.trans (pid_of_find? hfind)
  subst hpid
  intro q
  rw [find?_put hfind]
  split
  · rename_i hself
    rw [← hself, hfind]
    exact Option.Rel.some h
  · rename_i hother
    cases hfound : s.find? q with
    | none => exact Option.Rel.none
    | some other =>
        have hq := pid_of_find? hfound
        refine Option.Rel.some ((Task.Turns.refl other).mono ?_)
        rintro before last rfl
        exact hstays _ _ fun heq => hother (heq.symm.trans hq)

theorem schedule (s : Scheduler) : Follows StateArrow.stays s s.schedule.2 := by
  rcases s.schedule_cases with ⟨pid, -, hrun⟩ | ⟨-, hrun⟩
  · rw [hrun]
    exact of_tasks_eq rfl
  · have hdecay : Follows StateArrow.stays s s.decay := mapTasks Task.Turns.decay
    rw [hrun]
    exact hdecay.stays (of_tasks_eq rfl)

theorem timerTick (s : Scheduler) : Follows StateArrow.stays s s.timerTick.2 := by
  have hclock : Follows StateArrow.stays s { s with jiffies := s.jiffies + 1 } := of_tasks_eq rfl
  rcases s.timerTick_cases with ⟨-, hrun⟩ | ⟨task, hcurrent, hrun⟩
  · rw [hrun]
    exact hclock
  · obtain ⟨pid, -, hfind⟩ := currentTask?_eq_some_iff.mp hcurrent
    have hfind : { s with jiffies := s.jiffies + 1 }.find? pid = some task := hfind
    have hput := hclock.stays (put hfind (Task.Turns.spendTick task) fun _ _ _ => rfl)
    rcases hrun with ⟨-, hrun⟩ | ⟨-, hrun⟩
    · rw [hrun]
      exact hput.stays (schedule _)
    · rw [hrun]
      exact hput

end Follows

end Scheduler

end Kernelet
