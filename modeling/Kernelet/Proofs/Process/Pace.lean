import Mathlib.Data.List.Forall2
import Mathlib.Logic.Relation
import Kernelet.Proofs.Process.Table

/-!
The pace of a task: its priority, and what is left of its time slice. A slice stays
as it is, loses a tick, is refilled, or ends with its task (`Task.Paced`), and
nothing else in the life of a task touches it. `Scheduler.Paced` says that of a whole
table, slot by slot, where a slot may also have been emptied.
-/

namespace Kernelet

namespace Task

/-- What may become of the time slice of a task in one step. -/
inductive SliceStep (task : Task) : Nat → Prop
  | kept : SliceStep task task.counter
  | ticked : SliceStep task (task.counter - 1)
  | refilled (hlive : task.isZombie = false) : SliceStep task task.decayCounter.counter
  | ended : SliceStep task 0

/-- The task keeps its number and its priority, and its slice takes one step. -/
structure PaceStep (task after : Task) : Prop where
  pid_eq : after.pid = task.pid
  priority_eq : after.priority = task.priority
  slice : task.SliceStep after.counter

/-- The task has gone on for any number of steps. -/
abbrev Paced : Task → Task → Prop :=
  Relation.ReflTransGen PaceStep

/-- What the pace of a task is made of. -/
def pace (task : Task) : Pid × Nat × Nat :=
  (task.pid, task.priority, task.counter)

variable {task after : Task}

/-- What is kept in every step is kept however long the task goes on. -/
theorem Paced.invariant {holds : Task → Prop}
    (hstep : ∀ task after, holds task → PaceStep task after → holds after)
    (hpaced : Paced task after) (h : holds task) : holds after := by
  induction hpaced with
  | refl => exact h
  | tail _ hlast ih => exact hstep _ _ ih hlast

theorem Paced.pid_eq (hpaced : Paced task after) : after.pid = task.pid := by
  induction hpaced with
  | refl => rfl
  | tail _ hlast ih => exact hlast.pid_eq.trans ih

theorem Paced.of_slice (hpid : after.pid = task.pid) (hpriority : after.priority = task.priority)
    (hslice : task.SliceStep after.counter) : Paced task after :=
  Relation.ReflTransGen.single ⟨hpid, hpriority, hslice⟩

theorem Paced.of_pace_eq (h : after.pace = task.pace) : Paced task after := by
  have hcounter : after.counter = task.counter := congrArg (fun x => x.2.2) h
  apply Paced.of_slice (congrArg (fun x => x.1) h) (congrArg (fun x => x.2.1) h)
  rw [hcounter]
  exact SliceStep.kept

theorem pace_wake (task : Task) : task.wake.pace = task.pace := by
  unfold wake
  split <;> rfl

theorem pace_block {interruptible : Bool} (h : task.block interruptible = .ok after) :
    after.pace = task.pace := by
  unfold block at h
  split at h
  · cases h
    rfl
  · cases h

theorem pace_send (task : Task) (signal : Signal) : (task.send signal).pace = task.pace := by
  unfold send
  split
  · rfl
  · dsimp only
    split
    · rfl
    · unfold resume
      split <;> rfl
    · split <;> rfl
    · split <;> rfl

end Task

namespace Scheduler

/-- What may become of a slot while nobody is created: it is emptied, or its task
goes on at its pace. -/
inductive SlotPaced : Option Task → Option Task → Prop
  | emptied (slot : Option Task) : SlotPaced slot none
  | kept {task after : Task} (hpaced : task.Paced after) : SlotPaced (some task) (some after)

theorem SlotPaced.trans {slot mid after : Option Task} (h : SlotPaced slot mid)
    (hnext : SlotPaced mid after) : SlotPaced slot after := by
  cases hnext with
  | emptied => exact SlotPaced.emptied slot
  | kept hlast =>
      cases h with
      | kept hfirst => exact SlotPaced.kept (Relation.ReflTransGen.trans hfirst hlast)

section Slots

variable {slots later : List (Option Task)} {slot : Option Task}

theorem SlotPaced.exists_later (h : List.Forall₂ SlotPaced slots later) (hmem : slot ∈ slots) :
    ∃ after ∈ later, SlotPaced slot after := by
  induction h with
  | nil => cases hmem
  | cons hfirst _ ih =>
      rcases List.mem_cons.mp hmem with rfl | hrest
      · exact ⟨_, List.mem_cons_self, hfirst⟩
      · obtain ⟨after, hafter, hpaced⟩ := ih hrest
        exact ⟨after, List.mem_cons_of_mem _ hafter, hpaced⟩

theorem SlotPaced.exists_earlier (h : List.Forall₂ SlotPaced slots later) (hmem : slot ∈ later) :
    ∃ before ∈ slots, SlotPaced before slot := by
  induction h with
  | nil => cases hmem
  | cons hfirst _ ih =>
      rcases List.mem_cons.mp hmem with rfl | hrest
      · exact ⟨_, List.mem_cons_self, hfirst⟩
      · obtain ⟨before, hbefore, hpaced⟩ := ih hrest
        exact ⟨before, List.mem_cons_of_mem _ hbefore, hpaced⟩

end Slots

/-- Nobody has been created, and no number given out. Every slot has been emptied, or
its task has gone on at its pace. -/
structure Paced (s after : Scheduler) : Prop where
  slots : List.Forall₂ SlotPaced s.slots after.slots
  nextPid_eq : after.nextPid = s.nextPid

variable {s mid after : Scheduler} {task : Task} {pid : Pid}

theorem mem_tasks_iff : task ∈ s.tasks ↔ some task ∈ s.slots := by
  unfold tasks
  simp [List.mem_filterMap]

namespace Paced

theorem trans (h : Paced s mid) (hnext : Paced mid after) : Paced s after := by
  refine ⟨?_, hnext.nextPid_eq.trans h.nextPid_eq⟩
  obtain ⟨hfirst, -⟩ := h
  obtain ⟨hlast, -⟩ := hnext
  generalize s.slots = slots at hfirst
  generalize mid.slots = between at hfirst hlast
  generalize after.slots = later at hlast
  induction hfirst generalizing later with
  | nil => exact hlast
  | cons hslot _ ih =>
      cases hlast with
      | cons hnext hrest => exact List.Forall₂.cons (hslot.trans hnext) (ih _ hrest)

theorem nextNumber_eq (h : Paced s after) : after.nextNumber = s.nextNumber :=
  congrArg (· % UInt32.size) h.nextPid_eq

theorem mapTasks {change : Task → Task} (h : ∀ task ∈ s.tasks, task.Paced (change task)) :
    Paced s (s.mapTasks change) where
  slots := by
    unfold Scheduler.mapTasks
    rw [List.forall₂_map_right_iff, List.forall₂_same]
    intro slot hmem
    cases slot with
    | none => exact SlotPaced.emptied none
    | some task => exact SlotPaced.kept (h task (mem_tasks_iff.mpr hmem))
  nextPid_eq := rfl

theorem of_slots_eq (hslots : after.slots = s.slots) (hnext : after.nextPid = s.nextPid) :
    Paced s after where
  slots := by
    rw [hslots, List.forall₂_same]
    intro slot _
    cases slot with
    | none => exact SlotPaced.emptied none
    | some task => exact SlotPaced.kept Relation.ReflTransGen.refl
  nextPid_eq := hnext

theorem refl (s : Scheduler) : Paced s s :=
  of_slots_eq rfl rfl

theorem update {change : Task → Task} (pid : Pid)
    (h : ∀ task : Task, task.Paced (change task)) : Paced s (s.update pid change) := by
  apply mapTasks
  intro task _
  split
  · exact h task
  · exact Relation.ReflTransGen.refl

theorem put (hproper : s.Proper) {new : Task} (hfind : s.find? pid = some task)
    (h : task.Paced new) : Paced s (s.put new) := by
  have hpid : new.pid = task.pid := h.pid_eq
  apply mapTasks
  intro other hmem
  split
  · rename_i hsame
    rw [eq_of_pid_eq hproper (mem_tasks_of_find? hfind) hmem (hsame.trans hpid)]
    exact h
  · exact Relation.ReflTransGen.refl

theorem remove (s : Scheduler) (pid : Pid) : Paced s (s.remove pid).2 := by
  unfold Scheduler.remove
  split
  · exact refl s
  · refine ⟨?_, rfl⟩
    dsimp only
    rw [List.forall₂_map_right_iff, List.forall₂_same]
    intro slot _
    cases slot with
    | none => exact SlotPaced.emptied none
    | some task =>
        cases hkeep : task.pid != pid with
        | true =>
            rw [Option.filter_some, hkeep]
            exact SlotPaced.kept Relation.ReflTransGen.refl
        | false =>
            rw [Option.filter_some, hkeep]
            exact SlotPaced.emptied _

theorem schedule (s : Scheduler) : Paced s s.schedule.2 := by
  rcases s.schedule_cases with ⟨pid, -, hrun⟩ | ⟨-, hrun⟩
  · rw [hrun]
    exact of_slots_eq rfl rfl
  · have hdecay : Paced s s.decay := by
      apply mapTasks
      intro task _
      split
      · exact Relation.ReflTransGen.refl
      · rename_i hlive
        exact Task.Paced.of_slice rfl rfl (Task.SliceStep.refilled (by simpa using hlive))
    rw [hrun]
    exact hdecay.trans (of_slots_eq rfl rfl)

theorem timerTick (h : s.Proper) : Paced s s.timerTick.2 := by
  have hclock : Paced s { s with jiffies := s.jiffies + 1 } := of_slots_eq rfl rfl
  rcases s.timerTick_cases with ⟨-, hrun⟩ | ⟨task, hcurrent, hrun⟩
  · rw [hrun]
    exact hclock
  · obtain ⟨pid, -, hfind⟩ := currentTask?_eq_some_iff.mp hcurrent
    have hlater : Proper { s with jiffies := s.jiffies + 1 } :=
      h.of_perm (List.Perm.refl _) rfl
    have hspent : task.Paced task.spendTick :=
      Task.Paced.of_slice rfl rfl Task.SliceStep.ticked
    have hput := hclock.trans (put hlater hfind hspent)
    rcases hrun with ⟨-, hrun⟩ | ⟨-, hrun⟩
    · rw [hrun]
      exact hput.trans (schedule _)
    · rw [hrun]
      exact hput

theorem sleep {interruptible : Bool} {next : Option Pid} (h : s.Proper)
    (hrun : s.sleep interruptible = .ok (next, after)) : Paced s after := by
  rcases s.sleep_cases interruptible with
    ⟨-, hidle⟩ | ⟨task, hcurrent, ⟨e, -, hfail⟩ | ⟨blocked, hblock, hslept⟩⟩
  · rw [hidle] at hrun
    have hafter : s.schedule.2 = after := congrArg Prod.snd (Except.ok.inj hrun)
    rw [← hafter]
    exact schedule s
  · rw [hfail] at hrun
    cases hrun
  · obtain ⟨pid, -, hfind⟩ := currentTask?_eq_some_iff.mp hcurrent
    rw [hslept] at hrun
    have hafter : (s.put blocked).schedule.2 = after := congrArg Prod.snd (Except.ok.inj hrun)
    rw [← hafter]
    exact (put h hfind (Task.Paced.of_pace_eq (Task.pace_block hblock))).trans (schedule _)

theorem wakeAll (s : Scheduler) : Paced s s.wakeAll.2 :=
  mapTasks fun task _ => Task.Paced.of_pace_eq task.pace_wake

theorem length_eq (h : Paced s after) : after.slots.length = s.slots.length :=
  h.slots.length_eq.symm

/-- An empty slot stays empty. -/
theorem none_mem (h : Paced s after) (hnone : none ∈ s.slots) : none ∈ after.slots := by
  obtain ⟨slot, hmem, hslot⟩ := SlotPaced.exists_later h.slots hnone
  cases hslot
  exact hmem

/-- Whoever is in the table was there before, and has gone on at its pace. -/
theorem exists_of_mem (h : Paced s after) {later : Task} (hmem : later ∈ after.tasks) :
    ∃ task ∈ s.tasks, task.Paced later := by
  obtain ⟨slot, hbefore, hslot⟩ := SlotPaced.exists_earlier h.slots (mem_tasks_iff.mp hmem)
  cases hslot with
  | kept hpaced => exact ⟨_, mem_tasks_iff.mpr hbefore, hpaced⟩

/-- What every step of a task keeps, and every task of a table has, every task that
is left has as well. -/
theorem forall_tasks (h : Paced s after) {holds : Task → Prop}
    (hstep : ∀ task after, holds task → Task.PaceStep task after → holds after)
    (hall : ∀ task ∈ s.tasks, holds task) : ∀ task ∈ after.tasks, holds task := by
  intro later hmem
  obtain ⟨task, htask, hpaced⟩ := h.exists_of_mem hmem
  exact hpaced.invariant hstep (hall task htask)

end Paced

end Scheduler

end Kernelet
