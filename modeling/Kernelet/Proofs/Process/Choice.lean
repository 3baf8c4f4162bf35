import Kernelet.Proofs.Process.Slices

/-!
Who is selected. Of all tasks that can run the one with the most of its slice left goes
first, and among equals the one in the lowest slot (`Leads`). A selection finds that
task. If nobody can run, every slice is refilled once before it looks again, and apart
from that it changes no task (`selects_schedule`).
-/

namespace Kernelet.Scheduler

/-- The task can run, and goes before all others that can: those in lower slots have
less of their slices left, and those in higher slots do not have more. -/
structure Leads (s : Scheduler) (task : Task) : Prop where
  state_eq : task.state = .runnable
  left : 0 < task.counter
  first : ∃ lower higher, s.slots = lower ++ some task :: higher ∧
    (∀ other, some other ∈ lower → other.state = .runnable → other.counter < task.counter) ∧
    ∀ other, some other ∈ higher → other.state = .runnable → other.counter ≤ task.counter

/-- What a selection that answers with `next` makes of the table. -/
structure Selects (s : Scheduler) (next : Option Pid) (after : Scheduler) : Prop where
  /-- As long as somebody can run no task changes. -/
  kept : (∃ task ∈ s.tasks, task.state = .runnable ∧ 0 < task.counter) → after.slots = s.slots
  /-- Otherwise every slice is refilled, except those of zombies. -/
  refilled : (∀ task ∈ s.tasks, task.state = .runnable → task.counter = 0) →
    after.slots = s.slots.map (Option.map fun task =>
      if task.state = .zombie then task
      else { task with counter := min maxWord (task.counter / 2 + task.priority) })
  leads : ∀ pid, next = some pid → ∃ task, after.Leads task ∧ after.find? pid = some task
  none_iff : next = none ↔
    ∀ task ∈ s.tasks, task.state = .runnable → task.counter = 0 ∧ task.priority = 0
  rest : after = { s with
    slots := after.slots
    current := next
    contextSwitches :=
      if next ≠ none ∧ next ≠ s.current then s.contextSwitches + 1 else s.contextSwitches }
  /-- To select once more changes nothing. -/
  again : next ≠ none → after.schedule = (next, after)

variable {s : Scheduler} {task : Task} {pid : Pid}

theorem Leads.mem_tasks (h : s.Leads task) : task ∈ s.tasks := by
  obtain ⟨lower, higher, hslots, -⟩ := h.first
  rw [mem_tasks_iff, hslots]
  exact List.mem_append_right lower List.mem_cons_self

/-- The better of two has as much left as either. -/
theorem exists_better (best : Option Task) (task : Task) :
    ∃ winner, better best task = some winner ∧ task.counter ≤ winner.counter ∧
      ∀ b, best = some b → b.counter ≤ winner.counter := by
  cases best with
  | none => exact ⟨task, rfl, Nat.le_refl _, by simp⟩
  | some b =>
      by_cases hless : b.counter < task.counter
      · refine ⟨task, if_pos hless, Nat.le_refl _, ?_⟩
        rintro _ ⟨rfl⟩
        exact Nat.le_of_lt hless
      · refine ⟨b, if_neg hless, Nat.le_of_not_lt hless, ?_⟩
        rintro _ ⟨rfl⟩
        exact Nat.le_refl _

/-- The best of a list is the one that the search began with, which all of the list
fall short of or equal, or it stands in the list and is the first of its kind. -/
theorem split_of_foldl_better {tasks : List Task} {start : Option Task} {best : Task}
    (h : tasks.foldl better start = some best) :
    (start = some best ∧ ∀ task ∈ tasks, task.counter ≤ best.counter) ∨
    ∃ lower higher, tasks = lower ++ best :: higher ∧
      (∀ b, start = some b → b.counter < best.counter) ∧
      (∀ task ∈ lower, task.counter < best.counter) ∧
      ∀ task ∈ higher, task.counter ≤ best.counter := by
  induction tasks generalizing start with
  | nil => exact Or.inl ⟨h, by simp⟩
  | cons first rest ih =>
      obtain ⟨winner, hwinner, hfirst, hstart⟩ := exists_better start first
      rcases ih h with ⟨hbest, hrest⟩ | ⟨lower, higher, rfl, hbefore, hlower, hhigher⟩
      · -- Nobody after the first is better than the winner of the first comparison.
        cases hwinner.symm.trans hbest
        cases start with
        | none =>
            cases hwinner
            exact Or.inr ⟨[], rest, rfl, by simp, by simp, hrest⟩
        | some b =>
            by_cases hless : b.counter < first.counter
            · cases (if_pos hless).symm.trans hwinner
              refine Or.inr ⟨[], rest, rfl, ?_, by simp, hrest⟩
              rintro _ ⟨rfl⟩
              exact hless
            · cases (if_neg hless).symm.trans hwinner
              exact Or.inl ⟨rfl, List.forall_mem_cons.mpr ⟨hfirst, hrest⟩⟩
      · have hless := hbefore winner hwinner
        refine Or.inr ⟨first :: lower, higher, rfl, ?_, ?_, hhigher⟩
        · intro b hb
          exact Nat.lt_of_le_of_lt (hstart b hb) hless
        · exact List.forall_mem_cons.mpr ⟨Nat.lt_of_le_of_lt hfirst hless, hlower⟩

/-- The tasks that can run, slot by slot. -/
theorem filter_isRunnable_tasks (s : Scheduler) :
    s.tasks.filter Task.isRunnable = s.slots.filterMap (Option.filter Task.isRunnable) := by
  unfold tasks
  rw [List.filter_filterMap]
  rfl

theorem mem_candidates {slots : List (Option Task)} (hmem : some task ∈ slots)
    (hstate : task.state = .runnable) (hleft : 0 < task.counter) :
    task ∈ slots.filterMap (Option.filter Task.isRunnable) := by
  refine List.mem_filterMap.mpr ⟨some task, hmem, ?_⟩
  rw [Option.filter_some, if_pos (Task.isRunnable_iff.mpr ⟨hstate, hleft⟩)]

/-- A task is selected only if it leads. -/
theorem exists_leads_of_select (h : s.select = some pid) :
    ∃ task, s.Leads task ∧ task.pid = pid := by
  obtain ⟨task, hbest, hpid⟩ := Option.map_eq_some_iff.mp h
  rw [filter_isRunnable_tasks] at hbest
  refine ⟨task, ?_, hpid⟩
  rcases split_of_foldl_better hbest with ⟨hnone, -⟩ | ⟨before, after, hsplit, -, hbefore, hafter⟩
  · cases hnone
  · obtain ⟨lower, rest, hslots, rfl, hrest⟩ := List.filterMap_eq_append_iff.mp hsplit
    obtain ⟨empty, slot, higher, rfl, hempty, hslot, rfl⟩ := List.filterMap_eq_cons_iff.mp hrest
    obtain ⟨rfl, hruns⟩ := Option.filter_eq_some_iff.mp hslot
    obtain ⟨hstate, hleft⟩ := Task.isRunnable_iff.mp hruns
    refine ⟨hstate, hleft, lower ++ empty, higher, by simp [hslots], ?_, ?_⟩
    · intro other hmem hother
      -- One that has nothing left is no rival.
      by_cases hsome : 0 < other.counter
      · have hrival := mem_candidates hmem hother hsome
        rw [List.filterMap_append, List.filterMap_eq_nil_iff.mpr hempty, List.append_nil] at hrival
        exact hbefore other hrival
      · omega
    · intro other hmem hother
      by_cases hsome : 0 < other.counter
      · exact hafter other (mem_candidates hmem hother hsome)
      · omega

/-- A selection depends on the slots alone, and so it finds the same task again. -/
theorem schedule_of_select (h : s.select = some pid) (hcurrent : s.current = some pid) :
    s.schedule = (some pid, s) := by
  rcases s.schedule_cases with ⟨next, hselect, hrun⟩ | ⟨hnone, -⟩
  · cases h.symm.trans hselect
    rw [hrun, switchTo, hcurrent]
    simp [← hcurrent]
  · rw [h] at hnone
    cases hnone

theorem nodup_schedule (h : (s.tasks.map Task.pid).Nodup) :
    (s.schedule.2.tasks.map Task.pid).Nodup := by
  have hsame := congrArg (List.map fun x => x.1.pid) (SameOutline.schedule s).tasks_eq
  rw [List.map_map, List.map_map] at hsame
  have hpids : s.schedule.2.tasks.map Task.pid = s.tasks.map Task.pid := hsame
  rw [hpids]
  exact h

theorem refill_eq (task : Task) : task.refill =
    if task.state = .zombie then task
    else { task with counter := min maxWord (task.counter / 2 + task.priority) } := by
  simp [Task.refill, Task.isZombie, Task.decayCounter]

theorem switchTo_eq (s : Scheduler) (next : Option Pid) : s.switchTo next = { s with
    current := next
    contextSwitches :=
      if next ≠ none ∧ next ≠ s.current then s.contextSwitches + 1 else s.contextSwitches } := by
  simp [switchTo, Option.isSome_iff_ne_none]

theorem slots_decay (s : Scheduler) : s.decay.slots = s.slots.map (Option.map Task.refill) :=
  rfl

/-- Among tasks of different numbers a selection finds the one that goes first. It
refills the slices before that only if nobody can run. -/
theorem selects_schedule (h : (s.tasks.map Task.pid).Nodup) :
    s.Selects s.schedule.1 s.schedule.2 := by
  have hselect : s.schedule.2.select = s.schedule.1 := by
    rcases s.schedule_cases with ⟨pid, hselect, hrun⟩ | ⟨-, hrun⟩
    · rw [hrun]
      exact hselect
    · rw [hrun]
      rfl
  constructor
  case kept =>
    rintro ⟨task, hmem, hstate, hleft⟩
    rcases s.schedule_cases with ⟨pid, -, hrun⟩ | ⟨hnone, -⟩
    · rw [hrun]
      rfl
    · have hidle := select_eq_none_iff.mp hnone task hmem
      rw [Task.isRunnable_iff.mpr ⟨hstate, hleft⟩] at hidle
      cases hidle
  case refilled =>
    intro hspent
    rcases s.schedule_cases with ⟨pid, hsome, -⟩ | ⟨-, hrun⟩
    · obtain ⟨task, hleads, -⟩ := exists_leads_of_select hsome
      have hzero := hspent task hleads.mem_tasks hleads.state_eq
      have hleft := hleads.left
      omega
    · rw [hrun]
      exact s.slots_decay.trans (by simp only [← refill_eq])
  case leads =>
    intro pid hpid
    obtain ⟨task, hleads, rfl⟩ := exists_leads_of_select (hselect.trans hpid)
    exact ⟨task, hleads, find?_of_mem (nodup_schedule h) hleads.mem_tasks⟩
  case none_iff =>
    rw [schedule_eq_none_iff]
    refine forall₂_congr fun task _ => ?_
    constructor
    · intro hhope hstate
      by_contra hslice
      exact hhope ⟨hstate, by omega⟩
    · rintro hspent ⟨hstate, hslice⟩
      obtain ⟨hcounter, hpriority⟩ := hspent hstate
      omega
  case rest =>
    rcases s.schedule_cases with ⟨pid, -, hrun⟩ | ⟨-, hrun⟩
    · rw [hrun]
      exact s.switchTo_eq (some pid)
    · rw [hrun]
      exact s.decay.switchTo_eq s.decay.select
  case again =>
    intro hsome
    obtain ⟨pid, hpid⟩ := Option.ne_none_iff_exists'.mp hsome
    rw [hpid]
    exact schedule_of_select (hselect.trans hpid) (s.schedule_fst.symm.trans hpid)

/-- Two tasks have used their slices up. The sleeper and they get new ones, the zombie
does not, and then the one in the lower slot runs. -/
theorem selects_after_refill :
    let task := fun pid counter => (Task.new pid 0 "" (AddressSpace.new 0)).withTimeSlice 5 counter
    let s : Scheduler := { new 0 with
      slots := [none, some (task 4 0), some { task 3 8 with state := .interruptibleWait },
        some (task 2 0), some { task 1 0 with state := .zombie }]
      current := some 2 }
    (s.tasks.map Task.pid).Nodup ∧ s.schedule.1 = some 4 ∧
      s.schedule.2.tasks.map Task.counter = [5, 9, 5, 0] ∧ s.schedule.2.contextSwitches = 1 ∧
      s.Selects s.schedule.1 s.schedule.2 := by
  intro task s
  have hnodup : (s.tasks.map Task.pid).Nodup := by decide
  exact ⟨hnodup, by decide, by decide, by decide, selects_schedule hnodup⟩

end Kernelet.Scheduler
