import Kernelet.Proofs.Process.Choice

/-!
A whole epoch, from a running task with some of its slice left to the next refill. The
running task goes on until its slice is used up. Then the one that leads runs, for as
long as its own slice lasts, and so on, until nobody has anything left. That takes as
many ticks as the slices of all runnable tasks have together, and the last of these
ticks refills them (`exists_epoch`).

What has happened by a tick is told by whose ticks have gone by, and nothing else
(`elapse`). The order of the tasks is not computed but found on the way: at the end of
each stretch one task fewer can run, and the induction is on how many can.
-/

namespace Kernelet

/-- The task after `n` ticks of its slice. -/
def Task.spend (task : Task) (n : Nat) : Task :=
  { task with counter := task.counter - n, utime := task.utime + n }

/-- The ticks of a task that uses up its slice, each by its number. -/
def Task.stretch (task : Task) : List Pid :=
  List.replicate task.counter task.pid

theorem Task.pid_refill (task : Task) : task.refill.pid = task.pid := by
  unfold refill
  split <;> rfl

theorem Task.utime_refill (task : Task) : task.refill.utime = task.utime := by
  unfold refill
  split <;> rfl

theorem Task.length_stretch (task : Task) : task.stretch.length = task.counter :=
  List.length_replicate

namespace Scheduler

/-- What all runnable tasks together have left of their slices. -/
def slicesDue (s : Scheduler) : Nat :=
  ((s.tasks.filter fun task => task.state = .runnable).map Task.counter).sum

/-- Whose ticks go by, one after the other, if the tasks of `order` use up their slices
in turn. -/
def timeline (order : List Task) : List Pid :=
  order.flatMap Task.stretch

/-- The table after the ticks of `past`, each of which is spent by the task that it
names. -/
def elapse (s : Scheduler) (past : List Pid) : Scheduler :=
  { s.mapTasks fun task => task.spend (past.count task.pid) with
    jiffies := s.jiffies + past.length }

/-- Task `a` has more of its slice left than `b`, or as much and the lower slot. -/
def GoesBefore (s : Scheduler) (a b : Task) : Prop :=
  b.counter < a.counter ∨ a.counter = b.counter ∧ [a, b].Sublist s.tasks

/-- The next tick uses up the slice of the running task and leaves nobody who can run,
so that all slices are refilled. -/
def Refills (s : Scheduler) : Prop :=
  ∃ task, s.currentTask? = some task ∧ task.counter ≤ 1 ∧
    (s.clock.put task.spendTick).select = none

/-- The epoch in which `first` runs and then the tasks of `rest`. -/
structure Epoch (s : Scheduler) (first : Task) (rest : List Task) : Prop where
  /-- Everybody who can run has a turn. -/
  perm : (first :: rest).Perm (s.tasks.filter Task.isRunnable)
  sorted : rest.Pairwise s.GoesBefore
  length_eq : (timeline (first :: rest)).length = s.slicesDue
  /-- Each turn is one stretch of ticks, as long as the slice. -/
  current_eq : ∀ n < s.slicesDue, (s.ticks n).current = (timeline (first :: rest))[n]?
  /-- Until the last tick slices are spent, and nothing else happens to a task. -/
  spent : ∀ n < s.slicesDue,
    (s.ticks n).slots = (s.elapse ((timeline (first :: rest)).take n)).slots
  refills_iff : ∀ n < s.slicesDue, (s.ticks n).Refills ↔ n + 1 = s.slicesDue
  /-- By then every runnable task has spent its slice and nobody else has spent
  anything. -/
  refilled : (s.ticks s.slicesDue).slots = s.slots.map (Option.map fun task =>
    (task.spend (if task.state = .runnable then task.counter else 0)).refill)
  utime_eq : (s.ticks s.slicesDue).tasks.map (fun task => (task.pid, task.utime)) =
    s.tasks.map fun task =>
      (task.pid, task.utime + if task.state = .runnable then task.counter else 0)

variable {s : Scheduler} {first next task : Task} {rest order : List Task} {turns : List Pid}

theorem ticks_add (s : Scheduler) (m n : Nat) : s.ticks (m + n) = (s.ticks m).ticks n := by
  induction m generalizing s with
  | zero => rw [Nat.zero_add]; rfl
  | succ m ih =>
      rw [Nat.succ_add]
      exact ih s.timerTick.2

theorem ticks_succ (s : Scheduler) (n : Nat) : s.ticks (n + 1) = (s.ticks n).timerTick.2 :=
  s.ticks_add n 1

/-! ### Ticks that have gone by -/

theorem tasks_elapse (s : Scheduler) (past : List Pid) :
    (s.elapse past).tasks = s.tasks.map fun task => task.spend (past.count task.pid) :=
  s.tasks_mapTasks _

theorem elapse_nil (s : Scheduler) : s.elapse [] = s := by
  have hsame : (Option.map fun task : Task => task.spend 0) = id := by
    funext slot
    cases slot <;> rfl
  unfold elapse mapTasks
  simp only [List.count_nil, hsame, List.map_id, List.length_nil, Nat.add_zero]

theorem elapse_elapse (s : Scheduler) (past later : List Pid) :
    (s.elapse past).elapse later = s.elapse (past ++ later) := by
  have hboth : (fun task : Task => (task.spend (past.count task.pid)).spend
      (later.count (task.spend (past.count task.pid)).pid)) =
      fun task => task.spend ((past ++ later).count task.pid) := by
    funext task
    simp only [Task.spend, List.count_append, Nat.sub_sub, Nat.add_assoc]
  unfold elapse mapTasks
  simp only [List.map_map, List.length_append, Nat.add_assoc, Option.map_comp_map]
  rw [← hboth]
  rfl

theorem nodup_elapse (h : (s.tasks.map Task.pid).Nodup) (past : List Pid) :
    ((s.elapse past).tasks.map Task.pid).Nodup := by
  rw [tasks_elapse, List.map_map]
  exact h

theorem find?_elapse (h : (s.tasks.map Task.pid).Nodup) (hmem : task ∈ s.tasks)
    (past : List Pid) :
    (s.elapse past).find? task.pid = some (task.spend (past.count task.pid)) := by
  have hthere : task.spend (past.count task.pid) ∈ (s.elapse past).tasks := by
    rw [tasks_elapse]
    exact List.mem_map.mpr ⟨task, hmem, rfl⟩
  exact find?_of_mem (nodup_elapse h past) hthere

/-- A tick is spent by the task that runs. -/
theorem clock_put_spendTick (h : (s.tasks.map Task.pid).Nodup) (hmem : task ∈ s.tasks) :
    s.clock.put task.spendTick = s.elapse [task.pid] := by
  have hslots : s.slots.map (Option.map fun other =>
      if other.pid = task.spendTick.pid then task.spendTick else other) =
      s.slots.map (Option.map fun other => other.spend ([task.pid].count other.pid)) := by
    apply List.map_congr_left
    intro slot hslot
    cases slot with
    | none => rfl
    | some other =>
        by_cases hpid : other.pid = task.pid
        · have hsame : other = task :=
            List.inj_on_of_nodup_map h (mem_tasks_iff.mpr hslot) hmem hpid
          subst hsame
          simp [Task.spendTick, Task.decrementCounter, Task.spend]
        · have hother : ¬ other.pid = task.spendTick.pid := hpid
          simp [hother, Task.spend, List.count_singleton, Ne.symm hpid]
  unfold put update mapTasks elapse
  rw [show s.clock.slots = s.slots from rfl, hslots]
  rfl

theorem timerTick_of_current (h : (s.tasks.map Task.pid).Nodup) (hmem : task ∈ s.tasks)
    (hcurrent : s.current = some task.pid) :
    (task.counter ≤ 1 ∧ s.timerTick.2 = (s.elapse [task.pid]).schedule.2) ∨
    (1 < task.counter ∧ s.timerTick.2 = s.elapse [task.pid]) := by
  have hthere : s.currentTask? = some task :=
    currentTask?_eq_some_iff.mpr ⟨task.pid, hcurrent, find?_of_mem h hmem⟩
  rw [← clock_put_spendTick h hmem]
  rcases s.timerTick_cases with ⟨hnone, -⟩ | ⟨other, hother, hcases⟩
  · rw [hthere] at hnone
    cases hnone
  · cases hthere.symm.trans hother
    rcases hcases with ⟨hspent, hrun⟩ | ⟨hmore, hrun⟩
    · exact Or.inl ⟨by omega, congrArg Prod.snd hrun⟩
    · exact Or.inr ⟨by omega, congrArg Prod.snd hrun⟩

theorem refills_of_current (h : (s.tasks.map Task.pid).Nodup) (hmem : task ∈ s.tasks)
    (hcurrent : s.current = some task.pid) :
    s.Refills ↔ task.counter ≤ 1 ∧ (s.elapse [task.pid]).select = none := by
  have hthere : s.currentTask? = some task :=
    currentTask?_eq_some_iff.mpr ⟨task.pid, hcurrent, find?_of_mem h hmem⟩
  unfold Refills
  rw [← clock_put_spendTick h hmem]
  constructor
  · rintro ⟨other, hother, hspent⟩
    cases hthere.symm.trans hother
    exact hspent
  · intro hspent
    exact ⟨task, hthere, hspent⟩

/-! ### One stretch -/

section Stretch

variable (h : (s.tasks.map Task.pid).Nodup) (hmem : first ∈ s.tasks)
  (hcurrent : s.current = some first.pid)

include h hmem hcurrent

/-- Who runs goes on until its slice is used up. -/
theorem ticks_of_lt {n : Nat} (hn : n < first.counter) :
    s.ticks n = s.elapse (List.replicate n first.pid) := by
  induction n with
  | zero => exact s.elapse_nil.symm
  | succ n ih =>
      have hbefore := ih (by omega)
      have hthere := find?_elapse h hmem (List.replicate n first.pid)
      rw [List.count_replicate_self] at hthere
      rw [ticks_succ, hbefore, List.replicate_succ', ← elapse_elapse]
      rcases timerTick_of_current (nodup_elapse h _) (mem_tasks_of_find? hthere) hcurrent with
        ⟨hspent, -⟩ | ⟨-, hrun⟩
      · have hleft : first.counter - n ≤ 1 := hspent
        omega
      · exact hrun

/-- At the end of its stretch another task is selected. -/
theorem ticks_counter (hleft : 0 < first.counter) :
    s.ticks first.counter =
      (s.elapse (first.stretch)).schedule.2 := by
  obtain ⟨n, hn⟩ := Nat.exists_eq_succ_of_ne_zero (Nat.ne_of_gt hleft)
  have hbefore := ticks_of_lt h hmem hcurrent (n := n) (by omega)
  have hthere := find?_elapse h hmem (List.replicate n first.pid)
  rw [List.count_replicate_self] at hthere
  rw [Task.stretch, hn, ticks_succ, hbefore, Nat.succ_eq_add_one, List.replicate_succ',
    ← elapse_elapse]
  rcases timerTick_of_current (nodup_elapse h _) (mem_tasks_of_find? hthere) hcurrent with
    ⟨-, hrun⟩ | ⟨hmore, -⟩
  · exact hrun
  · have hleft : 1 < first.counter - n := hmore
    omega

/-- Slices are refilled within a stretch only at its end, if nobody is left. -/
theorem refills_ticks {n : Nat} (hn : n < first.counter) :
    (s.ticks n).Refills ↔ n + 1 = first.counter ∧
      (s.elapse (first.stretch)).select = none := by
  have hthere := find?_elapse h hmem (List.replicate n first.pid)
  rw [List.count_replicate_self] at hthere
  have hrefills := refills_of_current (nodup_elapse h _) (mem_tasks_of_find? hthere) hcurrent
  have hcounter : (first.spend n).counter = first.counter - n := rfl
  rw [ticks_of_lt h hmem hcurrent hn, hrefills, hcounter, elapse_elapse]
  by_cases hlast : n + 1 = first.counter
  · have hpast : List.replicate n first.pid ++ [(first.spend n).pid] =
        first.stretch := by
      rw [Task.stretch, ← hlast, List.replicate_succ']
      rfl
    rw [hpast]
    exact and_congr_left fun _ => iff_of_true (by omega) hlast
  · exact iff_of_false (fun hspent => by omega) (fun hspent => hlast hspent.1)

end Stretch

/-! ### One stretch after the other -/

/-- The ticks go to the tasks that `turns` names, and the last of them is the first that
refills slices. -/
structure Unfolds (s : Scheduler) (turns : List Pid) : Prop where
  current_eq : ∀ n < turns.length, (s.ticks n).current = turns[n]?
  spent : ∀ n < turns.length, (s.ticks n).slots = (s.elapse (turns.take n)).slots
  refills_iff : ∀ n < turns.length, (s.ticks n).Refills ↔ n + 1 = turns.length
  refilled : (s.ticks turns.length).slots = (s.elapse turns).decay.slots

theorem current_ticks_of_lt (h : (s.tasks.map Task.pid).Nodup) (hmem : first ∈ s.tasks)
    (hcurrent : s.current = some first.pid) {n : Nat} (hn : n < first.counter) :
    (s.ticks n).current = first.stretch[n]? := by
  rw [ticks_of_lt h hmem hcurrent hn, Task.stretch, List.getElem?_replicate, if_pos hn]
  exact hcurrent

theorem slots_ticks_of_lt (h : (s.tasks.map Task.pid).Nodup) (hmem : first ∈ s.tasks)
    (hcurrent : s.current = some first.pid) {n : Nat} (hn : n < first.counter) :
    (s.ticks n).slots = (s.elapse (first.stretch.take n)).slots := by
  rw [ticks_of_lt h hmem hcurrent hn, Task.stretch, List.take_replicate,
    Nat.min_eq_left (Nat.le_of_lt hn)]

/-- The last stretch of an epoch. -/
theorem unfolds_last (h : (s.tasks.map Task.pid).Nodup) (hmem : first ∈ s.tasks)
    (hcurrent : s.current = some first.pid) (hleft : 0 < first.counter)
    (hnone : (s.elapse first.stretch).select = none) : s.Unfolds first.stretch where
  current_eq := by
    intro n hn
    exact current_ticks_of_lt h hmem hcurrent (first.length_stretch ▸ hn)
  spent := by
    intro n hn
    exact slots_ticks_of_lt h hmem hcurrent (first.length_stretch ▸ hn)
  refills_iff := by
    intro n hn
    rw [Task.length_stretch] at hn ⊢
    rw [refills_ticks h hmem hcurrent hn, and_iff_left hnone]
  refilled := by
    rw [Task.length_stretch, ticks_counter h hmem hcurrent hleft]
    rcases schedule_cases (s.elapse first.stretch) with ⟨pid, hsome, -⟩ | ⟨-, hrun⟩
    · rw [hnone] at hsome
      cases hsome
    · rw [hrun]
      rfl

/-- A stretch at whose end somebody is left to go on. -/
theorem unfolds_append {pid : Pid} (h : (s.tasks.map Task.pid).Nodup) (hmem : first ∈ s.tasks)
    (hcurrent : s.current = some first.pid) (hleft : 0 < first.counter)
    (hselect : (s.elapse first.stretch).select = some pid) (hsome : 0 < turns.length)
    (hrest : ((s.elapse first.stretch).switchTo (some pid)).Unfolds turns) :
    s.Unfolds (first.stretch ++ turns) := by
  have hthen : s.ticks first.counter = (s.elapse first.stretch).switchTo (some pid) := by
    rw [ticks_counter h hmem hcurrent hleft]
    rcases schedule_cases (s.elapse first.stretch) with ⟨other, hother, hrun⟩ | ⟨hnone, -⟩
    · cases hselect.symm.trans hother
      rw [hrun]
    · rw [hnone] at hselect
      cases hselect
  have hlater : ∀ n, s.ticks (first.counter + n) =
      ((s.elapse first.stretch).switchTo (some pid)).ticks n := by
    intro n
    rw [ticks_add, hthen]
  have helapse : ∀ later, (((s.elapse first.stretch).switchTo (some pid)).elapse later).slots =
      (s.elapse (first.stretch ++ later)).slots := by
    intro later
    rw [← elapse_elapse]
    rfl
  have hwidth := first.length_stretch
  have hlength : (first.stretch ++ turns).length = first.counter + turns.length := by
    rw [List.length_append, hwidth]
  -- A tick falls into this stretch, or into the rest.
  have hsplit : ∀ n < (first.stretch ++ turns).length,
      n < first.counter ∨ ∃ k < turns.length, n = first.counter + k := by
    intro n hn
    rcases Nat.lt_or_ge n first.counter with hlt | hge
    · exact Or.inl hlt
    · exact Or.inr ⟨n - first.counter, by omega, by omega⟩
  constructor
  · intro n hn
    rcases hsplit n hn with hlt | ⟨k, hk, rfl⟩
    · rw [current_ticks_of_lt h hmem hcurrent hlt, List.getElem?_append_left (by omega)]
    · rw [hlater, hrest.current_eq k hk, List.getElem?_append_right (by omega), hwidth,
        Nat.add_sub_cancel_left]
  · intro n hn
    rcases hsplit n hn with hlt | ⟨k, hk, rfl⟩
    · rw [slots_ticks_of_lt h hmem hcurrent hlt, List.take_append_of_le_length (by omega)]
    · rw [hlater, hrest.spent k hk, helapse, ← hwidth, List.take_length_add_append]
  · intro n hn
    rcases hsplit n hn with hlt | ⟨k, hk, rfl⟩
    · rw [refills_ticks h hmem hcurrent hlt, hselect, hlength]
      simp only [reduceCtorEq, and_false, false_iff]
      omega
    · rw [hlater, hrest.refills_iff k hk, hlength]
      omega
  · rw [hlength, hlater, hrest.refilled, slots_decay, helapse, slots_decay]

/-! ### Who goes on -/

/-- Among those that can run, the one that leads goes before every other. -/
theorem Leads.goesBefore (h : s.Leads next) (hmem : task ∈ s.tasks)
    (hruns : task.isRunnable = true) (hne : task ≠ next) : s.GoesBefore next task := by
  obtain ⟨lower, higher, hslots, hlower, hhigher⟩ := h.first
  have hstate := (Task.isRunnable_iff.mp hruns).1
  rw [mem_tasks_iff, hslots, List.mem_append, List.mem_cons] at hmem
  rcases hmem with hlow | heq | hhigh
  · exact Or.inl (hlower task hlow hstate)
  · cases heq
    exact absurd rfl hne
  · rcases Nat.lt_or_ge task.counter next.counter with hless | hmore
    · exact Or.inl hless
    · refine Or.inr ⟨Nat.le_antisymm hmore (hhigher task hhigh hstate), ?_⟩
      have hlater : [task].Sublist (higher.filterMap id) :=
        List.singleton_sublist.mpr (List.mem_filterMap.mpr ⟨some task, hhigh, rfl⟩)
      unfold tasks
      rw [hslots, List.filterMap_append, List.filterMap_cons_some (by rfl)]
      exact (hlater.cons_cons next).trans (List.sublist_append_right _ _)

/-- Once `first` has used up its slice, the others can run as before. -/
theorem runnable_elapse (h : (s.tasks.map Task.pid).Nodup) (hmem : first ∈ s.tasks)
    (hruns : first.isRunnable = true) :
    ∃ before after, s.tasks.filter Task.isRunnable = before ++ first :: after ∧
      (s.elapse (first.stretch)).tasks.filter Task.isRunnable =
        before ++ after := by
  obtain ⟨before, after, hsplit⟩ := List.append_of_mem hmem
  have hothers : ∀ task ∈ before ++ after, first.pid ≠ task.pid := by
    rw [hsplit, List.map_append, List.map_cons] at h
    have hnot := (List.nodup_cons.mp (List.nodup_middle.mp h)).1
    rw [← List.map_append] at hnot
    intro task htask hpid
    exact hnot (hpid ▸ List.mem_map_of_mem htask)
  have hkept : ∀ tasks, tasks ⊆ before ++ after → tasks.map (fun task =>
      task.spend ((first.stretch).count task.pid)) = tasks := by
    intro tasks hsub
    refine (List.map_congr_left ?_).trans (List.map_id _)
    intro task htask
    rw [Task.stretch, List.count_replicate, if_neg (by simpa using hothers task (hsub htask))]
    rfl
  have hspent : ¬ (first.spend (first.stretch.count first.pid)).isRunnable = true := by
    simp [Task.isRunnable, Task.spend, Task.stretch]
  refine ⟨before.filter Task.isRunnable, after.filter Task.isRunnable, ?_, ?_⟩
  · rw [hsplit, List.filter_append, List.filter_cons_of_pos hruns]
  · rw [tasks_elapse, hsplit, List.map_append, List.map_cons,
      hkept before (List.subset_append_left _ _), hkept after (List.subset_append_right _ _),
      List.filter_append, List.filter_cons_of_neg hspent]

theorem timeline_cons (task : Task) (rest : List Task) :
    timeline (task :: rest) = task.stretch ++ timeline rest :=
  List.flatMap_cons

theorem count_timeline_eq_zero {pid : Pid} (h : ∀ task ∈ order, task.pid ≠ pid) :
    (timeline order).count pid = 0 := by
  rw [List.count_eq_zero]
  intro hmem
  obtain ⟨task, htask, hstretch⟩ := List.mem_flatMap.mp hmem
  exact h task htask (List.eq_of_mem_replicate hstretch).symm

theorem length_timeline (order : List Task) :
    (timeline order).length = (order.map Task.counter).sum := by
  unfold timeline
  rw [List.length_flatMap]
  simp only [Task.length_stretch]

/-- A table in which fewer can run has no other order among them. -/
theorem GoesBefore.mono {after : Scheduler} {a b : Task} (h : after.GoesBefore a b)
    (hfewer : (after.tasks.filter Task.isRunnable).Sublist (s.tasks.filter Task.isRunnable))
    (ha : a.isRunnable = true) (hb : b.isRunnable = true) : s.GoesBefore a b := by
  refine h.imp_right ?_
  rintro ⟨hequal, hslots⟩
  have hboth := hslots.filter Task.isRunnable
  rw [List.filter_cons_of_pos ha, List.filter_cons_of_pos hb, List.filter_nil] at hboth
  exact ⟨hequal, (hboth.trans hfewer).trans List.filter_sublist⟩

/-- Whoever leads goes before the others that can run, and all of them are in the order that
they had in a table in which more could run. -/
theorem Leads.pairwise_cons {after : Scheduler} {next : Task} {rest : List Task}
    (hleads : after.Leads next) (h : (after.tasks.map Task.pid).Nodup)
    (hperm : (next :: rest).Perm (after.tasks.filter Task.isRunnable))
    (hfewer : (after.tasks.filter Task.isRunnable).Sublist (s.tasks.filter Task.isRunnable))
    (hsorted : rest.Pairwise after.GoesBefore) : (next :: rest).Pairwise s.GoesBefore := by
  have hnodup : (next :: rest).Nodup :=
    hperm.nodup_iff.mpr ((List.Nodup.of_map _ h).filter _)
  have hrunnable : ∀ task ∈ next :: rest, task ∈ after.tasks ∧ task.isRunnable = true := by
    intro task htask
    exact List.mem_filter.mp (hperm.mem_iff.mp htask)
  have hnext := (hrunnable next List.mem_cons_self).2
  refine List.pairwise_cons.mpr ⟨?_, ?_⟩
  · intro task htask
    obtain ⟨hthere, hruns⟩ := hrunnable task (List.mem_cons_of_mem _ htask)
    have hne : task ≠ next := by
      rintro rfl
      exact (List.nodup_cons.mp hnodup).1 htask
    exact (hleads.goesBefore hthere hruns hne).mono hfewer hnext hruns
  · refine hsorted.imp_of_mem ?_
    intro a b ha hb hbefore
    exact hbefore.mono hfewer (hrunnable a (List.mem_cons_of_mem _ ha)).2
      (hrunnable b (List.mem_cons_of_mem _ hb)).2

/-- From a task that runs on, the ticks go to all that can run, one after the other. -/
theorem exists_unfolds (h : (s.tasks.map Task.pid).Nodup) (hmem : first ∈ s.tasks)
    (hruns : first.isRunnable = true) (hcurrent : s.current = some first.pid) :
    ∃ rest, (first :: rest).Perm (s.tasks.filter Task.isRunnable) ∧
      rest.Pairwise s.GoesBefore ∧ s.Unfolds (timeline (first :: rest)) := by
  induction hcount : (s.tasks.filter Task.isRunnable).length generalizing s first with
  | zero =>
      have hthere : first ∈ s.tasks.filter Task.isRunnable := List.mem_filter.mpr ⟨hmem, hruns⟩
      rw [List.length_eq_zero_iff.mp hcount] at hthere
      cases hthere
  | succ count ih =>
      have hleft := (Task.isRunnable_iff.mp hruns).2
      obtain ⟨before, after, hsplit, hothers⟩ := runnable_elapse h hmem hruns
      generalize hspent : s.elapse (first.stretch) = spent at hothers
      cases hselect : spent.select with
      | none =>
          have hnobody : before ++ after = [] := by
            rw [← hothers, List.filter_eq_nil_iff]
            intro task htask
            rw [select_eq_none_iff.mp hselect task htask]
            exact Bool.false_ne_true
          obtain ⟨rfl, rfl⟩ := List.append_eq_nil_iff.mp hnobody
          refine ⟨[], hsplit ▸ List.Perm.refl _, List.Pairwise.nil, ?_⟩
          have hlast := unfolds_last h hmem hcurrent hleft (hspent.symm ▸ hselect)
          simpa [timeline] using hlast
      | some pid =>
          obtain ⟨next, hleads, rfl⟩ := exists_leads_of_select hselect
          have hnodup : (spent.tasks.map Task.pid).Nodup := hspent ▸ nodup_elapse h _
          have hnext := Task.isRunnable_iff.mpr ⟨hleads.state_eq, hleads.left⟩
          have hfewer : (spent.tasks.filter Task.isRunnable).length = count := by
            rw [hsplit, List.length_append, List.length_cons] at hcount
            rw [hothers, List.length_append]
            omega
          obtain ⟨rest, hperm, hsorted, hrest⟩ :=
            ih (s := spent.switchTo (some next.pid)) hnodup hleads.mem_tasks hnext rfl hfewer
          have hall : (next :: rest).Perm (before ++ after) := hothers ▸ hperm
          have hfewerTasks : (spent.tasks.filter Task.isRunnable).Sublist
              (s.tasks.filter Task.isRunnable) := by
            rw [hothers, hsplit]
            exact (List.sublist_cons_self first after).append_left before
          have hsorted : rest.Pairwise spent.GoesBefore := hsorted
          refine ⟨next :: rest, ?_, hleads.pairwise_cons hnodup hperm hfewerTasks hsorted, ?_⟩
          · rw [hsplit]
            exact (hall.cons first).trans List.perm_middle.symm
          · subst hspent
            have hsome : 0 < (timeline (next :: rest)).length := by
              rw [length_timeline, List.map_cons, List.sum_cons]
              exact Nat.add_pos_left hleads.left _
            exact unfolds_append h hmem hcurrent hleft hselect hsome hrest

/-! ### What each task has spent -/

/-- In a timeline each task stands as often as its slice is long. -/
theorem count_timeline_of_mem (h : (order.map Task.pid).Nodup) (hmem : task ∈ order) :
    (timeline order).count task.pid = task.counter := by
  induction order with
  | nil => cases hmem
  | cons head tail ih =>
      rw [List.map_cons, List.nodup_cons] at h
      rw [timeline_cons, List.count_append]
      rcases List.mem_cons.mp hmem with rfl | hrest
      · rw [Task.stretch, List.count_replicate_self, count_timeline_eq_zero, Nat.add_zero]
        intro other hother hpid
        exact h.1 (hpid ▸ List.mem_map_of_mem hother)
      · have hne : head.pid ≠ task.pid := by
          intro hpid
          exact h.1 (hpid ▸ List.mem_map_of_mem hrest)
        rw [ih h.2 hrest, Task.stretch, List.count_replicate, if_neg (by simpa using hne),
          Nat.zero_add]

theorem sum_counter_filter (tasks : List Task) :
    ((tasks.filter fun task => task.state = .runnable).map Task.counter).sum =
      ((tasks.filter Task.isRunnable).map Task.counter).sum := by
  induction tasks with
  | nil => rfl
  | cons task rest ih =>
      by_cases hstate : task.state = .runnable
      · rcases Nat.eq_zero_or_pos task.counter with hzero | hpos
        · have hspent : ¬ task.isRunnable = true := by
            rw [Task.isRunnable_iff]
            omega
          rw [List.filter_cons_of_pos (by simpa using hstate), List.filter_cons_of_neg hspent,
            List.map_cons, List.sum_cons, hzero, Nat.zero_add, ih]
        · rw [List.filter_cons_of_pos (by simpa using hstate),
            List.filter_cons_of_pos (Task.isRunnable_iff.mpr ⟨hstate, hpos⟩), List.map_cons,
            List.sum_cons, List.map_cons, List.sum_cons, ih]
      · have hidle : ¬ task.isRunnable = true := fun hruns =>
          hstate (Task.isRunnable_iff.mp hruns).1
        rw [List.filter_cons_of_neg (by simpa using hstate), List.filter_cons_of_neg hidle, ih]

/-- By the end of the epoch a runnable task has spent its slice and nobody else has
spent anything. -/
theorem count_timeline (h : (s.tasks.map Task.pid).Nodup)
    (hperm : order.Perm (s.tasks.filter Task.isRunnable)) (hmem : task ∈ s.tasks) :
    (timeline order).count task.pid = if task.state = .runnable then task.counter else 0 := by
  have hpids : (order.map Task.pid).Nodup :=
    (hperm.map Task.pid).nodup_iff.mpr (h.sublist (List.filter_sublist.map Task.pid))
  by_cases hruns : task.isRunnable = true
  · rw [if_pos (Task.isRunnable_iff.mp hruns).1]
    exact count_timeline_of_mem hpids
      (hperm.mem_iff.mpr (List.mem_filter.mpr ⟨hmem, hruns⟩))
  · have hnothing : (if task.state = .runnable then task.counter else 0) = 0 := by
      rw [Task.isRunnable_iff, not_and, Nat.not_lt, Nat.le_zero] at hruns
      split
      · rename_i hstate
        exact hruns hstate
      · rfl
    rw [hnothing]
    apply count_timeline_eq_zero
    intro other hother hpid
    obtain ⟨hthere, hotherRuns⟩ := List.mem_filter.mp (hperm.mem_iff.mp hother)
    rw [List.inj_on_of_nodup_map h hthere hmem hpid] at hotherRuns
    exact hruns hotherRuns

/-- From a running task on, everybody who can run spends its slice in one stretch, who
has most left of it first, and the tick that uses up the last slice refills them all. -/
theorem exists_epoch (h : (s.tasks.map Task.pid).Nodup) (hcurrent : s.currentTask? = some first)
    (hstate : first.state = .runnable) (hleft : 0 < first.counter) :
    ∃ rest, s.Epoch first rest := by
  obtain ⟨pid, hpid, hfind⟩ := currentTask?_eq_some_iff.mp hcurrent
  rw [← pid_of_find? hfind] at hpid
  obtain ⟨rest, hperm, hsorted, hunfolds⟩ := exists_unfolds h (mem_tasks_of_find? hfind)
    (Task.isRunnable_iff.mpr ⟨hstate, hleft⟩) hpid
  have hlength : (timeline (first :: rest)).length = s.slicesDue := by
    rw [length_timeline, (hperm.map Task.counter).sum_nat, slicesDue, sum_counter_filter]
  have hrefilled : (s.ticks s.slicesDue).slots = s.slots.map (Option.map fun task =>
      (task.spend (if task.state = .runnable then task.counter else 0)).refill) := by
    rw [← hlength, hunfolds.refilled, slots_decay]
    unfold elapse mapTasks
    rw [List.map_map]
    apply List.map_congr_left
    intro slot hslot
    cases slot with
    | none => rfl
    | some task =>
        have hcount := count_timeline h hperm (mem_tasks_iff.mpr hslot)
        exact congrArg (fun n => some (task.spend n).refill) hcount
  refine ⟨rest, hperm, hsorted, hlength, ?_, ?_, ?_, hrefilled, ?_⟩
  · exact hlength ▸ hunfolds.current_eq
  · exact hlength ▸ hunfolds.spent
  · exact hlength ▸ hunfolds.refills_iff
  · have htasks : (s.ticks s.slicesDue).tasks = s.tasks.map fun task =>
        (task.spend (if task.state = .runnable then task.counter else 0)).refill := by
      unfold tasks
      rw [hrefilled]
      exact s.tasks_mapTasks _
    rw [htasks, List.map_map]
    apply List.map_congr_left
    intro task _
    simp only [Function.comp_apply, Task.pid_refill, Task.utime_refill]
    rfl

/-- The task in the last slot runs and has two ticks left. Then the two that have three
left run in the order of their slots, and then the one that has one left. The sleeper
has no turn, nor has the one that is runnable with nothing left. -/
theorem exists_epoch_of_six :
    let task := fun pid counter => (Task.new pid 0 "" (AddressSpace.new 0)).withTimeSlice 5 counter
    let first := task 1 2
    let s : Scheduler := { new 0 with
      slots := [some (task 6 1), some (task 4 3), none, some (task 2 0), some (task 3 3),
        some { task 5 9 with state := .interruptibleWait }, some first]
      current := some 1 }
    (s.tasks.map Task.pid).Nodup ∧ s.currentTask? = some first ∧ s.slicesDue = 9 ∧
      (List.range 9).map (fun n => (s.ticks n).current) =
        [1, 1, 4, 4, 4, 3, 3, 3, 6].map some ∧ ∃ rest, s.Epoch first rest := by
  intro task first s
  have hnodup : (s.tasks.map Task.pid).Nodup := by decide
  have hcurrent : s.currentTask? = some first := rfl
  exact ⟨hnodup, hcurrent, by decide, by decide, exists_epoch hnodup hcurrent rfl (by decide)⟩

end Scheduler

end Kernelet
