import Mathlib.Data.List.Perm.Basic
import Mathlib.Data.List.Nodup
import Kernelet.Process.Scheduler.Lemmas

/-!
The process table seen through its outline: who is whose child, who has
terminated, who waits, and which address space each task owns. Selecting tasks,
putting them to sleep and waking them leaves the outline alone
(`SameOutline`), and everything else of a task that lasts (`SameView`), whatever
it does to states and time slices. What does change the outline changes one task,
and `tasks_perm` and `tasks_put_perm` take that task out of the table and put it
back.
-/

namespace Kernelet

/-- What a task is to its family. -/
structure Kin where
  pid : Pid
  ppid : Pid
  zombie : Bool
  waiting : Bool
deriving DecidableEq

namespace Task

def kin (task : Task) : Kin where
  pid := task.pid
  ppid := task.ppid
  zombie := task.isZombie
  waiting := task.waitingForChild

/-- What a task is to its family, and what it owns. -/
def outline (task : Task) : Kin × Option AddressSpace :=
  (task.kin, task.space)

theorem pid_eq_of_outline {task other : Task} (h : task.outline = other.outline) :
    task.pid = other.pid :=
  congrArg (fun x => x.1.pid) h

theorem isZombie_eq_of_outline {task other : Task} (h : task.outline = other.outline) :
    task.isZombie = other.isZombie :=
  congrArg (fun x => x.1.zombie) h

theorem space_eq_of_outline {task other : Task} (h : task.outline = other.outline) :
    task.space = other.space :=
  congrArg Prod.snd h

theorem isZombie_of_state {task : Task} (h : task.state ≠ .zombie) : task.isZombie = false :=
  beq_eq_false_iff_ne.mpr h

/-- What is seen of a task does not tell how much of its slice is left, which
signals are pending, or which of the live states it is in. -/
structure Lasting {β : Type} (view : Task → β) : Prop where
  counter : ∀ task counter, view { task with counter } = view task
  utime : ∀ task utime, view { task with utime } = view task
  live : ∀ task state pending, task.isZombie = false → state ≠ .zombie →
    view { task with state, pending } = view task

namespace Lasting

variable {β : Type} {view : Task → β}

theorem wake (h : Lasting view) (task : Task) : view task.wake = view task := by
  unfold Task.wake
  split
  · rename_i hwaits
    have hlive : task.state ≠ .zombie := by
      intro heq
      simp [heq, TaskState.isWaiting] at hwaits
    exact h.live task .runnable task.pending (isZombie_of_state hlive) (by decide)
  · rfl

theorem block (h : Lasting view) {task after : Task} {interruptible : Bool}
    (hrun : task.block interruptible = .ok after) : view after = view task := by
  unfold Task.block at hrun
  split at hrun
  · rename_i hstate
    have hlive : task.isZombie = false := isZombie_of_state (by simp [hstate])
    cases hrun
    cases interruptible with
    | true => exact h.live task .interruptibleWait task.pending hlive (by decide)
    | false => exact h.live task .uninterruptibleWait task.pending hlive (by decide)
  · cases hrun

theorem send (h : Lasting view) (task : Task) (signal : Signal) :
    view (task.send signal) = view task := by
  unfold Task.send
  split
  · rfl
  · rename_i halive
    have hlive : task.isZombie = false := by simpa using halive
    have hstate : task.state ≠ .zombie := by
      intro heq
      simp [isZombie, heq] at hlive
    have hpending : ∀ pending, view { task with pending } = view task :=
      fun pending => h.live task task.state pending hlive hstate
    dsimp only
    split
    · exact h.live task .stopped _ hlive (by decide)
    · unfold resume
      split
      · exact h.live task .runnable _ hlive (by decide)
      · exact hpending _
    · split
      · exact h.live task .runnable _ hlive (by decide)
      · exact hpending _
    · split
      · exact h.live task .runnable _ hlive (by decide)
      · exact hpending _

end Lasting

theorem lasting_outline : Lasting outline where
  counter _ _ := rfl
  utime _ _ := rfl
  live := by
    intro task state pending hlive hstate
    have hafter : { task with state, pending }.isZombie = false := isZombie_of_state hstate
    unfold outline kin
    rw [hlive, hafter]

theorem outline_wake (task : Task) : task.wake.outline = task.outline :=
  lasting_outline.wake task

theorem outline_block {task after : Task} {interruptible : Bool}
    (h : task.block interruptible = .ok after) : after.outline = task.outline :=
  lasting_outline.block h

theorem outline_send (task : Task) (signal : Signal) :
    (task.send signal).outline = task.outline :=
  lasting_outline.send task signal

end Task

namespace Scheduler

/-- The tables agree in what is seen of the tasks, one by one. -/
structure SameView {β : Type} (view : Task → β) (s after : Scheduler) : Prop where
  tasks_eq : after.tasks.map view = s.tasks.map view
  nextPid_eq : after.nextPid = s.nextPid

/-- The tables agree in outline, task by task. -/
structure SameOutline (s after : Scheduler) : Prop where
  tasks_eq : after.tasks.map Task.outline = s.tasks.map Task.outline
  nextPid_eq : after.nextPid = s.nextPid

/-- No number is used twice, and none that is beyond the count of those that were
handed out. Number 0 is used only if numbers have come round. -/
structure Proper (s : Scheduler) : Prop where
  nodup : (s.tasks.map Task.pid).Nodup
  pid_pos : s.NumbersFit → ∀ task ∈ s.tasks, 0 < task.pid
  pid_lt : ∀ task ∈ s.tasks, task.pid < s.nextPid
  nextPid_pos : 0 < s.nextPid

/-- The tasks of other numbers. -/
def others (s : Scheduler) (pid : Pid) : List Task :=
  s.tasks.filter fun task => task.pid != pid

variable {s after : Scheduler} {task : Task} {pid : Pid}

theorem eq_of_pid_eq (h : s.Proper) {other : Task} (hmem : task ∈ s.tasks)
    (hother : other ∈ s.tasks) (hpid : other.pid = task.pid) : other = task :=
  List.inj_on_of_nodup_map h.nodup hother hmem hpid

/-- Where no number is used twice a task is found under its own. -/
theorem find?_of_mem (h : (s.tasks.map Task.pid).Nodup) (hmem : task ∈ s.tasks) :
    s.find? task.pid = some task := by
  cases hfind : s.find? task.pid with
  | none => exact absurd rfl (find?_eq_none_iff.mp hfind task hmem)
  | some other =>
      have hother : other = task :=
        List.inj_on_of_nodup_map h (mem_tasks_of_find? hfind) hmem (pid_of_find? hfind)
      rw [hother]

theorem find?_eq_some_iff (h : s.Proper) :
    s.find? pid = some task ↔ task ∈ s.tasks ∧ task.pid = pid := by
  constructor
  · intro hfind
    exact ⟨mem_tasks_of_find? hfind, pid_of_find? hfind⟩
  · rintro ⟨hmem, rfl⟩
    exact find?_of_mem h.nodup hmem

theorem mem_others {other : Task} : other ∈ s.others pid ↔ other ∈ s.tasks ∧ other.pid ≠ pid := by
  unfold others
  rw [List.mem_filter, bne_iff_ne]

/-- A task that is found, and the others. -/
theorem tasks_perm (h : s.Proper) (hfind : s.find? pid = some task) :
    s.tasks.Perm (task :: s.others pid) := by
  have hnodup := List.Nodup.of_map _ h.nodup
  have hfound := (find?_eq_some_iff h).mp hfind
  rw [List.perm_ext_iff_of_nodup hnodup]
  · intro other
    rw [List.mem_cons, mem_others]
    constructor
    · intro hmem
      by_cases hpid : other.pid = pid
      · exact Or.inl (eq_of_pid_eq h hfound.1 hmem (hpid.trans hfound.2.symm))
      · exact Or.inr ⟨hmem, hpid⟩
    · rintro (rfl | ⟨hmem, -⟩)
      · exact hfound.1
      · exact hmem
  · rw [List.nodup_cons, mem_others]
    refine ⟨?_, hnodup.filter _⟩
    rintro ⟨-, hne⟩
    exact hne hfound.2

/-- One task changes, and the others stay. -/
theorem tasks_update_perm (h : s.Proper) (hfind : s.find? pid = some task) (f : Task → Task) :
    (s.update pid f).tasks.Perm (f task :: s.others pid) := by
  have hpid := pid_of_find? hfind
  have hperm := (tasks_perm h hfind).map fun task => if task.pid = pid then f task else task
  rw [List.map_cons, if_pos hpid] at hperm
  have hstay : (s.others pid).map (fun task => if task.pid = pid then f task else task) =
      s.others pid := by
    refine (List.map_congr_left ?_).trans (List.map_id _)
    intro other hmem
    exact if_neg (mem_others.mp hmem).2
  rw [tasks_update, ← hstay]
  exact hperm

theorem tasks_put_perm (h : s.Proper) {new : Task} (hfind : s.find? new.pid = some task) :
    (s.put new).tasks.Perm (new :: s.others new.pid) :=
  tasks_update_perm h hfind fun _ => new

/-- A task is put back, and whatever of it has not changed has not changed in
the table. -/
theorem map_tasks_put {β : Type} (h : s.Proper) (view : Task → β) {new : Task}
    (hfind : s.find? pid = some task) (hpid : new.pid = task.pid) (hview : view new = view task) :
    (s.put new).tasks.map view = s.tasks.map view := by
  unfold put
  rw [tasks_update, List.map_map]
  apply List.map_congr_left
  intro other hmem
  simp only [Function.comp_apply]
  split
  · rename_i heq
    rw [hview, eq_of_pid_eq h (mem_tasks_of_find? hfind) hmem (heq.trans hpid)]
  · rfl

theorem tasks_add_perm (hrun : s.add task = .ok after) : after.tasks.Perm (task :: s.tasks) := by
  unfold add at hrun
  split at hrun
  · cases hrun
  · split at hrun
    · cases hrun
    · rename_i slots hplace
      cases hrun
      obtain ⟨before, rest, hold, hnew⟩ := filterMap_place hplace
      unfold tasks
      rw [hnew, hold]
      exact List.perm_middle

/-- A task takes the first empty slot, if there is one and nobody has its number. -/
theorem add_cases (s : Scheduler) (task : Task) :
    (∃ slots, place task s.slots = some slots ∧ s.add task = .ok { s with slots }) ∨
    (none ∉ s.slots ∧ s.add task = .error .processTableFull) ∨
    (s.contains task.pid = true ∧ s.add task = .error (.alreadyExists task.pid)) := by
  unfold add
  split
  · rename_i hused
    exact Or.inr (Or.inr ⟨hused, rfl⟩)
  · cases hplace : place task s.slots with
    | none => exact Or.inr (Or.inl ⟨place_eq_none_iff.mp hplace, rfl⟩)
    | some slots => exact Or.inl ⟨slots, rfl, rfl⟩

/-- Nobody had the number of a task that has joined the table. -/
theorem find?_of_add (hrun : s.add task = .ok after) : s.find? task.pid = none := by
  unfold add at hrun
  split at hrun
  · cases hrun
  · rename_i hfree
    simpa [contains] using hfree

theorem nextPid_add (hrun : s.add task = .ok after) : after.nextPid = s.nextPid := by
  unfold add at hrun
  split at hrun
  · cases hrun
  · split at hrun
    · cases hrun
    · cases hrun
      rfl

theorem nextPid_remove (s : Scheduler) (pid : Pid) : (s.remove pid).2.nextPid = s.nextPid := by
  unfold remove
  split
  · rfl
  · rfl

namespace Proper

theorem of_perm (h : s.Proper) (hperm : (after.tasks.map Task.pid).Perm (s.tasks.map Task.pid))
    (hnext : after.nextPid = s.nextPid) : after.Proper where
  nodup := hperm.nodup_iff.mpr h.nodup
  pid_pos := by
    intro hfit task hmem
    obtain ⟨old, hold, hpid⟩ := List.mem_map.mp (hperm.mem_iff.mp (List.mem_map_of_mem hmem))
    rw [← hpid]
    exact h.pid_pos (hfit.of_le (Nat.le_of_eq hnext.symm)) old hold
  pid_lt := by
    intro task hmem
    obtain ⟨old, hold, hpid⟩ := List.mem_map.mp (hperm.mem_iff.mp (List.mem_map_of_mem hmem))
    rw [← hpid, hnext]
    exact h.pid_lt old hold
  nextPid_pos := by
    rw [hnext]
    exact h.nextPid_pos

/-- The next number is free, unless numbers have come round. -/
theorem find?_nextNumber (h : s.Proper) (hfit : s.NumbersFit) :
    s.find? s.nextNumber = none := by
  rw [nextNumber_eq hfit]
  exact find?_eq_none_iff.mpr fun task hmem => Nat.ne_of_lt (h.pid_lt task hmem)

theorem of_new (capacity : Nat) : (new capacity).Proper where
  nodup := by simp
  pid_pos := by simp
  pid_lt := by simp
  nextPid_pos := Nat.one_pos

theorem mapTasks (h : s.Proper) {f : Task → Task} (hpid : ∀ task, (f task).pid = task.pid) :
    (s.mapTasks f).Proper := by
  refine of_perm h ?_ rfl
  rw [tasks_mapTasks, List.map_map]
  have hsame : Task.pid ∘ f = Task.pid := funext hpid
  rw [hsame]

theorem put (h : s.Proper) (new : Task) : (s.put new).Proper := by
  apply h.mapTasks
  intro task
  split
  · rename_i hpid
    exact hpid.symm
  · rfl

theorem allocatePid (h : s.Proper) : s.allocatePid.2.Proper where
  nodup := h.nodup
  pid_pos hfit := h.pid_pos (numbersFit_of_allocatePid hfit)
  pid_lt := by
    intro task hmem
    exact Nat.lt_succ_of_lt (h.pid_lt task hmem)
  nextPid_pos := Nat.succ_pos _

/-- A task with a number that has just been given out joins the table. -/
theorem add (h : s.Proper) (hpid : task.pid = s.nextNumber)
    (hrun : s.allocatePid.2.add task = .ok after) : after.Proper := by
  have hperm := tasks_add_perm hrun
  have hnext : after.nextPid = s.nextPid + 1 := nextPid_add hrun
  have hfree : s.allocatePid.2.find? task.pid = none := find?_of_add hrun
  have hmem : ∀ other ∈ after.tasks, other = task ∨ other ∈ s.tasks := by
    intro other hother
    exact List.mem_cons.mp (hperm.mem_iff.mp hother)
  constructor
  · rw [(hperm.map Task.pid).nodup_iff, List.map_cons, List.nodup_cons]
    refine ⟨?_, h.nodup⟩
    intro hold
    obtain ⟨other, hother, heq⟩ := List.mem_map.mp hold
    exact find?_eq_none_iff.mp hfree other hother heq
  · intro hfit other hother
    have hbefore : s.NumbersFit := hfit.of_le (hnext ▸ Nat.le_succ _)
    rcases hmem other hother with rfl | hold
    · rw [hpid, nextNumber_eq hbefore]
      exact h.nextPid_pos
    · exact h.pid_pos hbefore other hold
  · intro other hother
    rw [hnext]
    rcases hmem other hother with rfl | hold
    · rw [hpid]
      exact Nat.lt_succ_of_le s.nextNumber_le
    · exact Nat.lt_succ_of_lt (h.pid_lt other hold)
  · rw [hnext]
    exact Nat.succ_pos _

theorem remove (h : s.Proper) (pid : Pid) : (s.remove pid).2.Proper := by
  have hmem : ∀ task ∈ (s.remove pid).2.tasks, task ∈ s.tasks := by
    intro task hmem
    rw [tasks_remove] at hmem
    exact (List.mem_filter.mp hmem).1
  constructor
  · rw [tasks_remove]
    exact h.nodup.sublist (List.filter_sublist.map _)
  · intro hfit task htask
    exact h.pid_pos (hfit.of_le (Nat.le_of_eq (nextPid_remove s pid).symm)) task (hmem task htask)
  · intro task htask
    rw [nextPid_remove]
    exact h.pid_lt task (hmem task htask)
  · rw [nextPid_remove]
    exact h.nextPid_pos

end Proper

namespace SameView

variable {β : Type} {view : Task → β}

theorem trans {last : Scheduler} (h : SameView view s after) (hnext : SameView view after last) :
    SameView view s last :=
  ⟨hnext.tasks_eq.trans h.tasks_eq, hnext.nextPid_eq.trans h.nextPid_eq⟩

theorem nextNumber_eq (h : SameView view s after) : after.nextNumber = s.nextNumber :=
  congrArg (· % UInt32.size) h.nextPid_eq

theorem mapTasks {f : Task → Task} (h : ∀ task ∈ s.tasks, view (f task) = view task) :
    SameView view s (s.mapTasks f) where
  tasks_eq := by
    rw [tasks_mapTasks, List.map_map]
    exact List.map_congr_left h
  nextPid_eq := rfl

theorem put (hproper : s.Proper) (new : Task) (hfind : s.find? pid = some task)
    (hpid : new.pid = task.pid) (h : view new = view task) : SameView view s (s.put new) :=
  ⟨map_tasks_put hproper view hfind hpid h, rfl⟩

theorem schedule (h : Task.Lasting view) (s : Scheduler) : SameView view s s.schedule.2 := by
  have hswitch : ∀ (s : Scheduler) next, SameView view s (s.switchTo next) :=
    fun _ _ => ⟨rfl, rfl⟩
  rcases s.schedule_cases with ⟨pid, -, hrun⟩ | ⟨-, hrun⟩
  · rw [hrun]
    exact hswitch s _
  · rw [hrun]
    have hdecay : SameView view s s.decay := by
      apply mapTasks
      intro task _
      split
      · rfl
      · exact h.counter task _
    exact hdecay.trans (hswitch s.decay _)

theorem timerTick (h : Task.Lasting view) (hproper : s.Proper) :
    SameView view s s.timerTick.2 := by
  have hclock : SameView view s { s with jiffies := s.jiffies + 1 } := ⟨rfl, rfl⟩
  have hlater : Proper { s with jiffies := s.jiffies + 1 } :=
    hproper.of_perm (List.Perm.refl _) rfl
  rcases s.timerTick_cases with ⟨-, hrun⟩ | ⟨task, hcurrent, hrun⟩
  · rw [hrun]
    exact hclock
  · obtain ⟨pid, -, hfind⟩ := currentTask?_eq_some_iff.mp hcurrent
    have hspent : view task.spendTick = view task :=
      (h.counter { task with utime := task.utime + 1 } _).trans (h.utime task _)
    have hput := hclock.trans (put hlater task.spendTick hfind rfl hspent)
    rcases hrun with ⟨-, hrun⟩ | ⟨-, hrun⟩
    · rw [hrun]
      exact hput.trans (schedule h _)
    · rw [hrun]
      exact hput

theorem sleep (h : Task.Lasting view) {interruptible : Bool} {next : Option Pid}
    (hproper : s.Proper) (hrun : s.sleep interruptible = .ok (next, after)) :
    SameView view s after := by
  rcases s.sleep_cases interruptible with
    ⟨-, hidle⟩ | ⟨task, hcurrent, ⟨e, -, hfail⟩ | ⟨blocked, hblock, hslept⟩⟩
  · rw [hidle] at hrun
    have hafter : s.schedule.2 = after := congrArg Prod.snd (Except.ok.inj hrun)
    rw [← hafter]
    exact schedule h s
  · rw [hfail] at hrun
    cases hrun
  · obtain ⟨pid, -, hfind⟩ := currentTask?_eq_some_iff.mp hcurrent
    have hpid := Task.pid_eq_of_outline (Task.outline_block hblock)
    rw [hslept] at hrun
    have hafter : (s.put blocked).schedule.2 = after := congrArg Prod.snd (Except.ok.inj hrun)
    rw [← hafter]
    exact (put hproper blocked hfind hpid (h.block hblock)).trans (schedule h _)

theorem wakeAll (h : Task.Lasting view) (s : Scheduler) : SameView view s s.wakeAll.2 := by
  apply mapTasks
  intro task _
  exact h.wake task

end SameView

namespace SameOutline

theorem proper (h : SameOutline s after) (hproper : s.Proper) : after.Proper := by
  refine hproper.of_perm ?_ h.nextPid_eq
  have hpids := congrArg (List.map fun x => x.1.pid) h.tasks_eq
  rw [List.map_map, List.map_map] at hpids
  exact List.Perm.of_eq hpids

theorem of_view (h : SameView Task.outline s after) : SameOutline s after :=
  ⟨h.tasks_eq, h.nextPid_eq⟩

/-- Putting back a task with the outline that it had. -/
theorem put (hproper : s.Proper) (new : Task) (hfind : s.find? pid = some task)
    (h : new.outline = task.outline) : SameOutline s (s.put new) :=
  ⟨map_tasks_put hproper Task.outline hfind (Task.pid_eq_of_outline h) h, rfl⟩

theorem schedule (s : Scheduler) : SameOutline s s.schedule.2 :=
  of_view (SameView.schedule Task.lasting_outline s)

theorem timerTick (hproper : s.Proper) : SameOutline s s.timerTick.2 :=
  of_view (SameView.timerTick Task.lasting_outline hproper)

theorem sleep {interruptible : Bool} {next : Option Pid} (hproper : s.Proper)
    (hrun : s.sleep interruptible = .ok (next, after)) : SameOutline s after :=
  of_view (SameView.sleep Task.lasting_outline hproper hrun)

theorem wakeAll (s : Scheduler) : SameOutline s s.wakeAll.2 :=
  of_view (SameView.wakeAll Task.lasting_outline s)

end SameOutline

end Scheduler

end Kernelet
