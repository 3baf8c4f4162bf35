import Kernelet.Process.Machine
import Kernelet.Proofs.Memory.Balance
import Kernelet.Proofs.Process.Table

/-!
The process table as an owner of memory. A task owns its address space, and a
table is in balance with its pool when the pool backs exactly what the tasks own
(`Machine.Fits`). A task that has terminated has given up its space.
-/

namespace Kernelet

/-- The table of the space that a task owns, if it owns one. -/
def Task.tables (task : Task) : List PageTable :=
  (task.space.map AddressSpace.table).toList

/-- The tables of the spaces that some tasks own. -/
def tablesOf (tasks : List Task) : List PageTable :=
  tasks.flatMap Task.tables

theorem tablesOf_cons (task : Task) (tasks : List Task) :
    tablesOf (task :: tasks) = task.tables ++ tablesOf tasks := rfl

theorem Task.mem_tables {task : Task} {table : PageTable} :
    table ∈ task.tables ↔ ∃ space, task.space = some space ∧ space.table = table := by
  unfold tables
  rw [Option.mem_toList, Option.map_eq_some_iff]

theorem mem_tablesOf {tasks : List Task} {table : PageTable} :
    table ∈ tablesOf tasks ↔
      ∃ task ∈ tasks, ∃ space, task.space = some space ∧ space.table = table := by
  unfold tablesOf
  simp only [List.mem_flatMap, Task.mem_tables]

theorem tablesOf_perm {tasks other : List Task} (h : tasks.Perm other) :
    (tablesOf tasks).Perm (tablesOf other) :=
  h.flatMap_right _

theorem tablesOf_outline (tasks : List Task) :
    tablesOf tasks = (tasks.map Task.outline).flatMap fun x =>
      (x.2.map AddressSpace.table).toList := by
  unfold tablesOf
  rw [List.flatMap_map]
  rfl

/-- A task that goes gives back what its space names. -/
theorem Balanced.discard {total reserved : Nat} {pool : FramePool} {task : Task}
    {others : List PageTable} (h : Balanced total reserved pool (task.tables ++ others)) :
    Balanced total reserved (task.discard pool) others := by
  unfold Task.discard Task.releaseSpace
  unfold Task.tables at h
  cases hspace : task.space with
  | none =>
      rw [hspace] at h
      exact h
  | some space =>
      rw [hspace] at h
      exact Balanced.releaseFrames h

/-- The change leaves a task its number and its space, and lets it live. -/
structure Task.KeepsSpace (change : Task → Task) : Prop where
  pid : ∀ task, (change task).pid = task.pid
  space : ∀ task, (change task).space = task.space
  isZombie : ∀ task, (change task).isZombie = task.isZombie

namespace Task.KeepsSpace

theorem wake : KeepsSpace Task.wake where
  pid task := Task.pid_eq_of_outline task.outline_wake
  space task := Task.space_eq_of_outline task.outline_wake
  isZombie task := Task.isZombie_eq_of_outline task.outline_wake

/-- A task that gets another parent keeps its space. -/
theorem adopt (ppid : Pid) : KeepsSpace fun task => { task with ppid } :=
  ⟨fun _ => rfl, fun _ => rfl, fun _ => rfl⟩

/-- Tasks that are passed over keep their space as well. -/
theorem ite {change : Task → Task} (h : KeepsSpace change)
    (concerns : Task → Prop) [DecidablePred concerns] :
    KeepsSpace fun task => if concerns task then change task else task := by
  constructor
  · intro task
    split
    · exact h.pid task
    · rfl
  · intro task
    split
    · exact h.space task
    · rfl
  · intro task
    split
    · exact h.isZombie task
    · rfl

end Task.KeepsSpace

/-- No task that has terminated owns a space. -/
def Scheduler.Bare (s : Scheduler) : Prop :=
  ∀ task ∈ s.tasks, task.isZombie = true → task.space = none

/-- A task that comes to name the same frames in another table changes nothing in what is named. -/
theorem namedFrames_put {s : Scheduler} {pid : Pid} {task : Task} {space : AddressSpace}
    {table : PageTable} (hproper : s.Proper) (hfind : s.find? pid = some task)
    (hspace : task.space = some space) (hframes : table.frames.Perm space.table.frames) :
    (namedFrames (tablesOf
      (s.put { task with space := some { space with table } }).tasks)).Perm
      (namedFrames (tablesOf s.tasks)) := by
  obtain rfl := Scheduler.pid_of_find? hfind
  have hbefore := namedFrames_perm (tablesOf_perm (Scheduler.tasks_perm hproper hfind))
  have hput : s.find? { task with space := some { space with table } }.pid = some task := hfind
  have hafter := namedFrames_perm (tablesOf_perm (Scheduler.tasks_put_perm hproper hput))
  rw [tablesOf_cons, Task.tables] at hbefore hafter
  rw [hspace] at hbefore
  refine hafter.trans (List.Perm.trans ?_ hbefore.symm)
  exact hframes.append_right _

/-- Tables that look alike from outside own the same spaces. -/
theorem Scheduler.SameOutline.tablesOf_eq {s after : Scheduler} (h : s.SameOutline after) :
    tablesOf after.tasks = tablesOf s.tasks := by
  rw [tablesOf_outline, tablesOf_outline, h.tasks_eq]

theorem tablesOf_mapTasks {s : Scheduler} {change : Task → Task}
    (hkeeps : Task.KeepsSpace change) :
    tablesOf (s.mapTasks change).tasks = tablesOf s.tasks := by
  unfold tablesOf
  rw [Scheduler.tasks_mapTasks, List.flatMap_map]
  congr 1
  funext task
  unfold Task.tables
  rw [hkeeps.space]

namespace Machine

/-- The tasks and the pool are in balance. -/
structure Fits (total reserved : Nat) (m : Machine) : Prop where
  proper : m.sched.Proper
  balanced : Balanced total reserved m.pool (tablesOf m.sched.tasks)
  bare : m.sched.Bare

namespace Fits

variable {total reserved : Nat} {m : Machine} {s : Scheduler} {pool : FramePool} {task : Task}
  {pid : Pid}

theorem of_sameOutline (h : Fits total reserved ⟨s, pool⟩) {after : Scheduler}
    (hsame : s.SameOutline after) : Fits total reserved ⟨after, pool⟩ where
  proper := hsame.proper h.proper
  balanced := by
    show Balanced total reserved pool (tablesOf after.tasks)
    rw [hsame.tablesOf_eq]
    exact h.balanced
  bare := by
    intro task hmem hzombie
    have houtline : task.outline ∈ s.tasks.map Task.outline := by
      rw [← hsame.tasks_eq]
      exact List.mem_map_of_mem hmem
    obtain ⟨old, hold, heq⟩ := List.mem_map.mp houtline
    rw [← Task.space_eq_of_outline heq]
    exact h.bare old hold ((Task.isZombie_eq_of_outline heq).trans hzombie)

/-- Changing what tasks are to each other moves no memory. -/
theorem mapTasks (h : Fits total reserved ⟨s, pool⟩) {change : Task → Task}
    (hkeeps : Task.KeepsSpace change) : Fits total reserved ⟨s.mapTasks change, pool⟩ where
  proper := h.proper.mapTasks hkeeps.pid
  balanced := by
    show Balanced total reserved pool (tablesOf (s.mapTasks change).tasks)
    rw [tablesOf_mapTasks hkeeps]
    exact h.balanced
  bare := by
    intro task hmem hdead
    rw [Scheduler.tasks_mapTasks] at hmem
    obtain ⟨old, hold, rfl⟩ := List.mem_map.mp hmem
    rw [hkeeps.space]
    exact h.bare old hold ((hkeeps.isZombie old).symm.trans hdead)

theorem update (h : Fits total reserved ⟨s, pool⟩) (pid : Pid) {change : Task → Task}
    (hkeeps : Task.KeepsSpace change) : Fits total reserved ⟨s.update pid change, pool⟩ :=
  h.mapTasks (hkeeps.ite _)

/-- One task, with what it owns, and the others. -/
theorem focus (h : Fits total reserved m) (hfind : m.sched.find? pid = some task) :
    Balanced total reserved m.pool (task.tables ++ tablesOf (m.sched.others pid)) :=
  h.balanced.perm (tablesOf_perm (Scheduler.tasks_perm h.proper hfind))

/-- The space of one task, and what the others own. -/
theorem focus_space (h : Fits total reserved m) (hfind : m.sched.find? pid = some task)
    {space : AddressSpace} (hspace : task.space = some space) :
    Memory.Fits total reserved (tablesOf (m.sched.others pid)) ⟨space, m.pool⟩ := by
  have hfocus := h.focus hfind
  unfold Task.tables at hfocus
  rw [hspace] at hfocus
  exact hfocus

theorem bare_put (h : s.Bare) {new : Task} (hnew : new.isZombie = true → new.space = none) :
    (s.put new).Bare := by
  intro other hmem hdead
  unfold Scheduler.put at hmem
  rw [Scheduler.tasks_update] at hmem
  obtain ⟨old, hold, rfl⟩ := List.mem_map.mp hmem
  split at hdead
  · rw [if_pos (by assumption)]
    exact hnew hdead
  · rw [if_neg (by assumption)]
    exact h old hold hdead

/-- A task that has been dealt with goes back to its place. -/
theorem put (h : Fits total reserved m) (new : Task) (hfind : m.sched.find? new.pid = some task)
    {pool : FramePool}
    (hbalanced : Balanced total reserved pool
      (new.tables ++ tablesOf (m.sched.others new.pid)))
    (hnew : new.isZombie = true → new.space = none) :
    Fits total reserved ⟨m.sched.put new, pool⟩ where
  proper := h.proper.put new
  balanced := hbalanced.perm (tablesOf_perm (Scheduler.tasks_put_perm h.proper hfind)).symm
  bare := bare_put h.bare hnew

/-- A new task joins the table, or there is no room and it is let go. -/
theorem add (hproper : s.Proper) (hbare : s.Bare) (hpid : task.pid = s.nextNumber)
    (hlive : task.isZombie = false)
    (hbalanced : Balanced total reserved pool (task.tables ++ tablesOf s.tasks)) :
    Fits total reserved (Machine.add ⟨s.allocatePid.2, pool⟩ task).state := by
  unfold Machine.add
  dsimp only
  split
  · rename_i after hrun
    have hperm := Scheduler.tasks_add_perm hrun
    refine ⟨hproper.add hpid hrun, hbalanced.perm (tablesOf_perm hperm).symm, ?_⟩
    intro other hmem hdead
    rcases List.mem_cons.mp (hperm.mem_iff.mp hmem) with rfl | hold
    · rw [hlive] at hdead
      cases hdead
    · exact hbare other hold hdead
  · exact ⟨hproper.allocatePid, hbalanced.discard, hbare⟩

/-- A task that leaves the table is let go. -/
theorem remove (h : Fits total reserved m) (pid : Pid) :
    Fits total reserved (m.remove pid).2 := by
  have hproper := h.proper.remove pid
  have htasks := m.sched.tasks_remove pid
  have hfst := m.sched.remove_fst pid
  have hbare : (m.sched.remove pid).2.Bare := by
    intro task hmem
    rw [htasks] at hmem
    exact h.bare task (List.mem_filter.mp hmem).1
  unfold Machine.remove
  rcases hrun : m.sched.remove pid with ⟨_ | task, after⟩
  · rw [hrun] at hproper htasks hfst hbare
    refine ⟨hproper, ?_, hbare⟩
    have hkeep : m.sched.tasks.filter (fun task => task.pid != pid) = m.sched.tasks := by
      rw [List.filter_eq_self]
      intro task hmem
      exact bne_iff_ne.mpr (Scheduler.find?_eq_none_iff.mp hfst.symm task hmem)
    show Balanced total reserved m.pool (tablesOf after.tasks)
    rw [htasks, hkeep]
    exact h.balanced
  · rw [hrun] at hproper htasks hfst hbare
    refine ⟨hproper, ?_, hbare⟩
    show Balanced total reserved (task.discard m.pool) (tablesOf after.tasks)
    rw [htasks]
    exact (h.focus hfst.symm).discard

end Fits

end Machine

end Kernelet
