import Kernelet.Proofs.Kernel.Diagram
import Kernelet.Proofs.Process.Ending

/-!
A wait that may sleep, as one operation. It asks for a terminated child first, which marks
the parent if there is none, and only then finds out whether the parent can go to sleep.
Three of its four ways out leave the kernel as it was, or do all that belongs to them
(`AllOrNothing`). The fourth leaves a mark behind at a parent that is not asleep for it:
`allOrNothing_iff_of_boot` says when that way is taken (`Lingers`), and
`not_allOrNothing_of_sleeper` is a run that takes it.
-/

namespace Kernelet

namespace Scheduler

variable {s : Scheduler} {change : Task → Task} {pid gone : Pid} {task : Task}

/-- The table with the slot of task `gone` empty. -/
def without (s : Scheduler) (gone : Pid) : Scheduler :=
  { s with slots := s.slots.map fun slot => slot.filter fun task => task.pid != gone }

/-- To take a task out of the table that is not selected is to empty its slot. -/
theorem remove_of_not_current (hfind : s.find? gone = some task) (hother : s.current ≠ some gone) :
    s.remove gone = (some task, s.without gone) := by
  unfold remove
  rw [hfind]
  dsimp only
  rw [if_neg hother]
  rfl

/-- It does not matter which comes first, the change of one task or the end of another. -/
theorem without_update (hpid : ∀ task, (change task).pid = task.pid) (s : Scheduler)
    (pid gone : Pid) : (s.update pid change).without gone = (s.without gone).update pid change := by
  unfold without update mapTasks
  dsimp only
  rw [List.map_map, List.map_map]
  congr 1
  apply List.map_congr_left
  rintro (_ | task) -
  · rfl
  · have hsame : (if task.pid = pid then change task else task).pid = task.pid := by
      split
      · exact hpid task
      · rfl
    simp only [Function.comp_apply, Option.map_some, Option.filter_some, hsame]
    split
    · rfl
    · rfl

/-- What a task was changed to does not matter once another is put in its place. -/
theorem put_update (hpid : ∀ task, (change task).pid = task.pid) (s : Scheduler) (new : Task) :
    (s.update new.pid change).put new = s.put new := by
  unfold put update
  rw [mapTasks_mapTasks]
  apply mapTasks_congr
  intro task _
  by_cases hnew : task.pid = new.pid
  · rw [if_pos hnew, hpid, if_pos hnew, if_pos hnew]
  · rw [if_neg hnew, if_neg hnew]

/-- A change that does nothing to the task that it concerns does nothing to the table. -/
theorem update_eq_self (h : s.Proper) (hfind : s.find? pid = some task)
    (hkept : change task = task) : s.update pid change = s := by
  obtain ⟨hmem, rfl⟩ := (find?_eq_some_iff h).mp hfind
  have hid : s.mapTasks id = s := by
    unfold mapTasks
    rw [Option.map_id, List.map_id]
  refine Eq.trans (mapTasks_congr ?_) hid
  intro other hother
  split
  · rename_i hpid
    cases eq_of_pid_eq h hmem hother hpid
    exact hkept
  · rfl

end Scheduler

namespace Kernel

/-- What `run` has made of the kernel `k`, a wait of process `pid` that may sleep, is all or
nothing. -/
structure AllOrNothing (k : Kernel) (pid : Pid) (run : Outcome Kernel (Option (Pid × Int))) :
    Prop where
  errors : ∀ e, run.result = .error e →
    e = .noSuchProcess pid ∨ e = .noChildren pid ∨ ∃ state, e = .invalidState pid state
  refused : ∀ e, run.result = .error e → run.state = k
  /-- The parent is asleep and marked. If it was selected, another is, and is granted the
  token. -/
  asleep : run.result = .ok none → ∃ parent, k.find? pid = some parent ∧
    parent.state = .runnable ∧
    let left := k.sched.put
      { parent with state := .interruptibleWait, waitingForChild := true }
    run.state = if k.current = some pid then
        { k with sched := left.schedule.2, gate := k.gate.grant left.schedule.1 }
      else
        { k with sched := left }
  /-- The child has left the table, and the parent is not marked. -/
  reaped : ∀ gone code, run.result = .ok (some (gone, code)) →
    ∃ child, k.find? gone = some child ∧ child.ppid = pid ∧ child.state = .zombie ∧
      child.exitCode = some code ∧
      run.state =
        { k with sched := (k.sched.without gone).update pid (Task.markWaiting false) }

/-- Process `pid` has children that all live, and can neither go to sleep for them nor is
marked as waiting for them. -/
def Lingers (k : Kernel) (pid : Pid) : Prop :=
  ∃ parent, k.find? pid = some parent ∧ parent.state ≠ .runnable ∧
    parent.waitingForChild = false ∧ (∃ child ∈ k.sched.tasks, child.ppid = pid) ∧
    ∀ child ∈ k.sched.tasks, child.ppid = pid → child.state ≠ .zombie

variable {k : Kernel} {pid : Pid} {task child : Task}

theorem wait_of_none (hnone : k.find? pid = none) :
    k.wait pid = ⟨.error (.noSuchProcess pid), k⟩ := by
  have hparent : k.sched.contains pid = false := Option.isSome_eq_false_iff.mpr
    (Option.isNone_iff_eq_none.mpr hnone)
  unfold wait
  rw [if_neg (by simp [hparent])]

theorem wait_of_childless (hparent : k.sched.contains pid = true)
    (hnil : k.sched.childrenOf pid = []) : k.wait pid = ⟨.error (.noChildren pid), k⟩ := by
  unfold wait
  rw [if_pos hparent, hnil]
  rfl

theorem blockProcess_of_find? (hfind : k.find? pid = some task) :
    k.blockProcess pid =
      if task.state = .runnable then
        ⟨.ok (), { k with
          sched := k.sched.put { task with state := .interruptibleWait } }.reselect pid⟩
      else ⟨.error (.invalidState pid task.state), k⟩ := by
  have hpid := Scheduler.pid_of_find? hfind
  unfold blockProcess Task.block
  rw [hfind]
  dsimp only
  by_cases hruns : task.state = .runnable
  · rw [if_pos hruns, if_pos hruns]
    rfl
  · rw [if_neg hruns, if_neg hruns]
    unfold Task.invalidState
    rw [hpid]

/-- A child that has terminated is not selected and has no memory left, so that nothing but
its slot goes with it. -/
theorem remove_zombie (hproper : k.sched.Proper)
    (hruns : ∀ q, k.current = some q → k.sched.CanRun q) (hmem : child ∈ k.sched.tasks)
    (hdead : child.isZombie = true) (hbare : child.space = none) :
    k.withMachine (Machine.remove
        ⟨k.sched.update pid (Task.markWaiting false), k.pool⟩ child.pid).2 =
      { k with sched := (k.sched.without child.pid).update pid (Task.markWaiting false) } := by
  have hfind : k.sched.find? child.pid = some child :=
    (Scheduler.find?_eq_some_iff hproper).mpr ⟨hmem, rfl⟩
  have hother : k.current ≠ some child.pid := fun hcurrent =>
    Scheduler.not_canRun_of_zombie hproper hfind hdead (hruns child.pid hcurrent)
  have hkeeps := (markWaiting_keepsSpace false).ite fun task => task.pid = pid
  obtain ⟨marked, hmarked, hspace⟩ : ∃ marked,
      (k.sched.update pid (Task.markWaiting false)).find? child.pid = some marked ∧
        marked.space = none := by
    refine ⟨_, ?_, (hkeeps.space child).trans hbare⟩
    exact (Scheduler.find?_mapTasks hkeeps.pid child.pid).trans (congrArg (Option.map _) hfind)
  have hpool : marked.discard k.pool = k.pool := by
    unfold Task.discard Task.releaseSpace
    rw [hspace]
  have hswap := Scheduler.without_update (markWaiting_keepsSpace false).pid k.sched pid child.pid
  unfold Machine.remove
  rw [Scheduler.remove_of_not_current hmarked hother, hswap]
  dsimp only
  rw [hpool]
  rfl

/-- A process whose children all live is marked, and then put to sleep if it can be. -/
theorem waitOrBlock_of_living (hfind : k.find? pid = some task)
    (hwait : k.wait pid = ⟨.error .wouldBlock,
      { k with sched := k.sched.update pid (Task.markWaiting true) }⟩) :
    k.waitOrBlock pid =
      if task.state = .runnable then
        ⟨.ok none, Kernel.reselect { k with
          sched := k.sched.put
            { task with state := .interruptibleWait, waitingForChild := true } } pid⟩
      else
        ⟨.error (.invalidState pid task.state),
          { k with sched := k.sched.update pid (Task.markWaiting true) }⟩ := by
  obtain rfl := Scheduler.pid_of_find? hfind
  have hmarked : Kernel.find? { k with sched := k.sched.update task.pid (Task.markWaiting true) }
      task.pid = some (task.markWaiting true) :=
    Scheduler.find?_update (markWaiting_keepsSpace true).pid hfind
  have hput := Scheduler.put_update (markWaiting_keepsSpace true).pid k.sched
    { task with state := .interruptibleWait, waitingForChild := true }
  unfold waitOrBlock
  rw [hwait]
  dsimp only
  rw [blockProcess_of_find? hmarked]
  by_cases hruns : task.state = .runnable
  · rw [if_pos hruns, if_pos (show (task.markWaiting true).state = .runnable from hruns), ← hput]
    rfl
  · rw [if_neg hruns, if_neg (show (task.markWaiting true).state ≠ .runnable from hruns)]
    rfl

namespace AllOrNothing

/-- A refusal that changes nothing is all or nothing. -/
theorem of_error {e : KernelError}
    (h : e = .noSuchProcess pid ∨ e = .noChildren pid ∨ ∃ state, e = .invalidState pid state) :
    k.AllOrNothing pid ⟨.error e, k⟩ where
  errors := by
    rintro _ ⟨rfl⟩
    exact h
  refused _ _ := rfl
  asleep hrun := by cases hrun
  reaped _ _ hrun := by cases hrun

theorem of_sleep (hfind : k.find? pid = some task) (hruns : task.state = .runnable) :
    k.AllOrNothing pid ⟨.ok none, Kernel.reselect { k with
      sched := k.sched.put
        { task with state := .interruptibleWait, waitingForChild := true } } pid⟩ where
  errors _ hrun := by cases hrun
  refused _ hrun := by cases hrun
  asleep _ := ⟨task, hfind, hruns, rfl⟩
  reaped _ _ hrun := by cases hrun

theorem of_reaped {code : Int} (hfind : k.find? child.pid = some child) (hppid : child.ppid = pid)
    (hdead : child.state = .zombie) (hcode : child.exitCode = some code) :
    k.AllOrNothing pid ⟨.ok (some (child.pid, code)), { k with
      sched := (k.sched.without child.pid).update pid (Task.markWaiting false) }⟩ where
  errors _ hrun := by cases hrun
  refused _ hrun := by cases hrun
  asleep hrun := by cases hrun
  reaped := by
    rintro _ _ ⟨rfl⟩
    exact ⟨child, hfind, hppid, hdead, hcode, rfl⟩

/-- To mark a process and refuse is neither, unless the process was marked before. -/
theorem error_marked_iff (hproper : k.sched.Proper) (hfind : k.find? pid = some task)
    (state : TaskState) :
    k.AllOrNothing pid ⟨.error (.invalidState pid state),
        { k with sched := k.sched.update pid (Task.markWaiting true) }⟩ ↔
      task.waitingForChild = true := by
  constructor
  · intro h
    have hmarked := Scheduler.find?_update (markWaiting_keepsSpace true).pid hfind
    have hsame := congrArg (fun after : Kernel => after.find? pid) (h.refused _ rfl)
    have htask : task.markWaiting true = task :=
      Option.some.inj (hmarked.symm.trans (hsame.trans hfind))
    exact (congrArg Task.waitingForChild htask).symm
  · intro hwaiting
    have hkept : task.markWaiting true = task := by
      unfold Task.markWaiting
      rw [← hwaiting]
    rw [Scheduler.update_eq_self hproper hfind hkept]
    exact of_error (Or.inr (Or.inr ⟨state, rfl⟩))

end AllOrNothing

theorem lingers_iff_of_find? (hfind : k.find? pid = some task) :
    k.Lingers pid ↔ task.state ≠ .runnable ∧ task.waitingForChild = false ∧
      k.sched.childrenOf pid ≠ [] ∧ ∀ child ∈ k.sched.childrenOf pid, child.isZombie = false := by
  have hsome : k.sched.childrenOf pid ≠ [] ↔ ∃ child ∈ k.sched.tasks, child.ppid = pid := by
    simp [Scheduler.childrenOf]
  have hlive : (∀ child ∈ k.sched.childrenOf pid, child.isZombie = false) ↔
      ∀ child ∈ k.sched.tasks, child.ppid = pid → child.state ≠ .zombie := by
    simp [Scheduler.childrenOf, Task.isZombie]
  rw [hsome, hlive]
  constructor
  · rintro ⟨parent, hparent, hrest⟩
    rw [hfind] at hparent
    cases hparent
    exact hrest
  · intro hrest
    exact ⟨task, hfind, hrest⟩

/-- A wait that may sleep leaves a mark behind in one case, and in no other. -/
theorem allOrNothing_iff (hproper : k.sched.Proper)
    (hruns : ∀ q, k.current = some q → k.sched.CanRun q) (hsound : k.AllSound) (pid : Pid) :
    k.AllOrNothing pid (k.waitOrBlock pid) ↔ ¬ k.Lingers pid := by
  cases hfind : k.find? pid with
  | none =>
      refine iff_of_true ?_ ?_
      · unfold waitOrBlock
        rw [wait_of_none hfind]
        exact AllOrNothing.of_error (Or.inl rfl)
      · rintro ⟨parent, hparent, -⟩
        rw [hfind] at hparent
        cases hparent
  | some task =>
      have hparent : k.sched.contains pid = true := Option.isSome_of_mem hfind
      rw [lingers_iff_of_find? hfind]
      rcases wait_cases k pid with
        ⟨-, child, hchild, hdead, hwait⟩ | ⟨-, hnone | hnil⟩ | ⟨-, hsome, hlive, hwait⟩
      · -- A child has terminated, and is reaped.
        obtain ⟨hmem, hppid⟩ := List.mem_filter.mp hchild
        have hthere : k.find? child.pid = some child :=
          (Scheduler.find?_eq_some_iff hproper).mpr ⟨hmem, rfl⟩
        obtain ⟨hcodeIff, hbareIff, -, -⟩ := hsound child.pid child hthere
        obtain ⟨code, hcode⟩ := Option.isSome_iff_exists.mp (hcodeIff.mp hdead)
        rw [remove_zombie hproper hruns hmem hdead (hbareIff.mp hdead), hcode] at hwait
        refine iff_of_true ?_ ?_
        · unfold waitOrBlock
          rw [hwait]
          exact AllOrNothing.of_reaped hthere (beq_iff_eq.mp hppid) (beq_iff_eq.mp hdead) hcode
        · rintro ⟨-, -, -, hliving⟩
          rw [hliving child hchild] at hdead
          cases hdead
      · rw [hparent] at hnone
        cases hnone
      · -- There is nobody to wait for.
        refine iff_of_true ?_ fun h => h.2.2.1 hnil
        unfold waitOrBlock
        rw [wait_of_childless hparent hnil]
        exact AllOrNothing.of_error (Or.inr (Or.inl rfl))
      · -- All children live: the parent is marked, and may be unable to sleep.
        rw [waitOrBlock_of_living hfind hwait]
        by_cases hstate : task.state = .runnable
        · rw [if_pos hstate]
          exact iff_of_true (AllOrNothing.of_sleep hfind hstate) fun h => h.1 hstate
        · rw [if_neg hstate, AllOrNothing.error_marked_iff hproper hfind, ← Bool.not_eq_false]
          exact not_congr ⟨fun hmark => ⟨hstate, hmark, hsome, hlive⟩, fun h => h.2.1⟩

/-- In every state of every run, and whoever stands at the gate, a wait that may sleep is all
or nothing exactly if it does not come from a process that is unable to sleep, has children
that all live, and is not marked as waiting for them. -/
theorem allOrNothing_iff_of_boot {config : Config} (hboot : boot config = .ok k)
    (requests : List Request) (gate : Gate) (pid : Pid) :
    let now : Kernel := { (k.serveAll requests).2 with gate }
    now.AllOrNothing pid (now.waitOrBlock pid) ↔ ¬ now.Lingers pid := by
  obtain ⟨-, rfl⟩ := boot_eq_ok_iff.mp hboot
  intro now
  obtain ⟨hdispatched, hsound⟩ := serveAll_invariant (fun k => Dispatched k ∧ k.AllSound)
    (fun k request h => ⟨serve_dispatched h.1 request,
      (serve_diagram h.1.proper request).allSound h.2⟩)
    ⟨ofConfig_dispatched config, ofConfig_allSound config⟩ requests
  have hruns : ∀ q, now.current = some q → now.sched.CanRun q :=
    fun q hcurrent => hdispatched.canRun q hcurrent (by simp)
  exact allOrNothing_iff (k := now) hdispatched.proper hruns hsound pid

/-- The first process is stopped with a child that lives, after it has asked for one: the
question is refused, and the mark stays as it was. -/
theorem allOrNothing_of_marked_before :
    let done : List Request := [.createInit, .spawn "a" 1 0, .wait 1, .kill 1 .stop]
    let k := ofConfig Config.small
    let now : Kernel := { (k.serveAll done).2 with gate := Gate.new }
    boot Config.small = .ok k ∧ (now.find? 1).map Task.state = some .stopped ∧
      now.AllOrNothing 1 (now.waitOrBlock 1) := by
  intro done k now
  have hboot : boot Config.small = .ok k := boot_eq_ok_iff.mpr ⟨by decide, rfl⟩
  have hmarked : (now.find? 1).map Task.waitingForChild = some true := by decide +kernel
  refine ⟨hboot, by decide +kernel, (allOrNothing_iff_of_boot hboot done Gate.new 1).mpr ?_⟩
  rintro ⟨parent, hparent, -, hunmarked, -⟩
  rw [show now.find? 1 = some parent from hparent, Option.map_some, hunmarked] at hmarked
  cases hmarked

/-- The first process is in an uninterruptible sleep, and its child lives. To ask for a
terminated child is refused, and leaves a mark behind. -/
theorem not_allOrNothing_of_sleeper :
    let now := ((ofConfig Config.small).serveAll
      [.createInit, .spawn "a" 1 0, .schedule, .sleep false]).2
    boot Config.small = .ok (ofConfig Config.small) ∧
    (now.waitOrBlock 1).result = .error (.invalidState 1 .uninterruptibleWait) ∧
    (now.find? 1).map Task.waitingForChild = some false ∧
    ((now.waitOrBlock 1).state.find? 1).map Task.waitingForChild = some true ∧
      ¬ now.AllOrNothing 1 (now.waitOrBlock 1) := by
  intro now
  have hresult : (now.waitOrBlock 1).result = .error (.invalidState 1 .uninterruptibleWait) := by
    decide +kernel
  have hbefore : (now.find? 1).map Task.waitingForChild = some false := by decide +kernel
  have hafter : ((now.waitOrBlock 1).state.find? 1).map Task.waitingForChild = some true := by
    decide +kernel
  refine ⟨boot_eq_ok_iff.mpr ⟨by decide, rfl⟩, hresult, hbefore, hafter, ?_⟩
  intro h
  rw [h.refused _ hresult, hbefore] at hafter
  cases hafter

end Kernel

end Kernelet
