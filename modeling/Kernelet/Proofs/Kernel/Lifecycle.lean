import Kernelet.Kernel.Request
import Kernelet.Proofs.Process.Table

/-!
What the operations on processes do, said once, with the cases in which they do
it. The proofs about the kernel start from these and never look into the
operations themselves.
-/

namespace Kernelet

/-- The task as it is left when it has terminated. -/
def Task.terminated (task : Task) (code : Int) : Task :=
  { task with
    state := .zombie
    exitCode := some code
    counter := 0
    waitingForChild := false
    descriptors := task.descriptors.closeAll
    space := none }

/-- A live task terminates, and its space is given back with it. -/
theorem Task.exit_eq {task : Task} (h : task.isZombie = false) (code : Int) :
    ∃ gone, task.exit code = .ok gone ∧ gone.ppid = task.ppid ∧
      ∀ pool, gone.releaseSpace pool = (task.terminated code, task.discard pool) := by
  unfold exit
  rw [if_neg (by simp [h])]
  refine ⟨_, rfl, rfl, ?_⟩
  intro pool
  obtain ⟨pid, ppid, name, state, counter, priority, startTime, utime, stime, descriptors,
    pending, blocked, waiting, exitCode, space⟩ := task
  cases space with
  | none => rfl
  | some space => rfl

/-- The task with its mark for waiting set or cleared. -/
def Task.markWaiting (waiting : Bool) (task : Task) : Task :=
  { task with waitingForChild := waiting }

/-- A task that learns of a child's end changes in nothing that lasts, but for its
mark for waiting. -/
theorem Task.Lasting.notifyParent {β : Type} {view : Task → β} (h : Task.Lasting view)
    (hmark : ∀ waiting task, view (Task.markWaiting waiting task) = view task) (task : Task) :
    view (Kernel.notifyParent task) = view task := by
  have hsend := h.send task .chld
  unfold Kernel.notifyParent
  dsimp only
  split
  · exact (h.wake _).trans ((hmark false _).trans hsend)
  · exact hsend

theorem Machine.sched_remove (m : Machine) (pid : Pid) :
    (m.remove pid).2.sched = (m.sched.remove pid).2 := by
  unfold remove
  split
  · rename_i hrun
    rw [hrun]
  · rename_i hrun
    rw [hrun]

namespace Kernel

variable {k after : Kernel} {pid : Pid}

/-- A kernel that has just been started. -/
def ofConfig (config : Config) : Kernel where
  sched := Scheduler.new config.maxTasks.toNat
  pool := FramePool.new config.totalFrames config.reservedFrames
  config := config
  gate := Gate.new

/-- A kernel starts exactly when nothing is wrong with its configuration. -/
theorem boot_eq_ok_iff {config : Config} :
    boot config = .ok k ↔ config.fault? = none ∧ k = ofConfig config := by
  unfold boot Config.validate
  cases hfault : config.fault? with
  | none =>
      constructor
      · intro hrun
        exact ⟨rfl, (Except.ok.inj hrun).symm⟩
      · rintro ⟨-, rfl⟩
        rfl
  | some fault =>
      constructor
      · intro hrun
        cases hrun
      · rintro ⟨hnone, -⟩
        cases hnone

/-- A tick for the kernel is one for the table. -/
theorem sched_timerTick (k : Kernel) : k.timerTick.2.sched = k.sched.timerTick.2 := by
  unfold timerTick
  rcases k.sched.timerTick with ⟨_ | _, sched⟩
  · rfl
  · rfl

/-- The kernel after `task` has taken the next number and a place in the table,
or has been let go for want of a place. -/
def enlist (k : Kernel) (task : Task) : Kernel :=
  k.withMachine (Machine.add ⟨k.sched.allocatePid.2, k.pool⟩ task).state

/-- The number of a task that is to join the table, if there is a place for it. -/
def enlisted (k : Kernel) (task : Task) : Except KernelError Pid :=
  (Machine.add ⟨k.sched.allocatePid.2, k.pool⟩ task).result.map fun () => k.sched.nextNumber

/-- A task joins the table under the next number, or is let go. -/
theorem enlist_cases (k : Kernel) (task : Task) :
    (∃ sched, k.sched.allocatePid.2.add task = .ok sched ∧
      k.enlisted task = .ok k.sched.nextNumber ∧ k.enlist task = { k with sched }) ∨
    ∃ e, k.enlisted task = .error e ∧
      k.enlist task =
        { k with sched := k.sched.allocatePid.2, pool := task.discard k.pool } := by
  unfold enlist enlisted Machine.add
  dsimp only
  cases k.sched.allocatePid.2.add task with
  | ok sched => exact Or.inl ⟨sched, rfl, rfl, rfl⟩
  | error e => exact Or.inr ⟨e, rfl, rfl⟩

/-- A number is used up, whether or not there is a place for the task. -/
theorem nextPid_enlist (k : Kernel) (task : Task) :
    (k.enlist task).sched.nextPid = k.sched.nextPid + 1 := by
  rcases k.enlist_cases task with ⟨sched, hadd, -, hrun⟩ | ⟨e, -, hrun⟩
  · rw [hrun]
    exact Scheduler.nextPid_add hadd
  · rw [hrun]
    rfl

/-- The kernel has not handed out so many numbers that they come round. -/
abbrev NumbersFit (k : Kernel) : Prop :=
  k.sched.NumbersFit

theorem numbersFit_of_enlist {task : Task} (h : (k.enlist task).NumbersFit) : k.NumbersFit :=
  h.of_le (k.nextPid_enlist task ▸ Nat.le_succ _)

/-- A process is created under a parent that is there, once its image stands. -/
theorem spawn_cases (k : Kernel) (name : String) (parent : Pid) (pages : Nat) :
    ((∃ e, k.spawn name parent pages = ⟨.error e, k⟩) ∧
      parent ≠ 0 ∧ k.sched.contains parent = false) ∨
    ((parent = 0 ∨ k.sched.contains parent = true) ∧ ∃ m,
      (∃ e, k.newImage pages = ⟨.error e, m⟩ ∧
        k.spawn name parent pages = ⟨.error e, { k with pool := m.pool }⟩) ∨
      (k.newImage pages = ⟨.ok (), m⟩ ∧
        let task := ((Task.new k.sched.nextNumber parent name m.space).withTimeSlice
          k.config.defaultPriority.toNat k.config.defaultCounter.toNat).startedAt
            k.sched.jiffies
        let built : Kernel := { k with pool := m.pool }
        k.spawn name parent pages = ⟨built.enlisted task, built.enlist task⟩)) := by
  unfold spawn
  split
  · rename_i hparent
    exact Or.inl ⟨⟨_, rfl⟩, hparent⟩
  · rename_i hparent
    right
    constructor
    · by_cases hnone : parent = 0
      · exact Or.inl hnone
      · exact Or.inr (by simpa [hnone] using hparent)
    · rcases k.newImage pages with ⟨e | _, m⟩
      · exact ⟨m, Or.inl ⟨e, rfl, rfl⟩⟩
      · exact ⟨m, Or.inr ⟨rfl, rfl⟩⟩

/-- A live process that has a space is duplicated, once its space is. -/
theorem fork_cases (k : Kernel) (parent : Pid) :
    ((∃ e, k.fork parent = ⟨.error e, k⟩) ∧
      ∀ task, k.find? parent = some task → task.isZombie = true ∨ task.space = none) ∨
    ∃ task space m, k.find? parent = some task ∧ task.isZombie = false ∧
      task.space = some space ∧
      let shared : Kernel :=
        { k with sched := k.sched.put { task with space := some m.space }, pool := m.pool }
      (∃ e, (Memory.mk space k.pool).fork = ⟨.error e, m⟩ ∧
        k.fork parent = ⟨.error e, shared⟩) ∨
      ∃ child, (Memory.mk space k.pool).fork = ⟨.ok child, m⟩ ∧
        let task := (task.forkChild k.sched.nextNumber child).startedAt k.sched.jiffies
        k.fork parent = ⟨shared.enlisted task, shared.enlist task⟩ := by
  unfold fork
  cases hfind : k.find? parent with
  | none => exact Or.inl ⟨⟨_, rfl⟩, by simp⟩
  | some task =>
      dsimp only
      split
      · rename_i hdead
        refine Or.inl ⟨⟨_, rfl⟩, ?_⟩
        rintro other ⟨rfl⟩
        exact Or.inl hdead
      · rename_i hlive
        cases hspace : task.space with
        | none =>
            refine Or.inl ⟨⟨_, rfl⟩, ?_⟩
            rintro other ⟨rfl⟩
            exact Or.inr hspace
        | some space =>
            right
            dsimp only
            rcases hrun : (Memory.mk space k.pool).fork with ⟨e | child, m⟩
            · exact ⟨task, space, m, rfl, by simpa using hlive, hspace, Or.inl ⟨e, hrun, rfl⟩⟩
            · exact ⟨task, space, m, rfl, by simpa using hlive, hspace,
                Or.inr ⟨child, hrun, rfl⟩⟩

/-- The kernel with another task selected, if `pid` was the selected one. -/
def reselect (k : Kernel) (pid : Pid) : Kernel :=
  if k.current = some pid then k.schedule.2 else k

/-- The kernel once `task` has terminated, before another is selected. -/
def bury (k : Kernel) (task : Task) (code : Int) : Kernel :=
  { k with
    sched := (reparent (k.sched.put (task.terminated code)) task.pid).update task.ppid notifyParent
    pool := task.discard k.pool }

/-- A live process terminates; a zombie cannot do so again. -/
theorem exit_of_find? {task : Task} (hfind : k.find? pid = some task) (code : Int) :
    k.exit pid code =
      if task.isZombie then .error task.invalidState
      else .ok ((k.bury task code).reselect pid) := by
  have hpid := Scheduler.pid_of_find? hfind
  unfold exit
  rw [hfind]
  dsimp only
  cases hdead : task.isZombie with
  | true =>
      unfold Task.exit
      rw [hdead]
      rfl
  | false =>
      obtain ⟨gone, hexit, hppid, hrelease⟩ := Task.exit_eq hdead code
      rw [hexit, if_neg (by simp)]
      dsimp only
      rw [hrelease]
      subst hpid
      rfl

theorem exit_eq_ok {code : Int} (hrun : k.exit pid code = .ok after) :
    ∃ task, k.find? pid = some task ∧ task.isZombie = false ∧
      after = (k.bury task code).reselect pid := by
  cases hfind : k.find? pid with
  | none =>
      unfold exit at hrun
      rw [hfind] at hrun
      cases hrun
  | some task =>
      rw [exit_of_find? hfind] at hrun
      split at hrun
      · cases hrun
      · rename_i hlive
        exact ⟨task, rfl, by simpa using hlive, (Except.ok.inj hrun).symm⟩

/-- A kill ends a live process, a stop takes the CPU away from it, and any other
signal is only sent. -/
theorem kill_eq_ok {signal : Signal} (hrun : k.kill pid signal = .ok after) :
    ∃ task, k.find? pid = some task ∧
      ((task.isZombie = true ∧ after = k) ∨
      (task.isZombie = false ∧
        let sent := { k with sched := k.sched.put (task.send signal) }
        ((signal = .kill ∧ sent.exit pid signal.exitCode = .ok after) ∨
        (signal = .stop ∧ after = sent.reselect pid) ∨
        (signal ≠ .kill ∧ signal ≠ .stop ∧ after = sent)))) := by
  unfold kill at hrun
  cases hfind : k.find? pid with
  | none =>
      rw [hfind] at hrun
      cases hrun
  | some task =>
      rw [hfind] at hrun
      refine ⟨task, rfl, ?_⟩
      dsimp only at hrun ⊢
      split at hrun
      · rename_i hdead
        exact Or.inl ⟨hdead, (Except.ok.inj hrun).symm⟩
      · rename_i hlive
        right
        refine ⟨by simpa using hlive, ?_⟩
        split at hrun
        · exact Or.inl ⟨rfl, hrun⟩
        · exact Or.inr (Or.inl ⟨rfl, (Except.ok.inj hrun).symm⟩)
        · rename_i hkill hstop
          exact Or.inr (Or.inr ⟨hkill, hstop, (Except.ok.inj hrun).symm⟩)

/-- A process that was sent a signal is still found under its number. -/
theorem find?_send {task : Task} (hfind : k.find? pid = some task) (signal : Signal) :
    Kernel.find? { k with sched := k.sched.put (task.send signal) } pid =
      some (task.send signal) := by
  have hpid : (task.send signal).pid = pid :=
    (Task.pid_eq_of_outline (task.outline_send signal)).trans (Scheduler.pid_of_find? hfind)
  have hold : k.sched.find? (task.send signal).pid = some task := by
    rw [hpid]
    exact hfind
  exact (Scheduler.find?_put hold pid).trans (if_pos hpid)

/-- A kill is refused only where there is no such process. -/
theorem kill_eq_error {signal : Signal} {e : KernelError} (hrun : k.kill pid signal = .error e) :
    k.find? pid = none := by
  unfold kill at hrun
  cases hfind : k.find? pid with
  | none => rfl
  | some task =>
      rw [hfind] at hrun
      dsimp only at hrun
      split at hrun
      · cases hrun
      · rename_i hlive
        split at hrun
        · -- The signal does not change that the task lives.
          have hsend := task.outline_send .kill
          rw [exit_of_find? (find?_send hfind .kill), Task.isZombie_eq_of_outline hsend,
            if_neg hlive] at hrun
          cases hrun
        · cases hrun
        · cases hrun

/-- A wait reaps a child that has terminated; it marks a parent whose children
all live, and it is refused where there is nobody to wait for. -/
theorem wait_cases (k : Kernel) (parent : Pid) :
    (k.sched.contains parent = true ∧
      ∃ child, child ∈ k.sched.childrenOf parent ∧ child.isZombie = true ∧
        k.wait parent = ⟨.ok (child.pid, child.exitCode.getD 0),
          k.withMachine (Machine.remove
            ⟨k.sched.update parent (Task.markWaiting false), k.pool⟩ child.pid).2⟩) ∨
    ((∃ e, k.wait parent = ⟨.error e, k⟩ ∧ e ≠ .wouldBlock) ∧
      (k.sched.contains parent = false ∨ k.sched.childrenOf parent = [])) ∨
    (k.sched.contains parent = true ∧ k.sched.childrenOf parent ≠ [] ∧
      (∀ child ∈ k.sched.childrenOf parent, child.isZombie = false) ∧
      k.wait parent = ⟨.error .wouldBlock,
        { k with sched := k.sched.update parent (Task.markWaiting true) }⟩) := by
  unfold wait
  split
  · rename_i hparent
    dsimp only
    split
    · rename_i child hfind
      exact Or.inl ⟨hparent, child, List.mem_of_find?_eq_some hfind, List.find?_some hfind, rfl⟩
    · rename_i hnone
      right
      have hlive : ∀ child ∈ k.sched.childrenOf parent, child.isZombie = false := by
        intro child hmem
        simpa using List.find?_eq_none.mp hnone child hmem
      split
      · rename_i hempty
        exact Or.inl ⟨⟨_, rfl, by simp⟩, Or.inr (List.isEmpty_iff.mp hempty)⟩
      · rename_i hsome
        refine Or.inr ⟨hparent, ?_, hlive, rfl⟩
        intro hnil
        rw [hnil] at hsome
        exact hsome rfl
  · rename_i hparent
    exact Or.inr (Or.inl ⟨⟨_, rfl, by simp⟩, Or.inl (by simpa using hparent)⟩)

/-- A process that is put to sleep was runnable. -/
theorem blockProcess_cases (k : Kernel) (pid : Pid) :
    (∃ e, k.blockProcess pid = ⟨.error e, k⟩) ∨
    ∃ task blocked, k.find? pid = some task ∧ task.block true = .ok blocked ∧
      k.blockProcess pid = ⟨.ok (), { k with sched := k.sched.put blocked }.reselect pid⟩ := by
  unfold blockProcess
  cases hfind : k.find? pid with
  | none => exact Or.inl ⟨_, rfl⟩
  | some task =>
      cases hblock : task.block true with
      | error e =>
          left
          dsimp only
          rw [hblock]
          exact ⟨e, rfl⟩
      | ok blocked =>
          right
          refine ⟨task, blocked, rfl, hblock, ?_⟩
          dsimp only
          rw [hblock]
          rfl

/-- A wait that may sleep is a wait, and a sleep after it if it marked the
parent. -/
theorem waitOrBlock_cases (k : Kernel) (parent : Pid) :
    ((k.wait parent).result ≠ .error .wouldBlock ∧
      k.waitOrBlock parent = (k.wait parent).map some) ∨
    ((k.wait parent).result = .error .wouldBlock ∧
      k.waitOrBlock parent =
        ((k.wait parent).state.blockProcess parent).map fun () => none) := by
  unfold waitOrBlock
  split
  · rename_i hrun
    rw [hrun]
    exact Or.inl ⟨by simp, rfl⟩
  · rename_i hrun
    rw [hrun]
    exact Or.inr ⟨rfl, rfl⟩
  · rename_i e _ hrefused hrun
    rw [hrun]
    refine Or.inl ⟨?_, rfl⟩
    rintro ⟨rfl⟩
    exact hrefused rfl

/-- A live process starts over in an empty space. -/
theorem exec_eq_ok (hrun : k.exec pid = .ok after) :
    ∃ task, k.find? pid = some task ∧ task.isZombie = false ∧
      after = { k with
        sched := k.sched.put { task.execReset with space := some k.newSpace }
        pool := task.discard k.pool } := by
  unfold exec at hrun
  cases hfind : k.find? pid with
  | none =>
      rw [hfind] at hrun
      cases hrun
  | some task =>
      rw [hfind] at hrun
      dsimp only at hrun
      split at hrun
      · cases hrun
      · rename_i hlive
        refine ⟨task, rfl, by simpa using hlive, ?_⟩
        cases hrun
        unfold Task.discard Task.releaseSpace Task.execReset
        cases task.space with
        | none => rfl
        | some space => rfl

/-- Whoever has no space is refused; a space that is dealt with goes back to its
task. -/
theorem accessSpace_cases {α : Type} (k : Kernel) (pid : Pid) (act : Memory → α × Memory) :
    (∃ e, k.accessSpace pid act = ⟨.error e, k⟩ ∧
      ∀ task, k.find? pid = some task → task.space = none) ∨
    ∃ task space, k.find? pid = some task ∧ task.space = some space ∧
      let done := act ⟨space, k.pool⟩
      k.accessSpace pid act = ⟨.ok done.1, { k with
        sched := k.sched.put { task with space := some done.2.space }
        pool := done.2.pool }⟩ := by
  unfold accessSpace
  cases hfind : k.find? pid with
  | none => exact Or.inl ⟨_, rfl, by simp⟩
  | some task =>
      cases hspace : task.space with
      | none =>
          left
          dsimp only
          rw [hspace]
          refine ⟨_, rfl, ?_⟩
          rintro other ⟨rfl⟩
          exact hspace
      | some space =>
          right
          refine ⟨task, space, rfl, hspace, ?_⟩
          dsimp only
          rw [hspace]

theorem access_cases (k : Kernel) (pid : Pid) (request : Memory.Request) :
    (∃ e, k.access pid request = ⟨.error e, k⟩ ∧
      ∀ task, k.find? pid = some task → task.space = none) ∨
    ∃ task space, k.find? pid = some task ∧ task.space = some space ∧
      let served := (Memory.mk space k.pool).serve request
      k.access pid request = ⟨served.result.map .access, { k with
        sched := k.sched.put { task with space := some served.state.space }
        pool := served.state.pool }⟩ := by
  unfold access
  rcases k.accessSpace_cases pid fun m => ((m.serve request).result, (m.serve request).state) with
    ⟨e, hrun, hbare⟩ | ⟨task, space, hfind, hspace, hrun⟩
  · rw [hrun]
    exact Or.inl ⟨e, rfl, hbare⟩
  · rw [hrun]
    exact Or.inr ⟨task, space, hfind, hspace, rfl⟩

theorem serveAll_concat (k : Kernel) (done : List Request) (request : Request) :
    (k.serveAll (done ++ [request])).2 = ((k.serveAll done).2.serve request).state := by
  induction done generalizing k with
  | nil => rfl
  | cons first rest ih => exact ih (k.serve first).state

/-- What every request keeps holds at the end of every run. -/
theorem serveAll_invariant (holds : Kernel → Prop)
    (hserve : ∀ k request, holds k → holds (k.serve request).state) (h : holds k)
    (requests : List Request) : holds (k.serveAll requests).2 := by
  induction requests generalizing k with
  | nil => exact h
  | cons request rest ih => exact ih (hserve k request h)

end Kernel

end Kernelet
