import Kernelet.Proofs.Kernel.Course
import Kernelet.Proofs.Memory.Sharing
import Kernelet.Proofs.Process.Pace

/-!
Who gets a place in the table. A request that is to create a process fails before
it takes a number, or it takes one; then the process is seated in the first empty
slot, or turned away because there is none (`serve_seating`). Only if numbers have come
round can it also be turned away because somebody has its number. Apart from the one
who is seated, everybody in the table goes on at their own pace, and so a new
process has the priority that was configured or that of its parent
(`Seating.priority_eq`).
-/

namespace Kernelet.Kernel

/-- Whether the request is to create a process. -/
def Request.creates : Request → Bool
  | .createInit | .spawn _ _ _ | .fork _ => true
  | _ => false

/-- The task starts out with the time slice that the kernel gives to new processes,
or with what a task of the table has. -/
inductive GivesSlice (k : Kernel) (task : Task) : Prop
  | configured (hpriority : task.priority = k.config.defaultPriority.toNat)
      (hcounter : task.counter = k.config.defaultCounter.toNat)
  | inherited (parent : Task) (hmem : parent ∈ k.sched.tasks)
      (hpriority : task.priority = parent.priority) (hcounter : task.counter = parent.counter)

/-- Everybody goes on at their own pace, under the configuration that there was. -/
structure Paced (k after : Kernel) : Prop where
  sched : k.sched.Paced after.sched
  config_eq : after.config = k.config

/-- Why the process that gets the next number is turned away. -/
inductive TurnsAway (k : Kernel) : KernelError → Prop where
  | full (hfull : none ∉ k.sched.slots) : TurnsAway k .processTableFull
  /-- Numbers have come round, and somebody has this one. -/
  | used (hthere : k.sched.contains k.sched.nextNumber = true)
      (hround : ¬ k.NumbersFit) :
      TurnsAway k (.alreadyExists k.sched.nextNumber)

/-- What a request does to the seats of the table, with its result and the kernel
after it. -/
inductive Seating (k : Kernel) (request : Request) (result : Except KernelError Reply)
    (after : Kernel) : Prop
  /-- No number is taken. -/
  | unchanged (hpaced : Paced k after)
      (hresult : request.creates = true → ∃ e, result = .error e ∧ e ≠ .processTableFull)
  /-- A process of the next number gets the first empty slot. -/
  | seated (mid : Kernel) (task : Task) (hcreates : request.creates = true)
      (hpaced : Paced k mid) (hpid : task.pid = k.sched.nextNumber) (hslice : k.GivesSlice task)
      (hplace : Scheduler.place task mid.sched.slots = some after.sched.slots)
      (hnext : after.sched.nextPid = k.sched.nextPid + 1) (hconfig : after.config = k.config)
      (hresult : result = .ok (.created k.sched.nextNumber))
  /-- The next number is given out, but the process is turned away. -/
  | turnedAway (mid : Kernel) (e : KernelError) (hcreates : request.creates = true)
      (hpaced : Paced k mid) (haway : k.TurnsAway e)
      (hslots : after.sched.slots = mid.sched.slots)
      (hnext : after.sched.nextPid = k.sched.nextPid + 1) (hconfig : after.config = k.config)
      (hresult : result = .error e)

variable {k mid after : Kernel} {request : Request} {pid : Pid}

namespace Paced

theorem refl (k : Kernel) : Paced k k :=
  ⟨Scheduler.Paced.refl k.sched, rfl⟩

theorem trans (h : Paced k mid) (hnext : Paced mid after) : Paced k after :=
  ⟨h.sched.trans hnext.sched, hnext.config_eq.trans h.config_eq⟩

theorem of_pool (k : Kernel) (pool : FramePool) : Paced k { k with pool } :=
  ⟨Scheduler.Paced.refl k.sched, rfl⟩

/-- A task goes back to its place with the pace that it had. -/
theorem put (hproper : k.sched.Proper) {task new : Task} (pool : FramePool)
    (hfind : k.find? pid = some task) (h : task.Paced new) :
    Paced k { k with sched := k.sched.put new, pool } :=
  ⟨Scheduler.Paced.put hproper hfind h, rfl⟩

end Paced

theorem schedule_paced (k : Kernel) : Paced k k.schedule.2 :=
  ⟨Scheduler.Paced.schedule k.sched, rfl⟩

theorem reselect_paced (k : Kernel) (pid : Pid) : Paced k (k.reselect pid) := by
  unfold reselect
  split
  · exact schedule_paced k
  · exact Paced.refl k

theorem config_timerTick (k : Kernel) : k.timerTick.2.config = k.config := by
  unfold timerTick
  split
  · rfl
  · rfl

theorem timerTick_paced (h : k.sched.Proper) : Paced k k.timerTick.2 := by
  refine ⟨?_, config_timerTick k⟩
  rw [sched_timerTick]
  exact Scheduler.Paced.timerTick h

theorem sleep_paced (h : k.sched.Proper) (interruptible : Bool) :
    Paced k (k.sleep interruptible).state := by
  unfold sleep
  split
  · exact Paced.refl k
  · rename_i hrun
    exact ⟨Scheduler.Paced.sleep h hrun, rfl⟩

theorem pace_notifyParent (task : Task) : (notifyParent task).pace = task.pace := by
  have hsend := task.pace_send .chld
  unfold notifyParent
  dsimp only
  split
  · exact (Task.pace_wake _).trans hsend
  · exact hsend

/-- The end of a task empties its slice, and no other. -/
theorem bury_paced (h : k.sched.Proper) {task : Task} (hfind : k.find? pid = some task)
    (code : Int) : Paced k (k.bury task code) := by
  refine ⟨?_, rfl⟩
  have hended : task.Paced (task.terminated code) :=
    Task.Paced.of_slice rfl rfl Task.SliceStep.ended
  have hput : k.sched.Paced (k.sched.put (task.terminated code)) :=
    Scheduler.Paced.put h hfind hended
  have horphans : Scheduler.Paced (k.sched.put (task.terminated code))
      (reparent (k.sched.put (task.terminated code)) task.pid) := by
    apply Scheduler.Paced.mapTasks
    intro other _
    split
    · exact Task.Paced.of_pace_eq rfl
    · exact Relation.ReflTransGen.refl
  exact (hput.trans horphans).trans
    (Scheduler.Paced.update task.ppid fun other => Task.Paced.of_pace_eq (pace_notifyParent other))

theorem exit_paced (h : k.sched.Proper) {code : Int} (hrun : k.exit pid code = .ok after) :
    Paced k after := by
  obtain ⟨task, hfind, -, rfl⟩ := exit_eq_ok hrun
  exact (bury_paced h hfind code).trans (reselect_paced _ pid)

theorem kill_paced (h : k.sched.Proper) {signal : Signal} (hrun : k.kill pid signal = .ok after) :
    Paced k after := by
  obtain ⟨task, hfind, ⟨-, rfl⟩ | ⟨-, hsent⟩⟩ := kill_eq_ok hrun
  · exact Paced.refl after
  · have hput := Paced.put h k.pool hfind (Task.Paced.of_pace_eq (task.pace_send signal))
    rcases hsent with ⟨rfl, hexit⟩ | ⟨-, rfl⟩ | ⟨-, -, rfl⟩
    · exact hput.trans (exit_paced (h.put _) hexit)
    · exact hput.trans (reselect_paced _ pid)
    · exact hput

theorem mark_paced (k : Kernel) (parent : Pid) (waiting : Bool) :
    Paced k { k with sched := k.sched.update parent (Task.markWaiting waiting) } :=
  ⟨Scheduler.Paced.update parent fun _ => Task.Paced.of_pace_eq rfl, rfl⟩

theorem wait_paced (k : Kernel) (parent : Pid) : Paced k (k.wait parent).state := by
  rcases wait_cases k parent with
    ⟨-, child, -, -, hrun⟩ | ⟨⟨e, hrun, -⟩, -⟩ | ⟨-, -, -, hrun⟩
  · rw [hrun]
    refine ⟨?_, rfl⟩
    unfold withMachine
    dsimp only
    rw [Machine.sched_remove]
    exact (mark_paced k parent false).sched.trans (Scheduler.Paced.remove _ child.pid)
  · rw [hrun]
    exact Paced.refl k
  · rw [hrun]
    exact mark_paced k parent true

theorem blockProcess_paced (h : k.sched.Proper) (pid : Pid) :
    Paced k (k.blockProcess pid).state := by
  rcases blockProcess_cases k pid with ⟨e, hrun⟩ | ⟨task, blocked, hfind, hblock, hrun⟩
  · rw [hrun]
    exact Paced.refl k
  · have hput := Paced.put h k.pool hfind (Task.Paced.of_pace_eq (Task.pace_block hblock))
    rw [hrun]
    exact hput.trans (reselect_paced _ pid)

theorem waitOrBlock_paced (h : Dispatched k) (parent : Pid) :
    Paced k (k.waitOrBlock parent).state := by
  have hwait := wait_paced k parent
  rcases waitOrBlock_cases k parent with ⟨-, hrun⟩ | ⟨-, hrun⟩
  · rw [hrun]
    exact hwait
  · rw [hrun]
    exact hwait.trans (blockProcess_paced (wait_dispatched h parent).proper parent)

theorem exec_paced (h : k.sched.Proper) (hrun : k.exec pid = .ok after) : Paced k after := by
  obtain ⟨task, hfind, -, rfl⟩ := exec_eq_ok hrun
  exact Paced.put h _ hfind (Task.Paced.of_pace_eq rfl)

theorem accessSpace_paced {α : Type} (h : k.sched.Proper) (pid : Pid)
    (act : Memory → α × Memory) : Paced k (k.accessSpace pid act).state := by
  rcases accessSpace_cases k pid act with ⟨e, hrun, -⟩ | ⟨task, space, hfind, -, hrun⟩
  · rw [hrun]
    exact Paced.refl k
  · rw [hrun]
    exact Paced.put h _ hfind (Task.Paced.of_pace_eq rfl)

theorem commit_paced {result : Except KernelError Kernel}
    (h : ∀ after, result = .ok after → Paced k after) : Paced k (k.commit result).state := by
  cases result with
  | error e => exact Paced.refl k
  | ok after => exact h after rfl

/-- As long as no number comes round, a process is turned away only for want of a
slot. -/
theorem TurnsAway.full_of_fit {e : KernelError} (h : k.TurnsAway e)
    (hfit : k.NumbersFit) : e = .processTableFull ∧ none ∉ k.sched.slots := by
  cases h with
  | full hfull => exact ⟨rfl, hfull⟩
  | used _ hround => exact absurd hfit hround

/-- Who is turned away after everybody has gone on at their own pace would have been
before. -/
theorem TurnsAway.of_paced {e : KernelError} (hpaced : Paced k mid) (h : mid.TurnsAway e) :
    k.TurnsAway e := by
  cases h with
  | full hfull => exact TurnsAway.full (mt hpaced.sched.none_mem hfull)
  | used hthere hround =>
      rw [hpaced.sched.nextNumber_eq] at hthere ⊢
      refine TurnsAway.used ?_ ?_
      · obtain ⟨later, hfind⟩ := Option.isSome_iff_exists.mp hthere
        obtain ⟨task, hmem, hstep⟩ :=
          hpaced.sched.exists_of_mem (Scheduler.mem_tasks_of_find? hfind)
        have hpid : task.pid = k.sched.nextNumber :=
          hstep.pid_eq.symm.trans (Scheduler.pid_of_find? hfind)
        by_contra hfree
        have hnone : k.sched.find? k.sched.nextNumber = none := by
          simpa [Scheduler.contains] using hfree
        exact Scheduler.find?_eq_none_iff.mp hnone task hmem hpid
      · exact fun hfit => hround (hfit.of_le hpaced.sched.nextPid_eq.le)

/-- A task that takes the next number gets the first empty slot, or is turned away. -/
theorem enlist_seats (h : k.sched.Proper) {task : Task} (hpid : task.pid = k.sched.nextNumber) :
    (∃ slots, Scheduler.place task k.sched.slots = some slots ∧
      k.enlisted task = .ok k.sched.nextNumber ∧
      k.enlist task = { k with sched := { k.sched.allocatePid.2 with slots } }) ∨
    ∃ e, k.TurnsAway e ∧ k.enlisted task = .error e ∧
      k.enlist task =
        { k with sched := k.sched.allocatePid.2, pool := task.discard k.pool } := by
  unfold enlisted enlist Machine.add
  dsimp only
  rcases k.sched.allocatePid.2.add_cases task with
    ⟨slots, hplace, hadd⟩ | ⟨hfull, hadd⟩ | ⟨hthere, hadd⟩
  · rw [hadd]
    exact Or.inl ⟨slots, hplace, rfl, rfl⟩
  · rw [hadd]
    exact Or.inr ⟨_, TurnsAway.full hfull, rfl, rfl⟩
  · have hused : k.sched.contains k.sched.nextNumber = true := hpid ▸ hthere
    rw [hadd, hpid]
    refine Or.inr ⟨_, TurnsAway.used hused ?_, rfl, rfl⟩
    intro hfit
    rw [Scheduler.contains, h.find?_nextNumber hfit] at hused
    cases hused

/-- A task with the next number is refused only because it is turned away. -/
theorem enlisted_error (h : k.sched.Proper) {task : Task} {e : KernelError}
    (hpid : task.pid = k.sched.nextNumber) (hrun : k.enlisted task = .error e) :
    k.TurnsAway e := by
  rcases enlist_seats h hpid with ⟨slots, -, hresult, -⟩ | ⟨other, haway, hresult, -⟩
  · rw [hresult] at hrun
    cases hrun
  · rw [hresult] at hrun
    cases hrun
    exact haway

theorem mem_tasks_enlist (h : k.sched.Proper) {task : Task} (hpid : task.pid = k.sched.nextNumber)
    (hroom : none ∈ k.sched.slots) (hfit : k.NumbersFit) :
    task ∈ (k.enlist task).sched.tasks := by
  rcases enlist_seats h hpid with ⟨slots, hplace, -, hrun⟩ | ⟨e, haway, -⟩
  · rw [hrun]
    exact Scheduler.mem_tasks_of_place hplace
  · exact absurd hroom (haway.full_of_fit hfit).2

theorem enlist_seating (hpaced : Paced k mid) (hproper : mid.sched.Proper) {task : Task}
    (hpid : task.pid = k.sched.nextNumber) (hslice : k.GivesSlice task)
    (hcreates : request.creates = true) :
    Seating k request ((mid.enlisted task).map Reply.created) (mid.enlist task) := by
  have hnext : mid.sched.nextPid = k.sched.nextPid := hpaced.sched.nextPid_eq
  have hnumber : mid.sched.nextNumber = k.sched.nextNumber := hpaced.sched.nextNumber_eq
  rcases enlist_seats hproper (hpid.trans hnumber.symm) with
    ⟨slots, hplace, hresult, hrun⟩ | ⟨e, haway, hresult, hrun⟩
  · rw [hresult, hrun, hnumber]
    exact Seating.seated mid task hcreates hpaced hpid hslice hplace
      (congrArg (· + 1) hnext) hpaced.config_eq rfl
  · rw [hresult, hrun]
    exact Seating.turnedAway mid e hcreates hpaced (haway.of_paced hpaced) rfl
      (congrArg (· + 1) hnext) hpaced.config_eq rfl

theorem newImage_error {pages : Nat} {m : Memory} {e : KernelError}
    (hrun : k.newImage pages = ⟨.error e, m⟩) :
    e = .outOfMemory ∨ ∃ a, e = .addressOutOfRange a := by
  unfold newImage at hrun
  split at hrun
  · rename_i hpages
    cases hrun
    exact Memory.mapPages_error (congrArg Outcome.result hpages)
  · cases hrun

theorem spawn_seating (h : k.sched.Proper) (hcreates : request.creates = true) (name : String)
    (parent : Pid) (pages : Nat) :
    Seating k request ((k.spawn name parent pages).map Reply.created).result
      (k.spawn name parent pages).state := by
  rcases spawn_cases k name parent pages with
    ⟨-, hparent⟩ | ⟨-, m, ⟨e, himage, hrun⟩ | ⟨-, hrun⟩⟩
  · have hrun : k.spawn name parent pages = ⟨.error (.noSuchProcess parent), k⟩ := if_pos hparent
    rw [hrun]
    exact Seating.unchanged (Paced.refl k) fun _ => ⟨_, rfl, by simp⟩
  · have he : e ≠ .processTableFull := by
      rcases newImage_error himage with rfl | ⟨a, rfl⟩
      · simp
      · simp
    rw [hrun]
    exact Seating.unchanged (Paced.of_pool k m.pool) fun _ => ⟨e, rfl, he⟩
  · rw [hrun]
    show Seating k request ((enlisted _ _).map Reply.created) (enlist _ _)
    apply enlist_seating (Paced.of_pool k m.pool) h
    · rfl
    · exact GivesSlice.configured rfl rfl
    · exact hcreates

theorem createInit_seating (h : k.sched.Proper) (hcreates : request.creates = true) :
    Seating k request (k.createInit.map Reply.created).result k.createInit.state := by
  unfold createInit
  split
  · exact Seating.unchanged (Paced.refl k) fun _ => ⟨_, rfl, by simp⟩
  · exact spawn_seating h hcreates "init" 0 initPages

/-- Whoever is not there, or has terminated, cannot be duplicated. -/
theorem fork_refused {parent : Pid}
    (h : ∀ task, k.find? parent = some task → task.isZombie = true ∨ task.space = none) :
    ∃ e, k.fork parent = ⟨.error e, k⟩ ∧ e ≠ .processTableFull := by
  unfold fork
  cases hfind : k.find? parent with
  | none => exact ⟨_, rfl, by simp⟩
  | some task =>
      dsimp only
      split
      · exact ⟨_, rfl, by simp [Task.invalidState]⟩
      · rename_i hlive
        rw [(h task hfind).resolve_left hlive]
        exact ⟨_, rfl, by simp [Task.invalidState]⟩

theorem fork_seating (h : k.sched.Proper) (hcreates : request.creates = true) (parent : Pid) :
    Seating k request ((k.fork parent).map Reply.created).result (k.fork parent).state := by
  rcases fork_cases k parent with ⟨-, hunfit⟩ | ⟨task, space, m, hfind, -, -, hfork⟩
  · obtain ⟨e, hrun, he⟩ := fork_refused hunfit
    rw [hrun]
    exact Seating.unchanged (Paced.refl k) fun _ => ⟨e, rfl, he⟩
  · have hshared : Paced k { k with
        sched := k.sched.put { task with space := some m.space }
        pool := m.pool } := Paced.put h m.pool hfind (Task.Paced.of_pace_eq rfl)
    rcases hfork with ⟨e, hfailed, hrun⟩ | ⟨child, -, hrun⟩
    · have he : e ≠ .processTableFull := by
        obtain ⟨f, rfl⟩ := Memory.fork_error (congrArg Outcome.result hfailed)
        simp
      rw [hrun]
      exact Seating.unchanged hshared fun _ => ⟨e, rfl, he⟩
    · rw [hrun]
      show Seating k request ((enlisted _ _).map Reply.created) (enlist _ _)
      apply enlist_seating hshared (h.put _)
      · rfl
      · exact GivesSlice.inherited task (Scheduler.mem_tasks_of_find? hfind) rfl rfl
      · exact hcreates

theorem Seating.of_paced {result : Except KernelError Reply} (hcreates : request.creates = false)
    (h : Paced k after) : Seating k request result after := by
  refine unchanged h ?_
  intro htrue
  rw [hcreates] at htrue
  cases htrue

/-- Every request leaves the seats as they are, seats the next process, or turns it
away. -/
theorem serve_seating (h : Dispatched k) (request : Request) :
    Seating k request (k.serve request).result (k.serve request).state := by
  have hproper : k.sched.Proper := h.proper
  cases request with
  | createInit => exact createInit_seating hproper rfl
  | spawn name parent pages => exact spawn_seating hproper rfl name parent pages
  | fork parent => exact fork_seating hproper rfl parent
  | schedule => exact Seating.of_paced rfl (schedule_paced k)
  | timerTick => exact Seating.of_paced rfl (timerTick_paced hproper)
  | sleep interruptible => exact Seating.of_paced rfl (sleep_paced hproper interruptible)
  | wakeAll => exact Seating.of_paced rfl ⟨Scheduler.Paced.wakeAll k.sched, rfl⟩
  | exit pid code =>
      exact Seating.of_paced rfl (commit_paced fun after hrun => exit_paced hproper hrun)
  | wait parent => exact Seating.of_paced rfl (wait_paced k parent)
  | waitOrBlock parent => exact Seating.of_paced rfl (waitOrBlock_paced h parent)
  | kill pid signal =>
      exact Seating.of_paced rfl (commit_paced fun after hrun => kill_paced hproper hrun)
  | exec pid =>
      exact Seating.of_paced rfl (commit_paced fun after hrun => exec_paced hproper hrun)
  | access pid act =>
      exact Seating.of_paced rfl
        (accessSpace_paced hproper pid fun m => ((m.serve act).result, (m.serve act).state))
  | shutdown => exact Seating.of_paced rfl ⟨Scheduler.Paced.refl k.sched, rfl⟩

namespace Seating

variable {result : Except KernelError Reply}

theorem config_eq (h : Seating k request result after) : after.config = k.config := by
  cases h with
  | unchanged hpaced _ => exact hpaced.config_eq
  | seated _ _ _ _ _ _ _ _ hconfig _ => exact hconfig
  | turnedAway _ _ _ _ _ _ _ hconfig _ => exact hconfig

theorem capacity_eq (h : Seating k request result after) :
    after.sched.capacity = k.sched.capacity := by
  unfold Scheduler.capacity
  cases h with
  | unchanged hpaced _ => exact hpaced.sched.length_eq
  | seated mid task _ hpaced _ _ hplace _ _ _ =>
      rw [Scheduler.length_place hplace, hpaced.sched.length_eq]
  | turnedAway mid _ _ hpaced _ hslots _ _ _ => rw [hslots, hpaced.sched.length_eq]

/-- What every step of a task keeps, and a new task starts out with, every task has. -/
theorem forall_tasks (h : Seating k request result after) (holds : Task → Prop)
    (hstep : ∀ task after, holds task → Task.PaceStep task after → holds after)
    (hborn : ∀ task, result = .ok (.created task.pid) → k.GivesSlice task → holds task)
    (hall : ∀ task ∈ k.sched.tasks, holds task) :
    ∀ task ∈ after.sched.tasks, holds task := by
  cases h with
  | unchanged hpaced _ => exact hpaced.sched.forall_tasks hstep hall
  | seated mid task _ hpaced hpid hslice hplace _ _ hresult =>
      have hmid := hpaced.sched.forall_tasks hstep hall
      intro other hmem
      obtain ⟨before, rest, hold, hnew⟩ := Scheduler.filterMap_place hplace
      unfold Scheduler.tasks at hmem hmid
      rw [hnew] at hmem
      rw [hold] at hmid
      rcases List.mem_cons.mp (List.perm_middle.mem_iff.mp hmem) with rfl | hother
      · exact hborn other (hpid ▸ hresult) hslice
      · exact hmid other hother
  | turnedAway mid _ _ hpaced _ hslots _ _ _ =>
      have hmid := hpaced.sched.forall_tasks hstep hall
      unfold Scheduler.tasks at hmid ⊢
      rw [hslots]
      exact hmid

end Seating

end Kernelet.Kernel
