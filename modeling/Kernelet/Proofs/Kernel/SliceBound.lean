import Kernelet.Proofs.Kernel.Idling

/-!
Time slices never reach the end of a word. A request lets tasks use up their slices and may seat a
new process, and then it makes at most one selection (`serve_settles`), which is the only place
where slices are refilled. Half of a slice and the priority on top is no more than the greater of
the first slice and twice the priority, if the slice was no more than that before. A configuration
keeps both below the end of a word, and so the refill is never cut off (`slices_unclipped`).
-/

namespace Kernelet

/-- No slice is greater than this. -/
def Config.sliceBound (config : Config) : Nat :=
  max config.defaultCounter.toNat (2 * config.defaultPriority.toNat)

theorem Config.sliceBound_lt {config : Config} (h : config.fault? = none) :
    config.sliceBound < UInt32.size := by
  obtain ⟨-, -, -, -, -, ⟨hpriority, hcounter⟩, -⟩ := fault?_eq_none_iff.mp h
  have hmax : 2 * maxTimeSlice < UInt32.size := by decide
  unfold sliceBound
  omega

namespace Task

/-- The task goes on without a refill: its slice does not grow. -/
structure Spends (task after : Task) : Prop where
  pid_eq : after.pid = task.pid
  priority_eq : after.priority = task.priority
  counter_le : after.counter ≤ task.counter

/-- The task with half of what was left and its priority on top, whatever a word can hold. -/
def replenished (task : Task) : Task :=
  { task with counter := task.counter / 2 + task.priority }

variable {task mid after : Task}

theorem Spends.of_pace_eq (h : after.pace = task.pace) : task.Spends after where
  pid_eq := congrArg (fun x => x.1) h
  priority_eq := congrArg (fun x => x.2.1) h
  counter_le := Nat.le_of_eq (congrArg (fun x => x.2.2) h)

theorem Spends.refl (task : Task) : task.Spends task :=
  of_pace_eq rfl

theorem Spends.trans (h : task.Spends mid) (hnext : mid.Spends after) : task.Spends after where
  pid_eq := hnext.pid_eq.trans h.pid_eq
  priority_eq := hnext.priority_eq.trans h.priority_eq
  counter_le := Nat.le_trans hnext.counter_le h.counter_le

end Task

namespace Scheduler

variable {s mid after : Scheduler} {task : Task} {pid : Pid}

/-- Whoever is in the later table was in the earlier one, and nobody was given anything. -/
def Spends (s after : Scheduler) : Prop :=
  ∀ later ∈ after.tasks, ∃ task ∈ s.tasks, task.Spends later

theorem Spends.of_slots_eq (h : after.slots = s.slots) : s.Spends after := by
  intro later hmem
  unfold tasks at hmem
  rw [h] at hmem
  exact ⟨later, hmem, Task.Spends.refl later⟩

theorem Spends.refl (s : Scheduler) : s.Spends s :=
  of_slots_eq rfl

theorem Spends.trans (h : s.Spends mid) (hnext : mid.Spends after) : s.Spends after := by
  intro last hmem
  obtain ⟨later, hlater, hlast⟩ := hnext last hmem
  obtain ⟨task, htask, hfirst⟩ := h later hlater
  exact ⟨task, htask, hfirst.trans hlast⟩

theorem Spends.mapTasks {change : Task → Task} (h : ∀ task : Task, task.Spends (change task)) :
    s.Spends (s.mapTasks change) := by
  intro later hmem
  rw [tasks_mapTasks] at hmem
  obtain ⟨task, htask, rfl⟩ := List.mem_map.mp hmem
  exact ⟨task, htask, h task⟩

theorem Spends.update {change : Task → Task} (pid : Pid)
    (h : ∀ task : Task, task.Spends (change task)) : s.Spends (s.update pid change) := by
  apply Spends.mapTasks
  intro task
  split
  · exact h task
  · exact Task.Spends.refl task

theorem Spends.put {new : Task} (hfind : s.find? pid = some task) (h : task.Spends new) :
    s.Spends (s.put new) := by
  intro later hmem
  unfold Scheduler.put at hmem
  rw [tasks_update] at hmem
  obtain ⟨other, hother, rfl⟩ := List.mem_map.mp hmem
  split
  · exact ⟨task, mem_tasks_of_find? hfind, h⟩
  · exact ⟨other, hother, Task.Spends.refl other⟩

theorem Spends.remove (s : Scheduler) (pid : Pid) : s.Spends (s.remove pid).2 := by
  intro later hmem
  rw [tasks_remove] at hmem
  exact ⟨later, (List.mem_filter.mp hmem).1, Task.Spends.refl later⟩

/-- No slice is above the bound, and a refill gives everybody who lives exactly half of what was
left and the priority on top. -/
structure Unclipped (s : Scheduler) (bound : Nat) : Prop where
  counter_le : ∀ task ∈ s.tasks, task.counter ≤ bound
  decayCounter_eq : ∀ task ∈ s.tasks, task.decayCounter = task.replenished
  tasks_decay : s.decay.tasks =
    s.tasks.map fun task => if task.isZombie then task else task.replenished

end Scheduler

namespace Kernel

variable {k mid after : Kernel} {s : Scheduler} {pid : Pid} {request : Request}

/-- The kernel can come to table `s` without a refill: whoever is in it was there and was given
nothing, or is the process that was created next. -/
def LeadsTo (k : Kernel) (s : Scheduler) : Prop :=
  ∀ later ∈ s.tasks, (∃ task ∈ k.sched.tasks, task.Spends later) ∨
    (later.pid = k.sched.nextNumber ∧ k.GivesSlice later)

/-- The kernel comes to a table without a refill, and then makes a selection at most. -/
def Settles (k after : Kernel) : Prop :=
  ∃ s, k.LeadsTo s ∧ (after.sched = s ∨ after.sched = s.schedule.2)

theorem LeadsTo.of_spends (h : k.sched.Spends s) : k.LeadsTo s :=
  fun later hmem => Or.inl (h later hmem)

theorem Settles.of_spends (h : k.sched.Spends after.sched) : k.Settles after :=
  ⟨after.sched, LeadsTo.of_spends h, Or.inl rfl⟩

theorem Settles.refl (k : Kernel) : k.Settles k :=
  of_spends (Scheduler.Spends.refl k.sched)

theorem Settles.schedule (h : k.sched.Spends mid.sched) : k.Settles mid.schedule.2 :=
  ⟨mid.sched, LeadsTo.of_spends h, Or.inr rfl⟩

theorem Settles.reselect (h : k.sched.Spends mid.sched) (pid : Pid) :
    k.Settles (mid.reselect pid) := by
  unfold Kernel.reselect
  split
  · exact Settles.schedule h
  · exact Settles.of_spends h

/-- A process that is created starts with the slice that it is given. -/
theorem enlist_settles (hspends : k.sched.Spends mid.sched) (hproper : mid.sched.Proper)
    (hnext : mid.sched.nextNumber = k.sched.nextNumber) {task : Task}
    (hpid : task.pid = k.sched.nextNumber) (hslice : k.GivesSlice task) :
    k.Settles (mid.enlist task) := by
  rcases enlist_seats hproper (hpid.trans hnext.symm) with
    ⟨slots, hplace, -, hrun⟩ | ⟨-, -, -, hrun⟩
  · rw [hrun]
    refine ⟨_, ?_, Or.inl rfl⟩
    intro later hmem
    obtain ⟨before, rest, hold, hnew⟩ := Scheduler.filterMap_place hplace
    have hsplit : later ∈ before ++ task :: rest := hnew ▸ hmem
    rcases List.mem_cons.mp (List.perm_middle.mem_iff.mp hsplit) with rfl | hother
    · exact Or.inr ⟨hpid, hslice⟩
    · refine Or.inl (hspends later ?_)
      unfold Scheduler.tasks
      rw [hold]
      exact hother
  · rw [hrun]
    exact Settles.of_spends (hspends.trans (Scheduler.Spends.of_slots_eq rfl))

theorem spawn_settles (h : k.sched.Proper) (name : String) (parent : Pid) (pages : Nat) :
    k.Settles (k.spawn name parent pages).state := by
  rcases spawn_cases k name parent pages with
    ⟨⟨e, hrun⟩, -⟩ | ⟨-, m, ⟨e, -, hrun⟩ | ⟨-, hrun⟩⟩
  · rw [hrun]
    exact Settles.refl k
  · rw [hrun]
    exact Settles.of_spends (Scheduler.Spends.refl k.sched)
  · rw [hrun]
    exact @enlist_settles k { k with pool := m.pool } (Scheduler.Spends.refl k.sched) h rfl _
      rfl (GivesSlice.configured rfl rfl)

theorem createInit_settles (h : k.sched.Proper) : k.Settles k.createInit.state := by
  unfold createInit
  split
  · exact Settles.refl k
  · exact spawn_settles h "init" 0 initPages

theorem fork_settles (h : k.sched.Proper) (parent : Pid) : k.Settles (k.fork parent).state := by
  rcases fork_cases k parent with ⟨⟨e, hrun⟩, -⟩ | ⟨task, space, m, hfind, -, -, hfork⟩
  · rw [hrun]
    exact Settles.refl k
  · have hshared : k.sched.Spends (k.sched.put { task with space := some m.space }) :=
      Scheduler.Spends.put hfind (Task.Spends.of_pace_eq rfl)
    rcases hfork with ⟨e, -, hrun⟩ | ⟨child, -, hrun⟩
    · rw [hrun]
      exact Settles.of_spends hshared
    · rw [hrun]
      exact @enlist_settles k
        { k with sched := k.sched.put { task with space := some m.space }, pool := m.pool }
        hshared (h.put _) rfl _ rfl
        (GivesSlice.inherited task (Scheduler.mem_tasks_of_find? hfind) rfl rfl)

theorem timerTick_settles (k : Kernel) : k.Settles k.timerTick.2 := by
  unfold Settles
  rw [sched_timerTick]
  rcases k.sched.timerTick_cases with ⟨-, hrun⟩ | ⟨task, hcurrent, hcases⟩
  · rw [hrun]
    exact ⟨k.sched.clock, LeadsTo.of_spends (Scheduler.Spends.of_slots_eq rfl), Or.inl rfl⟩
  · obtain ⟨pid, -, hfind⟩ := Scheduler.currentTask?_eq_some_iff.mp hcurrent
    have hspent : task.Spends task.spendTick := ⟨rfl, rfl, Nat.sub_le _ 1⟩
    have hclock : k.sched.Spends k.sched.clock := Scheduler.Spends.of_slots_eq rfl
    have hthere : k.sched.clock.find? pid = some task := hfind
    have hput := hclock.trans (Scheduler.Spends.put hthere hspent)
    rcases hcases with ⟨-, hrun⟩ | ⟨-, hrun⟩
    · rw [hrun]
      exact ⟨_, LeadsTo.of_spends hput, Or.inr rfl⟩
    · rw [hrun]
      exact ⟨_, LeadsTo.of_spends hput, Or.inl rfl⟩

theorem sleep_settles (k : Kernel) (interruptible : Bool) :
    k.Settles (k.sleep interruptible).state := by
  unfold Kernel.sleep
  rcases k.sched.sleep_cases interruptible with
    ⟨-, hrun⟩ | ⟨task, hcurrent, ⟨e, -, hrun⟩ | ⟨blocked, hblock, hrun⟩⟩
  · rw [hrun]
    exact ⟨k.sched, LeadsTo.of_spends (Scheduler.Spends.refl k.sched), Or.inr rfl⟩
  · rw [hrun]
    exact Settles.refl k
  · obtain ⟨pid, -, hfind⟩ := Scheduler.currentTask?_eq_some_iff.mp hcurrent
    rw [hrun]
    exact ⟨_, LeadsTo.of_spends (Scheduler.Spends.put hfind
      (Task.Spends.of_pace_eq (Task.pace_block hblock))), Or.inr rfl⟩

theorem bury_spends {task : Task} (hfind : k.find? pid = some task) (code : Int) :
    k.sched.Spends (k.bury task code).sched := by
  have hended : task.Spends (task.terminated code) := ⟨rfl, rfl, Nat.zero_le _⟩
  have horphans : (k.sched.put (task.terminated code)).Spends
      (reparent (k.sched.put (task.terminated code)) task.pid) := by
    apply Scheduler.Spends.mapTasks
    intro other
    split
    · exact Task.Spends.of_pace_eq rfl
    · exact Task.Spends.refl other
  exact ((Scheduler.Spends.put hfind hended).trans horphans).trans
    (Scheduler.Spends.update task.ppid fun other =>
      Task.Spends.of_pace_eq (pace_notifyParent other))

theorem exit_settles {code : Int} (hspends : k.sched.Spends mid.sched)
    (hrun : mid.exit pid code = .ok after) : k.Settles after := by
  obtain ⟨task, hfind, -, rfl⟩ := exit_eq_ok hrun
  exact Settles.reselect (hspends.trans (bury_spends hfind code)) pid

theorem kill_settles {signal : Signal} (hrun : k.kill pid signal = .ok after) :
    k.Settles after := by
  obtain ⟨task, hfind, ⟨-, rfl⟩ | ⟨-, hsent⟩⟩ := kill_eq_ok hrun
  · exact Settles.refl after
  · have hput : k.sched.Spends (k.sched.put (task.send signal)) :=
      Scheduler.Spends.put hfind (Task.Spends.of_pace_eq (task.pace_send signal))
    rcases hsent with ⟨rfl, hexit⟩ | ⟨-, rfl⟩ | ⟨-, -, rfl⟩
    · exact exit_settles hput hexit
    · exact Settles.reselect hput pid
    · exact Settles.of_spends hput

theorem mark_spends (k : Kernel) (parent : Pid) (waiting : Bool) :
    k.sched.Spends (k.sched.update parent (Task.markWaiting waiting)) :=
  Scheduler.Spends.update parent fun _ => Task.Spends.of_pace_eq rfl

theorem wait_spends (k : Kernel) (parent : Pid) : k.sched.Spends (k.wait parent).state.sched := by
  rcases wait_cases k parent with
    ⟨-, child, -, -, hrun⟩ | ⟨⟨e, hrun, -⟩, -⟩ | ⟨-, -, -, hrun⟩
  · rw [hrun]
    unfold withMachine
    dsimp only
    rw [Machine.sched_remove]
    exact (mark_spends k parent false).trans (Scheduler.Spends.remove _ child.pid)
  · rw [hrun]
    exact Scheduler.Spends.refl k.sched
  · rw [hrun]
    exact mark_spends k parent true

theorem waitOrBlock_settles (k : Kernel) (parent : Pid) :
    k.Settles (k.waitOrBlock parent).state := by
  have hwait := wait_spends k parent
  rcases waitOrBlock_cases k parent with ⟨-, hrun⟩ | ⟨-, hrun⟩
  · rw [hrun]
    exact Settles.of_spends hwait
  · rw [hrun]
    rcases blockProcess_cases (k.wait parent).state parent with
      ⟨e, hblocked⟩ | ⟨task, blocked, hfind, hblock, hblocked⟩
    · rw [hblocked]
      exact Settles.of_spends hwait
    · rw [hblocked]
      exact Settles.reselect (hwait.trans (Scheduler.Spends.put hfind
        (Task.Spends.of_pace_eq (Task.pace_block hblock)))) parent

theorem exec_settles (hrun : k.exec pid = .ok after) : k.Settles after := by
  obtain ⟨task, hfind, -, rfl⟩ := exec_eq_ok hrun
  exact Settles.of_spends (Scheduler.Spends.put hfind (Task.Spends.of_pace_eq rfl))

theorem accessSpace_settles {α : Type} (k : Kernel) (pid : Pid) (act : Memory → α × Memory) :
    k.Settles (k.accessSpace pid act).state := by
  rcases accessSpace_cases k pid act with ⟨e, hrun, -⟩ | ⟨task, space, hfind, -, hrun⟩
  · rw [hrun]
    exact Settles.refl k
  · rw [hrun]
    exact Settles.of_spends (Scheduler.Spends.put hfind (Task.Spends.of_pace_eq rfl))

theorem commit_settles {result : Except KernelError Kernel}
    (h : ∀ after, result = .ok after → k.Settles after) : k.Settles (k.commit result).state := by
  cases result with
  | error e => exact Settles.refl k
  | ok after => exact h after rfl

/-- A request refills slices only in a selection, which comes last. -/
theorem serve_settles (h : k.sched.Proper) (request : Request) :
    k.Settles (k.serve request).state := by
  cases request with
  | createInit => exact createInit_settles h
  | spawn name parent pages => exact spawn_settles h name parent pages
  | fork parent => exact fork_settles h parent
  | schedule => exact Settles.schedule (Scheduler.Spends.refl k.sched)
  | timerTick => exact timerTick_settles k
  | sleep interruptible => exact sleep_settles k interruptible
  | wakeAll =>
      exact Settles.of_spends
        (Scheduler.Spends.mapTasks fun task => Task.Spends.of_pace_eq task.pace_wake)
  | exit pid code =>
      exact commit_settles fun after hrun => exit_settles (Scheduler.Spends.refl k.sched) hrun
  | wait parent => exact Settles.of_spends (wait_spends k parent)
  | waitOrBlock parent => exact waitOrBlock_settles k parent
  | kill pid signal => exact commit_settles fun after hrun => kill_settles hrun
  | exec pid => exact commit_settles fun after hrun => exec_settles hrun
  | access pid act =>
      exact accessSpace_settles k pid fun m => ((m.serve act).result, (m.serve act).state)
  | shutdown => exact Settles.of_spends (Scheduler.Spends.refl k.sched)

/-! ### The bound -/

/-- Everybody has the configured priority, and no slice is above the bound. -/
def Rationed (config : Config) (s : Scheduler) : Prop :=
  ∀ task ∈ s.tasks, task.priority = config.defaultPriority.toNat ∧
    task.counter ≤ config.sliceBound

variable {config : Config}

/-- Half of a slice and the priority on top stays within the bound. -/
theorem replenished_le {task : Task} (hpriority : task.priority = config.defaultPriority.toNat)
    (hcounter : task.counter ≤ config.sliceBound) :
    task.replenished.counter ≤ config.sliceBound := by
  show task.counter / 2 + task.priority ≤ config.sliceBound
  unfold Config.sliceBound at hcounter ⊢
  omega

theorem decayCounter_eq_replenished {task : Task} (hfault : config.fault? = none)
    (hpriority : task.priority = config.defaultPriority.toNat)
    (hcounter : task.counter ≤ config.sliceBound) : task.decayCounter = task.replenished := by
  have hbound := Config.sliceBound_lt hfault
  have hle : task.counter / 2 + task.priority ≤ config.sliceBound :=
    replenished_le hpriority hcounter
  have hword : task.counter / 2 + task.priority ≤ maxWord :=
    Nat.le_trans hle (Nat.le_pred_of_lt hbound)
  unfold Task.decayCounter Task.replenished
  rw [Nat.min_eq_right hword]

theorem Rationed.unclipped (h : Rationed config s) (hfault : config.fault? = none) :
    s.Unclipped config.sliceBound where
  counter_le := fun task hmem => (h task hmem).2
  decayCounter_eq := fun task hmem =>
    decayCounter_eq_replenished hfault (h task hmem).1 (h task hmem).2
  tasks_decay := by
    rw [Scheduler.tasks_decay]
    apply List.map_congr_left
    intro task hmem
    unfold Task.refill
    rw [decayCounter_eq_replenished hfault (h task hmem).1 (h task hmem).2]

theorem Rationed.of_spends {task later : Task}
    (h : task.priority = config.defaultPriority.toNat ∧ task.counter ≤ config.sliceBound)
    (hspends : task.Spends later) :
    later.priority = config.defaultPriority.toNat ∧ later.counter ≤ config.sliceBound :=
  ⟨hspends.priority_eq.trans h.1, Nat.le_trans hspends.counter_le h.2⟩

/-- The bound holds up to the selection that a request makes. -/
theorem Rationed.of_leadsTo (h : Rationed config k.sched) (hconfig : k.config = config)
    (hleads : k.LeadsTo s) : Rationed config s := by
  intro later hmem
  rcases hleads later hmem with ⟨task, htask, hspends⟩ | ⟨-, hslice⟩
  · exact Rationed.of_spends (h task htask) hspends
  · cases hslice with
    | configured hpriority hcounter =>
        rw [hconfig] at hpriority hcounter
        exact ⟨hpriority, hcounter ▸ Nat.le_max_left _ _⟩
    | inherited parent hparent hpriority hcounter =>
        exact ⟨hpriority.trans (h parent hparent).1, hcounter ▸ (h parent hparent).2⟩

/-- A refill keeps the bound that it starts from. -/
theorem Rationed.decay (h : Rationed config s) (hfault : config.fault? = none) :
    Rationed config s.decay := by
  intro later hmem
  rw [(h.unclipped hfault).tasks_decay] at hmem
  obtain ⟨task, htask, rfl⟩ := List.mem_map.mp hmem
  split
  · exact h task htask
  · exact ⟨(h task htask).1, replenished_le (h task htask).1 (h task htask).2⟩

theorem Rationed.schedule (h : Rationed config s) (hfault : config.fault? = none) :
    Rationed config s.schedule.2 := by
  rcases s.schedule_cases with ⟨pid, -, hrun⟩ | ⟨-, hrun⟩
  · rw [hrun]
    exact h
  · rw [hrun]
    exact h.decay hfault

theorem Rationed.settles (h : Rationed config k.sched) (hconfig : k.config = config)
    (hfault : config.fault? = none) (hsettles : k.Settles after) :
    Rationed config after.sched := by
  obtain ⟨s, hleads, hrun | hrun⟩ := hsettles
  · rw [hrun]
    exact h.of_leadsTo hconfig hleads
  · rw [hrun]
    exact (h.of_leadsTo hconfig hleads).schedule hfault

theorem rationed_serveAll (hfault : config.fault? = none) (requests : List Request) :
    Rationed config ((ofConfig config).serveAll requests).2.sched := by
  have hdispatched := ofConfig_dispatched config
  have hall : ∀ k : Kernel, Dispatched k ∧ k.config = config ∧ Rationed config k.sched →
      ∀ request, Dispatched (k.serve request).state ∧ (k.serve request).state.config = config ∧
        Rationed config (k.serve request).state.sched := by
    rintro k ⟨hk, hconfig, hrationed⟩ request
    refine ⟨serve_dispatched hk request, (serve_seating hk request).config_eq.trans hconfig, ?_⟩
    exact hrationed.settles hconfig hfault (serve_settles hk.proper request)
  have hempty : (ofConfig config).sched.tasks = [] := Scheduler.tasks_new _
  have hstart : Rationed config (ofConfig config).sched := by
    intro task hmem
    rw [hempty] at hmem
    cases hmem
  exact (serveAll_invariant
    (fun k => Dispatched k ∧ k.config = config ∧ Rationed config k.sched)
    (fun k request hk => hall k hk request) ⟨hdispatched, rfl, hstart⟩ requests).2.2

/-- In every state of every run no slice is above the bound, which fits into a word. A request
first comes to a table without giving anything to anybody and then makes a selection at most, and
in that table too every refill is exactly half of what was left and the priority on top. -/
theorem slices_unclipped {config : Config} {k : Kernel} (hboot : boot config = .ok k) :
    config.sliceBound < UInt32.size ∧
    ∀ requests, let last := (k.serveAll requests).2
      last.sched.Unclipped config.sliceBound ∧
      ∀ request, ∃ s : Scheduler, last.LeadsTo s ∧ s.Unclipped config.sliceBound ∧
        ((last.serve request).state.sched = s ∨
          (last.serve request).state.sched = s.schedule.2) := by
  obtain ⟨hfault, rfl⟩ := boot_eq_ok_iff.mp hboot
  refine ⟨Config.sliceBound_lt hfault, ?_⟩
  intro requests last
  have hdispatched : Dispatched last :=
    serveAll_dispatched (ofConfig_dispatched config) requests
  have hrationed : Rationed config last.sched := rationed_serveAll hfault requests
  have hconfig : last.config = config := config_serveAll (ofConfig_dispatched config) requests
  refine ⟨hrationed.unclipped hfault, ?_⟩
  intro request
  obtain ⟨s, hleads, hrun⟩ := serve_settles hdispatched.proper request
  exact ⟨s, hleads, (hrationed.of_leadsTo hconfig hleads).unclipped hfault, hrun⟩

/-- With the greatest priority that a configuration may have, a process that sleeps through many
refills comes to just below the end of a word. -/
theorem slices_unclipped_at_limit :
    let config : Config := { Config.small with
      defaultPriority := UInt32.ofNat maxTimeSlice, defaultCounter := 1 }
    let requests : List Request :=
      .spawn "a" 0 0 :: .schedule :: .sleep true :: List.replicate 40 .schedule
    boot config = .ok (ofConfig config) ∧
      ((ofConfig config).serveAll requests).2.sched.tasks.map Task.counter = [UInt32.size - 3] ∧
      ((ofConfig config).serveAll requests).2.sched.Unclipped config.sliceBound := by
  intro config requests
  have hboot : boot config = .ok (ofConfig config) := boot_eq_ok_iff.mpr ⟨by decide, rfl⟩
  exact ⟨hboot, by decide +kernel, ((slices_unclipped hboot).2 requests).1⟩

end Kernel

end Kernelet
