import Kernelet.Proofs.Kernel.FirstProcess
import Kernelet.Proofs.Process.Slices

/-!
Whether the CPU idles while there is work. Every process has the priority that was
configured (`Levelled`), whether it was spawned or forked. If that is not 0, whoever is
runnable gets the CPU after some ticks. If it is 0, whoever has used up its slice never
gets another, and from then on it is never selected (`excluded_of_spent`). So there is
no idling while work exists in exactly those states in which nobody runnable has used
up a slice that is not refilled, and in all states exactly if the priority is not 0
(`worksOn_iff`).
-/

namespace Kernelet.Kernel

/-- Every task has the priority that was configured. -/
def Levelled (k : Kernel) : Prop :=
  ∀ task ∈ k.sched.tasks, task.priority = k.config.defaultPriority.toNat

/-- The process gets the CPU when a selection is made and time goes by. -/
def GetsTurn (k : Kernel) (pid : Pid) : Prop :=
  ∃ n, (k.serveAll (.schedule :: List.replicate n .timerTick)).2.current = some pid

/-- Whatever is asked from now on, the process is not selected, as long as no number
comes round, or at least its number is not given to another process. -/
def Excluded (k : Kernel) (pid : Pid) : Prop :=
  ∀ requests,
    (k.serveAll requests).2.NumbersFit ∨ .ok (.created pid) ∉ (k.serveAll requests).1 →
      (k.serveAll requests).2.current ≠ some pid

/-- A selection fails only if nobody is runnable, and whoever is runnable gets its
turn. -/
structure WorksOn (k : Kernel) : Prop where
  selects : k.schedule.1 = none → ∀ task ∈ k.sched.tasks, task.state ≠ .runnable
  getsTurn : ∀ task ∈ k.sched.tasks, task.state = .runnable → k.GetsTurn task.pid

variable {k : Kernel} {pid : Pid} {task : Task}

theorem Levelled.serve (h : k.Levelled) (hdispatched : Dispatched k) (request : Request) :
    (k.serve request).state.Levelled := by
  have hseating := serve_seating hdispatched request
  unfold Levelled
  rw [hseating.config_eq]
  refine hseating.forall_tasks (fun task => task.priority = k.config.defaultPriority.toNat) ?_ ?_ ?_
  · intro task after hpriority hstep
    exact hstep.priority_eq.trans hpriority
  · intro task _ hslice
    cases hslice with
    | configured hpriority _ => exact hpriority
    | inherited parent hmem hpriority _ => exact hpriority.trans (h parent hmem)
  · exact h

theorem levelled_serveAll (hdispatched : Dispatched k) (h : k.Levelled)
    (requests : List Request) : (k.serveAll requests).2.Levelled := by
  induction requests generalizing k with
  | nil => exact h
  | cons request rest ih =>
      exact ih (serve_dispatched hdispatched request) (h.serve hdispatched request)

theorem ofConfig_levelled (config : Config) : (ofConfig config).Levelled := by
  intro task hmem
  have hempty : (ofConfig config).sched.tasks = [] := Scheduler.tasks_new _
  rw [hempty] at hmem
  cases hmem

theorem config_serveAll (h : Dispatched k) (requests : List Request) :
    (k.serveAll requests).2.config = k.config := by
  induction requests generalizing k with
  | nil => rfl
  | cons request rest ih =>
      exact (ih (serve_dispatched h request)).trans (serve_seating h request).config_eq

theorem sched_serveAll_ticks (k : Kernel) (n : Nat) :
    (k.serveAll (List.replicate n .timerTick)).2.sched = k.sched.ticks n := by
  induction n generalizing k with
  | zero => rfl
  | succ n ih =>
      have hrest := ih k.timerTick.2
      rw [sched_timerTick] at hrest
      exact hrest

theorem sched_schedule_ticks (k : Kernel) (n : Nat) :
    (k.serveAll (.schedule :: List.replicate n .timerTick)).2.sched =
      k.sched.schedule.2.ticks n :=
  sched_serveAll_ticks k.schedule.2 n

/-- Who is hopeful gets its turn. -/
theorem getsTurn_of_isHopeful (h : k.sched.Proper) (hfind : k.find? pid = some task)
    (hhope : task.IsHopeful) : k.GetsTurn pid := by
  have hlater : ∃ later, k.sched.schedule.2.find? pid = some later ∧ later.IsHopeful := by
    rcases Scheduler.find?_schedule hfind with ⟨hkept, -⟩ | ⟨hspent, hrefilled⟩
    · exact ⟨task, hkept, hhope⟩
    · exact ⟨task.refill, hrefilled,
        Task.IsHopeful.of_isRunnable ((Task.isRunnable_refill_iff hspent).mpr hhope)⟩
  obtain ⟨later, hthere, hhope⟩ := hlater
  obtain ⟨n, hn⟩ := Scheduler.exists_ticks_current (Scheduler.Staffed.schedule h) hthere hhope
  refine ⟨n, ?_⟩
  unfold current
  rw [sched_schedule_ticks]
  exact hn

/-- Process `pid` has no slice, and nobody will ever give it one. -/
structure Spent (k : Kernel) (pid : Pid) : Prop where
  dispatched : Dispatched k
  levelled : k.Levelled
  flat : k.config.defaultPriority.toNat = 0
  created : pid < k.sched.nextPid
  counter_eq : ∀ task ∈ k.sched.tasks, task.pid = pid → task.counter = 0

theorem Spent.serve (h : Spent k pid) {request : Request}
    (hother : (k.serve request).result ≠ .ok (.created pid)) :
    Spent (k.serve request).state pid := by
  have hseating := serve_seating h.dispatched request
  refine ⟨serve_dispatched h.dispatched request, h.levelled.serve h.dispatched request, ?_, ?_, ?_⟩
  · rw [hseating.config_eq]
    exact h.flat
  · exact Nat.lt_of_lt_of_le h.created (serve_course h.dispatched.proper request).nextPid_le
  · -- Without a priority the slice stays empty even when it is refilled.
    have hall := hseating.forall_tasks
      (fun task => task.priority = 0 ∧ (task.pid = pid → task.counter = 0)) ?_ ?_ ?_
    · exact fun task hmem => (hall task hmem).2
    · rintro task after ⟨hpriority, hcounter⟩ hstep
      refine ⟨hstep.priority_eq.trans hpriority, ?_⟩
      intro hpid
      have hspent := hcounter (hstep.pid_eq.symm.trans hpid)
      have hslice := hstep.slice
      generalize after.counter = counter at hslice
      cases hslice with
      | kept => exact hspent
      | ticked => rw [hspent]
      | refilled _ =>
          show min maxWord (task.counter / 2 + task.priority) = 0
          rw [hspent, hpriority]
          decide
      | ended => rfl
    · intro task hnew hslice
      refine ⟨?_, fun hpid => absurd (hpid ▸ hnew) hother⟩
      cases hslice with
      | configured hpriority _ => exact hpriority.trans h.flat
      | inherited parent hmem hpriority _ =>
          exact hpriority.trans ((h.levelled parent hmem).trans h.flat)
    · intro task hmem
      exact ⟨(h.levelled task hmem).trans h.flat, h.counter_eq task hmem⟩

/-- As long as no number comes round, nobody else is given the number. -/
theorem Spent.ne_created (h : Spent k pid) {request : Request}
    (hfit : (k.serve request).state.NumbersFit) :
    (k.serve request).result ≠ .ok (.created pid) := by
  intro hresult
  have hcourse := serve_course h.dispatched.proper request
  rw [hresult] at hcourse
  obtain ⟨hpid, -, hnext⟩ := hcourse.of_created
  exact ne_nextNumber h.created hnext hfit hpid

theorem Spent.serveAll (h : Spent k pid) {requests : List Request}
    (hother : (k.serveAll requests).2.NumbersFit ∨ .ok (.created pid) ∉ (k.serveAll requests).1) :
    Spent (k.serveAll requests).2 pid := by
  induction requests generalizing k with
  | nil => exact h
  | cons request rest ih =>
      have hafter := serve_dispatched h.dispatched request
      rcases hother with hfit | hnone
      · have hnow := h.serve (h.ne_created (numbersFit_of_serveAll hafter hfit))
        exact ih hnow (Or.inl hfit)
      · obtain ⟨hfirst, hrest⟩ := List.ne_and_not_mem_of_not_mem_cons hnone
        exact ih (h.serve (Ne.symm hfirst)) (Or.inr hrest)

/-- Who has used up its slice is never selected again where nobody has a priority. -/
theorem Spent.excluded (h : Spent k pid) : k.Excluded pid := by
  intro requests hother hcurrent
  have hlast := h.serveAll hother
  obtain ⟨task, hmem, hpid, hruns⟩ := hlast.dispatched.canRun pid hcurrent (by simp)
  have hleft := (Task.isRunnable_iff.mp hruns).2
  rw [hlast.counter_eq task hmem hpid] at hleft
  exact Nat.lt_irrefl 0 hleft

/-- Who has no slice is excluded where nobody has a priority. -/
theorem Levelled.excluded (h : k.Levelled) (hdispatched : Dispatched k)
    (hmem : task ∈ k.sched.tasks) (hspent : task.counter = 0)
    (hflat : k.config.defaultPriority.toNat = 0) : k.Excluded task.pid := by
  have hproper : k.sched.Proper := hdispatched.proper
  refine Spent.excluded ⟨hdispatched, h, hflat, hproper.pid_lt task hmem, ?_⟩
  intro other hother hpid
  rw [Scheduler.eq_of_pid_eq hproper hmem hother hpid]
  exact hspent

theorem created_notMem_ticks (k : Kernel) (n : Nat) :
    .ok (.created pid) ∉ (k.serveAll (List.replicate n .timerTick)).1 := by
  induction n generalizing k with
  | zero => exact List.not_mem_nil
  | succ n ih =>
      exact List.not_mem_cons_of_ne_of_not_mem (by simp) (ih (k.serve .timerTick).state)

theorem not_getsTurn (h : k.Excluded pid) : ¬ k.GetsTurn pid := by
  rintro ⟨n, hcurrent⟩
  refine h _ (Or.inr ?_) hcurrent
  exact List.not_mem_cons_of_ne_of_not_mem (by simp)
    (created_notMem_ticks (k.serve .schedule).state n)

/-- Work goes on exactly where nobody runnable has used up a slice for good. -/
theorem Levelled.worksOn_iff_counter (h : k.Levelled) (hdispatched : Dispatched k) :
    k.WorksOn ↔ ∀ task ∈ k.sched.tasks, task.state = .runnable →
      task.counter ≠ 0 ∨ k.config.defaultPriority.toNat ≠ 0 := by
  have hproper : k.sched.Proper := hdispatched.proper
  constructor
  · intro hworks task hmem hstate
    by_contra hspent
    rw [not_or, not_not, not_not] at hspent
    obtain ⟨hcounter, hflat⟩ := hspent
    exact not_getsTurn (h.excluded hdispatched hmem hcounter hflat)
      (hworks.getsTurn task hmem hstate)
  · intro hleft
    have hhopeful : ∀ task ∈ k.sched.tasks, task.state = .runnable → task.IsHopeful := by
      intro task hmem hstate
      refine ⟨hstate, (hleft task hmem hstate).imp Nat.pos_of_ne_zero ?_⟩
      rw [h task hmem]
      exact Nat.pos_of_ne_zero
    refine ⟨?_, ?_⟩
    · intro hnone task hmem hstate
      exact Scheduler.schedule_eq_none_iff.mp hnone task hmem (hhopeful task hmem hstate)
    · intro task hmem hstate
      exact getsTurn_of_isHopeful hproper ((Scheduler.find?_eq_some_iff hproper).mpr ⟨hmem, rfl⟩)
        (hhopeful task hmem hstate)

/-- A process without pages is spawned wherever there is a slot. -/
theorem exists_runnable_of_spawn (h : k.sched.Proper) (hroom : none ∈ k.sched.slots)
    (hfit : k.NumbersFit) (name : String) :
    ∃ task ∈ (k.spawn name 0 0).state.sched.tasks, task.state = .runnable := by
  rcases spawn_cases k name 0 0 with
    ⟨-, hparent, -⟩ | ⟨-, m, ⟨e, himage, -⟩ | ⟨-, hrun⟩⟩
  · exact absurd rfl hparent
  · have hbuilt : ∃ m, k.newImage 0 = ⟨.ok (), m⟩ := ⟨_, rfl⟩
    obtain ⟨other, hother⟩ := hbuilt
    rw [hother] at himage
    cases himage
  · rw [hrun]
    exact ⟨_, mem_tasks_enlist (k := { k with pool := m.pool }) h rfl hroom hfit, rfl⟩

/-- Where nobody has a priority the work that there is comes to a halt. -/
theorem Levelled.exists_halt (h : k.Levelled) (hproper : k.sched.Proper)
    (hflat : k.config.defaultPriority.toNat = 0) (hmem : task ∈ k.sched.tasks)
    (hstate : task.state = .runnable) :
    ∃ n, ∃ later ∈ (k.serveAll (.schedule :: List.replicate n .timerTick)).2.sched.tasks,
      later.state = .runnable ∧ later.counter = 0 := by
  have hzero : k.sched.Flat := fun task hmem => (h task hmem).trans hflat
  have hstaffed := Scheduler.Staffed.schedule hproper
  obtain ⟨n, hidle⟩ := Scheduler.exists_ticks_idle hstaffed
    (hzero.of_paced (Scheduler.Paced.schedule k.sched))
  have hfollows := (Scheduler.Follows.schedule k.sched).stays
    (Scheduler.follows_ticks k.sched.schedule.2 n)
  obtain ⟨later, hlater, hturns⟩ := hfollows.exists_of_find?
    ((Scheduler.find?_eq_some_iff hproper).mpr ⟨hmem, rfl⟩)
  have hthere := Scheduler.mem_tasks_of_find? hlater
  have hsame : later.state = .runnable := hturns.arrow.trans hstate
  refine ⟨n, later, ?_, hsame, ?_⟩
  · rw [sched_schedule_ticks]
    exact hthere
  · have hnobody := (hstaffed.ticks n).idle hidle later hthere
    by_contra hleft
    exact hnobody ⟨hsame, Or.inl (Nat.pos_of_ne_zero hleft)⟩

/-- In every state of every run a selection fails only if nobody is runnable, and
whoever is runnable gets its turn, exactly if nobody runnable has used up its slice
while the configured priority is 0. Who has is never selected again, as long as its
number is not given to another. The law holds in all states of all runs exactly if the
configured priority is not 0. -/
theorem worksOn_iff {config : Config} {k : Kernel} (hboot : boot config = .ok k) :
    (∀ requests, let last := (k.serveAll requests).2
      (last.WorksOn ↔ ∀ task ∈ last.sched.tasks, task.state = .runnable →
        task.counter ≠ 0 ∨ config.defaultPriority.toNat ≠ 0) ∧
      (∀ task ∈ last.sched.tasks, task.counter = 0 → config.defaultPriority.toNat = 0 →
        last.Excluded task.pid)) ∧
    ((∀ requests, (k.serveAll requests).2.WorksOn) ↔ config.defaultPriority.toNat ≠ 0) := by
  obtain ⟨hfault, rfl⟩ := boot_eq_ok_iff.mp hboot
  have hdispatched := serveAll_dispatched (ofConfig_dispatched config)
  have hlevelled := levelled_serveAll (ofConfig_dispatched config) (ofConfig_levelled config)
  have hconfig : ∀ requests, ((ofConfig config).serveAll requests).2.config = config :=
    config_serveAll (ofConfig_dispatched config)
  have hstate : ∀ requests, ((ofConfig config).serveAll requests).2.WorksOn ↔
      ∀ task ∈ ((ofConfig config).serveAll requests).2.sched.tasks, task.state = .runnable →
        task.counter ≠ 0 ∨ config.defaultPriority.toNat ≠ 0 := by
    intro requests
    have hworks := (hlevelled requests).worksOn_iff_counter (hdispatched requests)
    rw [hconfig requests] at hworks
    exact hworks
  refine ⟨fun requests => ⟨hstate requests, ?_⟩, ?_, ?_⟩
  · intro task hmem hspent hflat
    apply (hlevelled requests).excluded (hdispatched requests) hmem hspent
    rw [hconfig requests]
    exact hflat
  · intro hlaw hflat
    obtain ⟨task, hmem, hruns⟩ := exists_runnable_of_spawn (ofConfig_dispatched config).proper
      (none_mem_slots (ofConfig_dispatched config).proper (ofConfig_founded hfault).roomy
        (Nat.le_refl 1)) (show 1 < UInt32.size by decide) "a"
    have hspawned : ((ofConfig config).serveAll [.spawn "a" 0 0]).2.config.defaultPriority.toNat =
        0 := by
      rw [hconfig]
      exact hflat
    obtain ⟨n, later, hlater, hstill, hspent⟩ := (hlevelled [.spawn "a" 0 0]).exists_halt
      (hdispatched [.spawn "a" 0 0]).proper hspawned hmem hruns
    have hleft := (hstate (.spawn "a" 0 0 :: .schedule :: List.replicate n .timerTick)).mp
      (hlaw _) later hlater hstill
    exact hleft.elim (fun hmore => hmore hspent) (fun hpriority => hpriority hflat)
  · intro hpriority requests
    exact (hstate requests).mpr fun _ _ _ => Or.inr hpriority

/-- A child that was forked with the last tick of a slice gets its turn after a refill. -/
theorem worksOn_after_refill :
    let config : Config := { Config.small with defaultPriority := 2, defaultCounter := 1 }
    let last := ((ofConfig config).serveAll
      [.spawn "a" 0 0, .fork 1, .schedule, .timerTick, .timerTick]).2
    boot config = .ok (ofConfig config) ∧ last.current = some 1 ∧ last.WorksOn := by
  intro config last
  have hboot : boot config = .ok (ofConfig config) := boot_eq_ok_iff.mpr ⟨by decide, rfl⟩
  refine ⟨hboot, by decide +kernel, ?_⟩
  exact (worksOn_iff hboot).2.mpr (by decide) _

/-- Priority 0 is no fault in a configuration. With a slice of one tick the first
process runs for one tick, and then no selection finds it, although it is runnable. -/
theorem not_worksOn_of_priority_zero :
    let config : Config := { Config.small with defaultPriority := 0, defaultCounter := 1 }
    let last := ((ofConfig config).serveAll [.createInit, .schedule, .timerTick]).2
    boot config = .ok (ofConfig config) ∧
      (last.find? initPid).map (fun task => (task.state, task.counter)) = some (.runnable, 0) ∧
      last.schedule.1 = none ∧ ¬ last.WorksOn := by
  intro config last
  have htask : (last.find? initPid).map (fun task => (task.state, task.counter)) =
      some (.runnable, 0) := by
    decide +kernel
  have hidle : last.schedule.1 = none := by
    decide +kernel
  refine ⟨boot_eq_ok_iff.mpr ⟨by decide, rfl⟩, htask, hidle, ?_⟩
  intro hworks
  obtain ⟨task, hfind, hview⟩ := Option.map_eq_some_iff.mp htask
  exact hworks.selects hidle task (Scheduler.mem_tasks_of_find? hfind) (congrArg Prod.fst hview)

end Kernelet.Kernel
