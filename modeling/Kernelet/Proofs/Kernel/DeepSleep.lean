import Kernelet.Proofs.Kernel.Asking
import Kernelet.Proofs.Kernel.Diagram

/-!
Who disturbs an uninterruptible sleep. It should last until everybody is woken, or the
sleeper is stopped or ends. But a parent that has once asked for a child is woken by the
end of one whatever it sleeps for by then, since the mark that its question has left is
not taken away when it goes on for another reason. `letsSleep_iff_of_boot` says that in
every run this is the one way in which a sleep is disturbed.
-/

namespace Kernelet

/-- At the end of a child, an uninterruptible sleep ends for who is marked as waiting. -/
theorem Task.state_notifyParent {task : Task} (h : task.state = .uninterruptibleWait) :
    (Kernel.notifyParent task).state =
      if task.waitingForChild = true then .runnable else .uninterruptibleWait := by
  have hlive : task.isZombie = false := Task.isZombie_of_state (by simp [h])
  have hsend : task.send .chld = { task with pending := task.pending.insert .chld } := by
    simp [Task.send, hlive, h]
  unfold Kernel.notifyParent
  rw [hsend]
  dsimp only
  split
  · simp [Task.wake, h, TaskState.isWaiting]
  · exact h

namespace Kernel

namespace Served

/-- Whoever is in an uninterruptible sleep sleeps on, unless everybody is woken, or the
sleeper is stopped or ends. -/
def LetsSleep (event : Served) : Prop :=
  ∀ pid task, event.before.find? pid = some task → task.state = .uninterruptibleWait →
    event.request = .wakeAll ∨ event.request = .kill pid .stop ∨
      (∃ code, event.Ends pid code) ∨
        ∃ after, event.after.find? pid = some after ∧ after.state = .uninterruptibleWait

/-- A process ends whose parent is in an uninterruptible sleep and is said to wait for a
child as well. -/
def Disturbs (event : Served) (waits : Pid → Prop) : Prop :=
  ∃ child parent code, event.Ends child.pid code ∧
    event.before.find? child.pid = some child ∧
    event.before.find? child.ppid = some parent ∧
    parent.state = .uninterruptibleWait ∧ waits child.ppid

end Served

variable {k after : Kernel} {request : Request} {pid q : Pid} {task other : Task} {code : Int}
  {event : Served}

theorem pid_notifyParent (task : Task) : (notifyParent task).pid = task.pid :=
  congrArg Kin.pid (kin_notifyParent task)

/-- What the end of a task does to another: a child of the task has a new parent, and
the parent of the task is told. -/
theorem find?_bury (hfind : k.find? pid = some task) (code : Int) (hne : q ≠ pid) :
    (k.bury task code).find? q = (k.find? q).map fun other =>
      let left := if other.ppid = task.pid then { other with ppid := heir task.pid } else other
      if left.pid = task.ppid then notifyParent left else left := by
  have hpid := Scheduler.pid_of_find? hfind
  subst hpid
  have hput : (k.sched.put (task.terminated code)).find? q = k.sched.find? q := by
    have hold : k.sched.find? (task.terminated code).pid = some task := hfind
    exact (Scheduler.find?_put hold q).trans (if_neg (Ne.symm hne))
  show ((reparent (k.sched.put (task.terminated code)) task.pid).update task.ppid
    notifyParent).find? q = _
  unfold Scheduler.update reparent
  rw [Scheduler.find?_mapTasks, Scheduler.find?_mapTasks, hput, Option.map_map]
  · rfl
  · intro other
    split <;> rfl
  · intro other
    split
    · exact pid_notifyParent other
    · rfl

/-- Only the parent of a process that exits is woken from an uninterruptible sleep, and
only if it is marked as waiting. -/
theorem exit_deep (hrun : k.exit pid code = .ok after) (hfind : k.find? pid = some task)
    (hother : k.find? q = some other) (hdeep : other.state = .uninterruptibleWait)
    (hne : q ≠ pid) :
    ∃ later, after.find? q = some later ∧ later.state =
      if q = task.ppid ∧ other.waitingForChild = true then .runnable
      else .uninterruptibleWait := by
  obtain ⟨ending, hending, -, rfl⟩ := exit_eq_ok hrun
  rw [hfind] at hending
  cases hending
  have hself := Scheduler.pid_of_find? hother
  have hbury := find?_bury hfind code hne
  rw [hother, Option.map_some] at hbury
  obtain ⟨later, hlater, hstays⟩ := (reselect_follows _ pid).exists_of_find? hbury
  refine ⟨later, hlater, hstays.arrow.trans ?_⟩
  have hleft : ∀ left : Task, left.pid = q → left.state = .uninterruptibleWait →
      left.waitingForChild = other.waitingForChild →
        (if left.pid = task.ppid then notifyParent left else left).state =
          if q = task.ppid ∧ other.waitingForChild = true then .runnable
          else .uninterruptibleWait := by
    rintro left rfl hstate hmark
    rw [ite_and, ← hmark]
    split
    · exact Task.state_notifyParent hstate
    · exact hstate
  apply hleft
  · split <;> exact hself
  · split <;> exact hdeep
  · split <;> rfl

theorem Arrow.of_deep {current : Option Pid} {state : TaskState}
    (h : Arrow request current pid .uninterruptibleWait state) :
    state = .uninterruptibleWait ∨ state = .runnable ∨ request = .kill pid .stop ∨
      state = .zombie := by
  cases h with
  | stays => exact Or.inl rfl
  | wakes _ => exact Or.inr (Or.inl rfl)
  | stops _ hrequest => exact Or.inr (Or.inr (Or.inl hrequest))
  | ends _ _ _ => exact Or.inr (Or.inr (Or.inr rfl))

theorem eq_or_eq_ok_of_commit {result : Except KernelError Kernel}
    (h : (k.commit result).state = after) : after = k ∨ result = .ok after := by
  cases result with
  | error e => exact Or.inl h.symm
  | ok served => exact Or.inr (congrArg Except.ok h)

/-- Whoever wakes from an uninterruptible sleep where another process is to end was
disturbed. -/
theorem not_letsSleep (pid : Pid) (hends : event.request.ends? = some q) (hne : q ≠ pid)
    (hbefore : (event.before.find? pid).map Task.state = some .uninterruptibleWait)
    (hafter : (event.after.find? pid).map Task.state = some .runnable) : ¬ event.LetsSleep := by
  intro hsleep
  obtain ⟨task, hfind, hdeep⟩ := Option.map_eq_some_iff.mp hbefore
  obtain ⟨turned, hturned, hwakes⟩ := Option.map_eq_some_iff.mp hafter
  rcases hsleep pid task hfind hdeep with hwake | hstop | ⟨code, hself⟩ | ⟨later, hlater, hstill⟩
  · rw [hwake] at hends
    cases hends
  · rw [hstop] at hends
    cases hends
  · rw [ends?_of_ends hself] at hends
    exact hne (Option.some.inj hends).symm
  · rw [hturned] at hlater
    cases hlater
    rw [hwakes] at hstill
    cases hstill

namespace Served.Sound

/-- A request that is to end a process ends it, perhaps after a signal, or it changes
nothing. -/
theorem exit_or_eq (h : event.Sound) (hrequest : event.request.ending? = some (pid, code)) :
    event.after = event.before ∨
      ∃ (mid : Kernel) (task sent : Task), mid.exit pid code = .ok event.after ∧
        event.before.find? pid = some task ∧ mid.find? pid = some sent ∧
        sent.kin = task.kin ∧ ∀ q, q ≠ pid → mid.find? q = event.before.find? q := by
  have hstate : (event.before.serve event.request).state = event.after :=
    congrArg Outcome.state h.serve_eq
  unfold Request.ending? at hrequest
  split at hrequest
  · rename_i hasked
    cases hrequest
    rw [hasked] at hstate
    rcases eq_or_eq_ok_of_commit hstate with hsame | hrun
    · exact Or.inl hsame
    · obtain ⟨task, hfind, -, -⟩ := exit_eq_ok hrun
      exact Or.inr ⟨event.before, task, task, hrun, hfind, hfind, rfl, fun _ _ => rfl⟩
  · rename_i hasked
    cases hrequest
    rw [hasked] at hstate
    rcases eq_or_eq_ok_of_commit hstate with hsame | hrun
    · exact Or.inl hsame
    · obtain ⟨task, hfind, ⟨-, hsame⟩ | ⟨-, ⟨-, hexit⟩ | ⟨hother, -⟩ | ⟨hother, -⟩⟩⟩ :=
        kill_eq_ok hrun
      · exact Or.inl hsame
      · have hkin := kin_send task .kill
        have hpid : (task.send .kill).pid = pid :=
          (congrArg Kin.pid hkin).trans (Scheduler.pid_of_find? hfind)
        have hold : event.before.sched.find? (task.send .kill).pid = some task :=
          hpid.symm ▸ hfind
        have hput := Scheduler.find?_put hold
        refine Or.inr ⟨_, task, task.send .kill, hexit, hfind, ?_, hkin, ?_⟩
        · exact (hput pid).trans (if_pos hpid)
        · intro q hne
          exact (hput q).trans (if_neg fun heq => hne (heq.symm.trans hpid))
      · cases hother
      · exact absurd rfl hother
  · cases hrequest

theorem ending?_of_ends (hends : event.Ends pid code) :
    event.request.ending? = some (pid, code) := by
  rcases hends.request with hexit | ⟨hkill, rfl⟩
  · rw [hexit]
    rfl
  · rw [hkill]
    rfl

/-- A request that is to end a process ends it or changes nothing. -/
theorem ends_or_eq (h : event.Sound) (hrequest : event.request.ending? = some (pid, code)) :
    event.after = event.before ∨ ∃ code, event.Ends pid code := by
  rcases h.exit_or_eq hrequest with hsame | ⟨mid, task, sent, hexit, hfind, hsent, hkin, -⟩
  · exact Or.inl hsame
  · right
    obtain ⟨ending, hending, hlive, -⟩ := exit_eq_ok hexit
    rw [hsent] at hending
    cases hending
    have hlives : event.before.Lives pid :=
      ⟨task, hfind, (congrArg Kin.zombie hkin).symm.trans hlive⟩
    obtain ⟨turned, hturned, hturns⟩ := (exit_follows hexit).exists_of_find? hsent
    apply h.ends_of_dead hlives hturned
    rcases hturns.arrow with ⟨-, -, hstate⟩ | ⟨hne, -⟩
    · simp [Task.isZombie, hstate]
    · exact absurd (Scheduler.pid_of_find? hsent) hne

/-- Of those in an uninterruptible sleep, the end of a process wakes its parent, if that
one waits. -/
theorem deep_of_ends (h : event.Sound) {child sleeper : Task}
    (hends : event.Ends child.pid code) (hchild : event.before.find? child.pid = some child)
    (hsleeper : event.before.find? q = some sleeper)
    (hdeep : sleeper.state = .uninterruptibleWait) (hne : q ≠ child.pid) :
    ∃ later, event.after.find? q = some later ∧ later.state =
      if q = child.ppid ∧ sleeper.waitingForChild = true then .runnable
      else .uninterruptibleWait := by
  rcases h.exit_or_eq (ending?_of_ends hends) with
    hsame | ⟨mid, task, sent, hexit, hfind, hsent, hkin, hothers⟩
  · have hlived := hends.lived
    rw [← hsame, hends.dead] at hlived
    cases hlived
  · rw [hchild] at hfind
    cases hfind
    have hppid : sent.ppid = child.ppid := congrArg Kin.ppid hkin
    rw [← hppid]
    exact exit_deep hexit hsent ((hothers q hne).trans hsleeper) hdeep hne

/-- Whoever is woken from an uninterruptible sleep where a process is to end is the parent
of that process, and waits. -/
theorem disturbs_of_wakes (h : event.Sound) {ending : Pid}
    (hrequest : event.request.ending? = some (ending, code)) {turned : Task}
    (hfind : event.before.find? pid = some task) (hdeep : task.state = .uninterruptibleWait)
    (hturned : event.after.find? pid = some turned) (hwakes : turned.state = .runnable) :
    event.Disturbs (Kin.Waits event.before.family) := by
  rcases h.ends_or_eq hrequest with hsame | ⟨code, hends⟩
  · rw [hsame, hfind] at hturned
    cases hturned
    rw [hdeep] at hwakes
    cases hwakes
  · obtain ⟨child, hchild, -⟩ := lives_iff_fate?.mpr hends.lived
    have hpid := Scheduler.pid_of_find? hchild
    subst hpid
    have hne : pid ≠ child.pid := by
      rintro rfl
      have hdead := hends.dead
      rw [Scheduler.fate?_of_find? hturned,
        Task.fate_of_live (Task.isZombie_of_state (by simp [hwakes]))] at hdead
      cases hdead
    obtain ⟨later, hlater, hstate⟩ := h.deep_of_ends hends hchild hfind hdeep hne
    rw [hturned] at hlater
    cases hlater
    rw [hwakes] at hstate
    split at hstate
    · rename_i hparent
      obtain ⟨rfl, hmark⟩ := hparent
      have hlive : task.isZombie = false := Task.isZombie_of_state (by simp [hdeep])
      have hwaits := (waits_iff_of_find? h.dispatched.proper hfind).mpr ⟨hlive, hmark⟩
      exact ⟨child, task, code, hends, hchild, hfind, hdeep, hwaits⟩
    · cases hstate

/-- Whoever is marked as waiting and sleeps, whatever for, is disturbed by the end of a
child, and nobody else ever is. -/
theorem letsSleep_iff (h : event.Sound) (hordered : Kin.Ordered event.before.family) :
    event.LetsSleep ↔ ¬ event.Disturbs (Kin.Waits event.before.family) := by
  have hproper := h.dispatched.proper
  constructor
  · rintro hsleep ⟨child, parent, code, hends, hchild, hparent, hdeep, hwaits⟩
    have hne : child.ppid ≠ child.pid := by
      have hmem : child.kin ∈ event.before.family :=
        List.mem_map_of_mem (Scheduler.mem_tasks_of_find? hchild)
      exact Nat.ne_of_lt (hordered.ppid_lt child.kin hmem)
    obtain ⟨later, hlater, hstate⟩ := h.deep_of_ends hends hchild hparent hdeep hne
    rw [if_pos ⟨rfl, ((waits_iff_of_find? hproper hparent).mp hwaits).2⟩] at hstate
    exact not_letsSleep child.ppid (ends?_of_ends hends) (Ne.symm hne)
      (Option.map_eq_some_iff.mpr ⟨parent, hparent, hdeep⟩)
      (Option.map_eq_some_iff.mpr ⟨later, hlater, hstate⟩) hsleep
  · intro hnone pid task hfind hdeep
    have hpid := Scheduler.pid_of_find? hfind
    have hlive : task.isZombie = false := Task.isZombie_of_state (by simp [hdeep])
    have hdiagram := serve_diagram hproper event.request
    rw [h.serve_eq] at hdiagram
    rcases hdiagram.moves pid task hfind with ⟨turned, hturned, hturns⟩ | ⟨-, hdead, -⟩
    · have hleads := hturns.arrow
      rw [hdeep, hpid] at hleads
      rcases hleads.arrow.of_deep with hstays | hwakes | hstop | hdead
      · exact Or.inr (Or.inr (Or.inr ⟨turned, hturned, hstays⟩))
      · rcases hleads.deep rfl hwakes with hall | hending
        · exact Or.inl hall
        · obtain ⟨⟨ending, code⟩, hending⟩ := Option.isSome_iff_exists.mp hending
          exact absurd (h.disturbs_of_wakes hending hfind hdeep hturned hwakes) hnone
      · exact Or.inr (Or.inl hstop)
      · have hends := h.ends_of_dead ⟨task, hfind, hlive⟩ hturned (by simp [Task.isZombie, hdead])
        exact Or.inr (Or.inr (Or.inl hends))
    · rw [hlive] at hdead
      cases hdead

end Served.Sound

/-- As long as no number comes round, a request lets everybody sleep on who is in an
uninterruptible sleep, exactly if it does not end a child of one of them that has asked
for a child before and has had no answer. -/
theorem letsSleep_iff_of_boot {config : Config} (hboot : boot config = .ok k)
    (requests : List Request) (hfit : (k.serveAll requests).2.NumbersFit) :
    ∀ past event rest, k.history requests = past ++ event :: rest →
      (event.LetsSleep ↔ ¬ event.Disturbs (Unanswered past)) := by
  obtain ⟨hfault, rfl⟩ := boot_eq_ok_iff.mp hboot
  intro past event rest hsplit
  obtain ⟨done, request, hprefix, rfl, rfl⟩ := history_split hsplit
  have hdone := numbersFit_of_prefix (ofConfig_dispatched config)
    ((List.prefix_append done [request]).trans hprefix) hfit
  have hdispatched := serveAll_dispatched (ofConfig_dispatched config) done
  have hevent : (((ofConfig config).serveAll done).2.served request).Sound := ⟨hdispatched, rfl⟩
  have hordered := ((ofConfig_settled hfault).serveAll hdone).ordered
  have hwaits : Kin.Waits ((ofConfig config).serveAll done).2.family =
      Unanswered ((ofConfig config).history done) := by
    funext pid
    exact propext (waits_iff_unanswered hfault done hdone)
  rw [hevent.letsSleep_iff hordered, ← hwaits]
  rfl

/-- The first process asks for a child, is woken by a signal, and goes to sleep for
another reason. The end of a process that is not its child does not disturb it. -/
theorem letsSleep_iff_grandchild_ends :
    let done : List Request :=
      [.createInit, .spawn "a" 1 0, .spawn "b" 2 0, .waitOrBlock 1, .kill 1 .hup, .schedule,
        .sleep false]
    let event := ((ofConfig Config.small).serveAll done).2.served (.exit 3 0)
    boot Config.small = .ok (ofConfig Config.small) ∧
    ((ofConfig Config.small).serveAll (done ++ [.exit 3 0])).2.NumbersFit ∧
    (ofConfig Config.small).history (done ++ [.exit 3 0]) =
      (ofConfig Config.small).history done ++ [event] ∧
    (event.before.find? 1).map Task.state = some .uninterruptibleWait ∧
    (event.after.find? 1).map Task.state = some .uninterruptibleWait ∧
      (event.LetsSleep ↔
        ¬ event.Disturbs (Unanswered ((ofConfig Config.small).history done))) := by
  intro done event
  have hboot : boot Config.small = .ok (ofConfig Config.small) :=
    boot_eq_ok_iff.mpr ⟨by decide, rfl⟩
  have hsplit : (ofConfig Config.small).history (done ++ [.exit 3 0]) =
      (ofConfig Config.small).history done ++ [event] :=
    history_concat (ofConfig Config.small) done (.exit 3 0)
  have hfit : ((ofConfig Config.small).serveAll (done ++ [.exit 3 0])).2.NumbersFit :=
    ofConfig_numbersFit Config.small (by decide)
  exact ⟨hboot, hfit, hsplit, by decide +kernel, by decide +kernel,
    letsSleep_iff_of_boot hboot _ hfit _ _ _ hsplit⟩

/-- The first process asks for a child, is woken by a signal, and goes to sleep for
another reason. The end of a child wakes it, although in the whole run nobody has asked
for a child but to sleep until there is one. -/
theorem not_letsSleep_of_old_question :
    let requests : List Request :=
      [.createInit, .spawn "a" 1 0, .spawn "b" 1 0, .waitOrBlock 1, .kill 1 .hup, .schedule,
        .sleep false, .exit 3 0]
    boot Config.small = .ok (ofConfig Config.small) ∧
    (∀ request ∈ requests, ∀ pid, request ≠ .wait pid) ∧
      ¬ ∀ event ∈ (ofConfig Config.small).history requests, event.LetsSleep := by
  intro requests
  refine ⟨boot_eq_ok_iff.mpr ⟨by decide, rfl⟩, by simp [requests], ?_⟩
  intro hlaw
  have hsplit := history_concat (ofConfig Config.small)
    [.createInit, .spawn "a" 1 0, .spawn "b" 1 0, .waitOrBlock 1, .kill 1 .hup, .schedule,
      .sleep false] (.exit 3 0)
  have hmem := List.mem_of_getLast? ((congrArg List.getLast? hsplit).trans List.getLast?_concat)
  refine not_letsSleep 1 rfl (by decide) ?_ ?_ (hlaw _ hmem)
  · decide +kernel
  · decide +kernel

end Kernel

end Kernelet
