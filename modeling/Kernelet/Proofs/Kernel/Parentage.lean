import Kernelet.Proofs.Kernel.Course
import Kernelet.Proofs.Kernel.Waiting
import Kernelet.Proofs.Process.Parentage

/-!
Whether every process has no parent or one that can reap it (`ParentsLive`). Two
kinds of requests spoil this. A spawn takes a zombie for a parent, which a fork
refuses. And a process that ends leaves its children to the first process also
when that one has terminated itself. Nothing else does, so that the parent links
of a whole run are sound exactly if it has no request of these kinds
(`parentsLive_iff`).
-/

namespace Kernelet.Kernel

/-- Process `pid` is in the table and has not terminated. -/
def Lives (k : Kernel) (pid : Pid) : Prop :=
  ∃ task, k.find? pid = some task ∧ task.isZombie = false

/-- Every task in the table has no parent, or one that lives. -/
def ParentsLive (k : Kernel) : Prop :=
  ∀ child ∈ k.sched.tasks, child.ppid = 0 ∨ k.Lives child.ppid

/-- The request creates a process under a parent that has terminated. -/
def SpawnsUnderZombie (k : Kernel) (request : Request) : Prop :=
  ∃ name parent pages new, request = .spawn name parent pages ∧
    (k.serve request).result = .ok (.created new) ∧
    ∃ task, k.find? parent = some task ∧ task.isZombie = true

/-- The request ends a process other than the first, which has children, and the
first process does not live to take them over. -/
def LeavesNoHeir (k : Kernel) (request : Request) : Prop :=
  ∃ pid, request.ends? = some pid ∧ pid ≠ initPid ∧ k.Lives pid ∧
    k.sched.childrenOf pid ≠ [] ∧ ¬ k.Lives initPid

variable {k after : Kernel} {request : Request} {pid new : Pid}

section Family

theorem lives_iff_alive (h : k.sched.Proper) : k.Lives pid ↔ Kin.Alive k.family pid := by
  constructor
  · rintro ⟨task, hfind, hlive⟩
    exact ⟨task.kin, List.mem_map_of_mem (Scheduler.mem_tasks_of_find? hfind),
      Scheduler.pid_of_find? hfind, hlive⟩
  · rintro ⟨member, hmem, hpid, hlive⟩
    obtain ⟨task, htask, rfl⟩ := List.mem_map.mp hmem
    exact ⟨task, (Scheduler.find?_eq_some_iff h).mpr ⟨htask, hpid⟩, hlive⟩

theorem parentsLive_iff_parented (h : k.sched.Proper) :
    k.ParentsLive ↔ Kin.Parented k.family := by
  unfold ParentsLive Kin.Parented Kin.Linked family
  rw [List.forall_mem_map]
  exact forall₂_congr fun child _ => or_congr_right (lives_iff_alive h)

end Family

section Births

/-- A task that finds a place in the table joins the family. -/
theorem enlist_family {task : Task} (hrun : k.enlisted task = .ok new) :
    (k.enlist task).family.Perm (task.kin :: k.family) := by
  rcases k.enlist_cases task with ⟨sched, hadd, -, hafter⟩ | ⟨e, hresult, -⟩
  · rw [hafter]
    exact (Scheduler.tasks_add_perm hadd).map Task.kin
  · rw [hresult] at hrun
    cases hrun

/-- A process is spawned under the parent that was named, if that is none or in
the table. -/
theorem spawn_family {name : String} {parent : Pid} {pages : Nat}
    (hrun : (k.spawn name parent pages).result = .ok new) :
    (parent = 0 ∨ k.sched.contains parent = true) ∧
      ∃ child : Kin, child.ppid = parent ∧
        (k.spawn name parent pages).state.family.Perm (child :: k.family) := by
  rcases spawn_cases k name parent pages with
    ⟨⟨e, hspawn⟩, -⟩ | ⟨hparent, m, ⟨e, -, hspawn⟩ | ⟨-, hspawn⟩⟩
  · rw [hspawn] at hrun
    cases hrun
  · rw [hspawn] at hrun
    cases hrun
  · rw [hspawn] at hrun ⊢
    exact ⟨hparent, _, rfl, enlist_family hrun⟩

theorem createInit_family (hrun : k.createInit.result = .ok new) :
    ∃ child : Kin, child.ppid = 0 ∧ k.createInit.state.family.Perm (child :: k.family) := by
  unfold createInit at hrun ⊢
  split at hrun
  · cases hrun
  · rename_i hfree
    rw [if_neg hfree]
    exact (spawn_family hrun).2

/-- A process is forked from a parent that lives. -/
theorem fork_family (h : k.sched.Proper) {parent : Pid}
    (hrun : (k.fork parent).result = .ok new) :
    k.Lives parent ∧ ∃ child : Kin, child.ppid = parent ∧
      (k.fork parent).state.family.Perm (child :: k.family) := by
  rcases fork_cases k parent with ⟨⟨e, hfork⟩, -⟩ | ⟨task, space, m, hfind, hlive, -, hcase⟩
  · rw [hfork] at hrun
    cases hrun
  · have hput : ({ k with
        sched := k.sched.put { task with space := some m.space }
        pool := m.pool } : Kernel).family = k.family := family_put h hfind rfl
    rcases hcase with ⟨e, -, hfork⟩ | ⟨child, -, hfork⟩
    · rw [hfork] at hrun
      cases hrun
    · rw [hfork] at hrun ⊢
      rw [← hput]
      exact ⟨⟨task, hfind, hlive⟩, _, Scheduler.pid_of_find? hfind, enlist_family hrun⟩

theorem of_map_created {α : Type} {result : Except KernelError α} {answer : α → Reply}
    (h : result.map answer = .ok (.created new)) :
    ∃ a, result = .ok a ∧ answer a = .created new := by
  cases result with
  | error e => cases h
  | ok a => exact ⟨a, rfl, Except.ok.inj h⟩

theorem commit_ne_created (k : Kernel) (result : Except KernelError Kernel) :
    (k.commit result).result ≠ .ok (.created new) := by
  intro h
  cases result with
  | error e => cases h
  | ok after => cases h

theorem access_ne_created (k : Kernel) (pid : Pid) (act : Memory.Request) :
    (k.access pid act).result ≠ .ok (.created new) := by
  intro h
  rcases access_cases k pid act with ⟨e, hrun, -⟩ | ⟨task, space, -, -, hrun⟩
  · rw [hrun] at h
    cases h
  · rw [hrun] at h
    obtain ⟨reply, -, hreply⟩ := of_map_created h
    cases hreply

/-- A request that creates a process adds a child to the family. Its parent link
is sound unless it was spawned under a zombie. -/
theorem serve_created (h : k.sched.Proper) (hordered : Kin.Ordered k.family)
    (hrun : (k.serve request).result = .ok (.created new)) :
    ∃ child : Kin, (k.serve request).state.family.Perm (child :: k.family) ∧
      (Kin.Linked k.family child.ppid ↔ ¬ k.SpawnsUnderZombie request) := by
  cases request with
  | createInit =>
      obtain ⟨_, hinit, -⟩ := of_map_created hrun
      obtain ⟨child, hchild, hfamily⟩ := createInit_family hinit
      refine ⟨child, hfamily, iff_of_true (Or.inl hchild) ?_⟩
      rintro ⟨_, _, _, _, hrequest, _⟩
      cases hrequest
  | spawn name parent pages =>
      obtain ⟨_, hspawn, -⟩ := of_map_created hrun
      obtain ⟨hparent, child, rfl, hfamily⟩ := spawn_family hspawn
      refine ⟨child, hfamily, ?_⟩
      constructor
      · rintro hlinked ⟨_, _, _, _, ⟨rfl⟩, -, task, hfind, hdead⟩
        have hmem : task.kin ∈ k.family :=
          List.mem_map_of_mem (Scheduler.mem_tasks_of_find? hfind)
        have hpid : task.kin.pid = child.ppid := Scheduler.pid_of_find? hfind
        rw [← hpid] at hlinked
        exact hordered.not_linked hmem hdead hlinked
      · intro hlive
        rcases hparent with hnone | hthere
        · exact Or.inl hnone
        · right
          obtain ⟨task, hfind⟩ := Option.isSome_iff_exists.mp hthere
          apply (lives_iff_alive h).mp
          refine ⟨task, hfind, ?_⟩
          by_contra hzombie
          rw [Bool.not_eq_false] at hzombie
          exact hlive ⟨name, child.ppid, pages, new, rfl, hrun, task, hfind, hzombie⟩
  | fork parent =>
      obtain ⟨_, hfork, -⟩ := of_map_created hrun
      obtain ⟨hlive, child, rfl, hfamily⟩ := fork_family h hfork
      refine ⟨child, hfamily, iff_of_true (Or.inr ((lives_iff_alive h).mp hlive)) ?_⟩
      rintro ⟨_, _, _, _, hrequest, _⟩
      cases hrequest
  | schedule => cases hrun
  | timerTick => cases hrun
  | wakeAll => cases hrun
  | shutdown => cases hrun
  | sleep interruptible =>
      obtain ⟨_, -, hanswer⟩ := of_map_created hrun
      cases hanswer
  | wait parent =>
      obtain ⟨_, -, hanswer⟩ := of_map_created hrun
      cases hanswer
  | waitOrBlock parent =>
      obtain ⟨reaped, -, hanswer⟩ := of_map_created hrun
      cases reaped with
      | none => cases hanswer
      | some _ => cases hanswer
  | exit pid code => exact absurd hrun (commit_ne_created k _)
  | kill pid signal => exact absurd hrun (commit_ne_created k _)
  | exec pid => exact absurd hrun (commit_ne_created k _)
  | access pid act => exact absurd hrun (access_ne_created k pid act)

/-- Nobody is created and ended at once. -/
theorem ends?_of_created (hrun : (k.serve request).result = .ok (.created new)) :
    request.ends? = none := by
  cases request with
  | exit pid code => exact absurd hrun (commit_ne_created k _)
  | kill pid signal => exact absurd hrun (commit_ne_created k _)
  | _ => rfl

/-- Where nothing is created nobody is new. -/
theorem Course.fate?_eq_none {result : Except KernelError Reply}
    (h : Course k request result after) (hresult : ∀ new, result ≠ .ok (.created new))
    (hnone : k.sched.fate? pid = none) : after.sched.fate? pid = none := by
  cases h with
  | quiet _ hfate _ => rw [hfate, hnone]
  | created hcreated _ _ _ => exact absurd hcreated (hresult _)
  | ended other code _ _ hlive hfate _ =>
      have hother : other ≠ pid := by
        rintro rfl
        rw [hnone] at hlive
        cases hlive
      rw [hfate, if_neg hother, hnone]
  | reaped child code _ _ _ _ _ hfate _ =>
      rw [hfate, hnone]
      exact ite_self none

theorem serve_old (h : Dispatched k)
    (hresult : ∀ new, (k.serve request).result ≠ .ok (.created new)) {member : Kin}
    (hmem : member ∈ (k.serve request).state.family) :
    ∃ old ∈ k.family, old.pid = member.pid := by
  obtain ⟨task, htask, rfl⟩ := List.mem_map.mp hmem
  cases hfind : k.find? task.pid with
  | some old =>
      exact ⟨old.kin, List.mem_map_of_mem (Scheduler.mem_tasks_of_find? hfind),
        Scheduler.pid_of_find? hfind⟩
  | none =>
      have hfate := (serve_course h.proper request).fate?_eq_none hresult
        (Scheduler.fate?_eq_none_iff.mpr hfind)
      have hgone := Scheduler.fate?_eq_none_iff.mp hfate
      exact absurd rfl (Scheduler.find?_eq_none_iff.mp hgone task htask)

end Births

section Runs

variable {total reserved : Nat}

theorem leavesNoHeir_iff (h : k.sched.Proper) {ending : Kin} (hmem : ending ∈ k.family)
    (hends : request.ends? = some ending.pid) (hlive : ending.zombie = false) :
    k.LeavesNoHeir request ↔ ending.pid ≠ initPid ∧ Kin.HasChild k.family ending.pid ∧
      ¬ Kin.Alive k.family initPid := by
  constructor
  · rintro ⟨pid, hpid, hinit, -, hchild, hheir⟩
    rw [hends] at hpid
    cases hpid
    refine ⟨hinit, childrenOf_ne_nil_iff.mp hchild, ?_⟩
    exact fun halive => hheir ((lives_iff_alive h).mpr halive)
  · rintro ⟨hinit, hchild, hheir⟩
    refine ⟨ending.pid, hends, hinit, ?_, childrenOf_ne_nil_iff.mpr hchild, ?_⟩
    · exact (lives_iff_alive h).mpr ⟨ending, hmem, rfl, hlive⟩
    · exact fun hlives => hheir ((lives_iff_alive h).mp hlives)

/-- A process that does not live is not ended, whatever it would leave behind. -/
theorem not_leavesNoHeir (h : k.sched.Proper)
    (hdead : ∀ member ∈ k.family, request.ends? = some member.pid → member.zombie = true) :
    ¬ k.LeavesNoHeir request := by
  rintro ⟨pid, hends, -, hlives, -⟩
  obtain ⟨member, hmem, rfl, hlive⟩ := (lives_iff_alive h).mp hlives
  rw [hdead member hmem hends] at hlive
  cases hlive

/-- A request spoils parent links exactly if it is of one of the two kinds. -/
theorem serve_parentsLive_iff (h : Settled total reserved k) (hdispatched : Dispatched k)
    (hparents : k.ParentsLive) (request : Request)
    (hfit : (k.serve request).state.NumbersFit) :
    (k.serve request).state.ParentsLive ↔
      ¬ k.SpawnsUnderZombie request ∧ ¬ k.LeavesNoHeir request := by
  have hproper := hdispatched.proper
  have hparented := (parentsLive_iff_parented hproper).mp hparents
  rw [parentsLive_iff_parented (serve_dispatched hdispatched request).proper]
  -- Where a process is created its link is the only one that is new.
  by_cases hnew : ∃ new, (k.serve request).result = .ok (.created new)
  · obtain ⟨new, hrun⟩ := hnew
    obtain ⟨child, hfamily, hlink⟩ := serve_created hproper h.ordered hrun
    have hordered := (h.serve hfit).ordered
    rw [Kin.parented_cons_iff hparented hordered hfamily, hlink, iff_self_and]
    rintro - ⟨pid, hends, -⟩
    rw [ends?_of_created hrun] at hends
    cases hends
  · have hspawns : ¬ k.SpawnsUnderZombie request := by
      rintro ⟨_, _, _, new, -, hrun, -⟩
      exact hnew ⟨new, hrun⟩
    rcases serve_family h.fits hfit with ⟨ending, hmem, hends, hlive, hafter⟩ | ⟨hdead, hstep⟩
    · rw [hafter, Kin.parented_exit_iff hparented, leavesNoHeir_iff hproper hmem hends hlive]
      simp only [hspawns, not_false_eq_true, true_and, not_and, not_not]
    · refine iff_of_true ?_ ⟨hspawns, not_leavesNoHeir hproper hdead⟩
      apply hparented.step h.ordered hstep
      intro member hmem
      exact serve_old hdispatched (not_exists.mp hnew) hmem

/-- As long as no number comes round, every parent link is sound throughout a run
exactly if no request of the run spawns a process under a zombie, or ends one whose
children have no heir. -/
theorem parentsLive_iff {config : Config} {k : Kernel} (h : boot config = .ok k)
    (requests : List Request) (hfit : (k.serveAll requests).2.NumbersFit) :
    (∀ done, done <+: requests → (k.serveAll done).2.ParentsLive) ↔
      ∀ done request, done ++ [request] <+: requests →
        ¬ (k.serveAll done).2.SpawnsUnderZombie request ∧
          ¬ (k.serveAll done).2.LeavesNoHeir request := by
  obtain ⟨hfault, rfl⟩ := boot_eq_ok_iff.mp h
  have hdispatched := serveAll_dispatched (ofConfig_dispatched config)
  have hstep : ∀ done request, done ++ [request] <+: requests →
      ((ofConfig config).serveAll done).2.ParentsLive →
        (((ofConfig config).serveAll (done ++ [request])).2.ParentsLive ↔
          ¬ ((ofConfig config).serveAll done).2.SpawnsUnderZombie request ∧
            ¬ ((ofConfig config).serveAll done).2.LeavesNoHeir request) := by
    intro done request hprefix hbefore
    have hafter := numbersFit_of_prefix (ofConfig_dispatched config) hprefix hfit
    rw [serveAll_concat] at hafter ⊢
    have hdone := numbersFit_of_serve (hdispatched done).proper hafter
    exact serve_parentsLive_iff ((ofConfig_settled hfault).serveAll hdone) (hdispatched done)
      hbefore request hafter
  constructor
  · intro hlaw done request hprefix
    have hbefore := hlaw done ((List.prefix_append done [request]).trans hprefix)
    exact (hstep done request hprefix hbefore).mp (hlaw (done ++ [request]) hprefix)
  · intro hnone done
    induction done using List.reverseRecOn with
    | nil =>
        rintro - child hmem
        have hempty : (ofConfig config).sched.tasks = [] := Scheduler.tasks_new _
        rw [show ((ofConfig config).serveAll []).2 = ofConfig config from rfl, hempty] at hmem
        cases hmem
    | append_singleton done request ih =>
        intro hprefix
        have hbefore := ih ((List.prefix_append done [request]).trans hprefix)
        exact (hstep done request hprefix hbefore).mpr (hnone done request hprefix)

/-- A child that is handed to the first process, and reaped by it. -/
theorem parentsLive_fork_exit_wait :
    let requests : List Request :=
      [.createInit, .fork initPid, .fork 2, .exit 2 0, .wait initPid, .exit 3 0, .wait initPid]
    boot Config.small = .ok (ofConfig Config.small) ∧
    ((ofConfig Config.small).serveAll requests).2.NumbersFit ∧
    ((∀ done, done <+: requests → ((ofConfig Config.small).serveAll done).2.ParentsLive) ↔
      ∀ done request, done ++ [request] <+: requests →
        ¬ ((ofConfig Config.small).serveAll done).2.SpawnsUnderZombie request ∧
          ¬ ((ofConfig Config.small).serveAll done).2.LeavesNoHeir request) := by
  intro requests
  have hboot : boot Config.small = .ok (ofConfig Config.small) :=
    boot_eq_ok_iff.mpr ⟨by decide, rfl⟩
  have hfit : ((ofConfig Config.small).serveAll requests).2.NumbersFit :=
    ofConfig_numbersFit Config.small (by decide)
  exact ⟨hboot, hfit, parentsLive_iff hboot requests hfit⟩

theorem not_parentsLive_of_absent {ppid : Pid}
    (hchild : (k.find? pid).map Task.ppid = some ppid) (hsome : ppid ≠ 0)
    (habsent : (k.find? ppid).isNone = true) : ¬ k.ParentsLive := by
  intro hlaw
  obtain ⟨child, hfind, rfl⟩ := Option.map_eq_some_iff.mp hchild
  rcases hlaw child (Scheduler.mem_tasks_of_find? hfind) with hzero | ⟨parent, hparent, -⟩
  · exact hsome hzero
  · rw [hparent] at habsent
    cases habsent

/-- A process is spawned under a zombie. When the zombie is reaped the process is
left with a parent that is not there. -/
theorem not_parentsLive_of_spawn_under_zombie :
    let last := ((ofConfig Config.small).serveAll
      [.createInit, .spawn "a" 1 0, .exit 2 0, .spawn "b" 2 0, .wait 1]).2
    boot Config.small = .ok (ofConfig Config.small) ∧
      (last.find? 3).map Task.ppid = some 2 ∧ (last.find? 2).isNone = true ∧
      ¬ last.ParentsLive := by
  have hchild : ((((ofConfig Config.small).serveAll
      [.createInit, .spawn "a" 1 0, .exit 2 0, .spawn "b" 2 0, .wait 1]).2).find? 3).map
        Task.ppid = some 2 := by
    decide +kernel
  have hgone : ((((ofConfig Config.small).serveAll
      [.createInit, .spawn "a" 1 0, .exit 2 0, .spawn "b" 2 0, .wait 1]).2).find? 2).isNone =
        true := by
    decide +kernel
  exact ⟨boot_eq_ok_iff.mpr ⟨by decide, rfl⟩, hchild, hgone,
    not_parentsLive_of_absent hchild (by decide) hgone⟩

/-- The first process ends, and later another one with a child. The child is left to
a zombie that nobody can reap. -/
example :
    let last := ((ofConfig Config.small).serveAll
      [.createInit, .exit 1 0, .spawn "a" 0 0, .spawn "b" 2 0, .exit 2 0]).2
    (last.find? 3).map Task.ppid = some initPid ∧
      (last.find? initPid).map Task.isZombie = some true := by
  decide +kernel

end Runs

end Kernelet.Kernel
