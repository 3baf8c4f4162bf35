import Kernelet.Proofs.Kernel.Course
import Kernelet.Proofs.Process.Kinship

/-!
Waits that are lost. A process that waits for a child should not sleep on while
one of its children can be reaped. Every request is a step of the family of
tasks or the end of one of them (`serve_family`), and so the law can fail in one
way only (`noLostWakeup_iff`): a process ends, its own children that have
terminated go to the first process, and the first process is asleep waiting but
is not the parent that is told.
-/

namespace Kernelet.Kernel

/-- The tasks as members of families. -/
def family (k : Kernel) : List Kin :=
  k.sched.tasks.map Task.kin

/-- The process that a request is to end. -/
def Request.ends? : Request → Option Pid
  | .exit pid _ => some pid
  | .kill pid .kill => some pid
  | _ => none

/-- The request ends a process and strands the first one. -/
def Strands (k : Kernel) (request : Request) : Prop :=
  ∃ ending ∈ k.family, request.ends? = some ending.pid ∧ ending.zombie = false ∧
    Kin.Strands k.family ending.pid ending.ppid

/-- A live task that is marked as waiting has a child, and none that could be
reaped. -/
def NoLostWakeup (k : Kernel) : Prop :=
  ∀ pid, Kin.Waits k.family pid →
    Kin.HasChild k.family pid ∧ ¬ Kin.Reapable k.family pid

variable {k after : Kernel} {pid : Pid}

theorem family_of_sameOutline (h : k.sched.SameOutline after.sched) :
    after.family = k.family := by
  have hkins := congrArg (List.map Prod.fst) h.tasks_eq
  rw [List.map_map, List.map_map] at hkins
  exact hkins

theorem childrenOf_ne_nil_iff : k.sched.childrenOf pid ≠ [] ↔ Kin.HasChild k.family pid := by
  unfold Scheduler.childrenOf Kin.HasChild family
  simp [Task.kin, List.filter_eq_nil_iff]

theorem grows_of_family_eq (h : after.family = k.family) : Kin.Grows k.family after.family := by
  rw [h]
  exact Kin.Grows.same

theorem timerTick_family (h : k.sched.Proper) : k.timerTick.2.family = k.family := by
  apply family_of_sameOutline
  rw [sched_timerTick]
  exact Scheduler.SameOutline.timerTick h

theorem sleep_family (h : k.sched.Proper) (interruptible : Bool) :
    (k.sleep interruptible).state.family = k.family := by
  unfold sleep
  split
  · rfl
  · rename_i hrun
    exact family_of_sameOutline (Scheduler.SameOutline.sleep h hrun)

theorem family_reselect (k : Kernel) (pid : Pid) : (k.reselect pid).family = k.family := by
  unfold reselect
  split
  · exact family_of_sameOutline (Scheduler.SameOutline.schedule k.sched)
  · rfl

theorem family_put (h : k.sched.Proper) {task new : Task} {pool : FramePool}
    (hfind : k.find? pid = some task) (hkin : new.kin = task.kin) :
    ({ k with sched := k.sched.put new, pool } : Kernel).family = k.family :=
  Scheduler.map_tasks_put h Task.kin hfind (congrArg Kin.pid hkin) hkin

theorem kin_send (task : Task) (signal : Signal) : (task.send signal).kin = task.kin :=
  congrArg Prod.fst (task.outline_send signal)

theorem kin_notifyParent (task : Task) :
    (notifyParent task).kin = { task.kin with waiting := false } := by
  have hsend := kin_send task .chld
  unfold notifyParent
  dsimp only
  split
  · have hwake := congrArg Prod.fst { task.send .chld with waitingForChild := false }.outline_wake
    refine hwake.trans ?_
    rw [← hsend]
    rfl
  · rename_i hidle
    have hwaiting : (task.send .chld).kin.waiting = false := by
      show (task.send .chld).waitingForChild = false
      simpa using hidle
    rw [← hsend, ← hwaiting]

theorem kin_tell (ppid : Pid) (task : Task) :
    (if task.pid = ppid then notifyParent task else task).kin =
      { task.kin with waiting := if task.kin.pid = ppid then false else task.kin.waiting } := by
  unfold Task.kin
  dsimp only
  split
  · exact kin_notifyParent task
  · rfl

theorem kin_orphan (pid : Pid) (task : Task) :
    (if task.ppid = pid then { task with ppid := heir pid } else task).kin =
      { task.kin with ppid := if task.kin.ppid = pid then heir pid else task.kin.ppid } := by
  unfold Task.kin
  dsimp only
  split
  · rfl
  · rfl

/-- The end of a task, seen in the family. -/
theorem family_bury (h : k.sched.Proper) {task : Task} (hfind : k.find? pid = some task)
    (code : Int) :
    (k.bury task code).family = k.family.map (Kin.exit task.pid task.ppid) := by
  unfold family bury reparent Scheduler.put
  dsimp only
  rw [Scheduler.tasks_update, Scheduler.tasks_mapTasks, Scheduler.tasks_update, List.map_map,
    List.map_map, List.map_map, List.map_map]
  apply List.map_congr_left
  intro other hmem
  have hput : (if other.pid = (task.terminated code).pid then task.terminated code
      else other).kin =
      { other.kin with
        zombie := other.kin.zombie || other.kin.pid == task.pid
        waiting := if other.kin.pid = task.pid then false else other.kin.waiting } := by
    have hpid : (task.terminated code).pid = task.pid := rfl
    by_cases hsame : other.pid = task.pid
    · have hother := Scheduler.eq_of_pid_eq h (Scheduler.mem_tasks_of_find? hfind) hmem hsame
      subst hother
      simp [Task.kin, Task.terminated, Task.isZombie]
    · simp [Task.kin, hpid, hsame]
  simp only [Function.comp_apply]
  rw [kin_tell, kin_orphan, hput]
  unfold Kin.exit
  by_cases hself : other.kin.pid = task.pid
  · simp [hself]
  · simp [hself]

theorem exit_family (h : k.sched.Proper) {code : Int} (hrun : k.exit pid code = .ok after) :
    ∃ ending ∈ k.family, ending.pid = pid ∧ ending.zombie = false ∧
      after.family = k.family.map (Kin.exit ending.pid ending.ppid) := by
  obtain ⟨task, hfind, hlive, rfl⟩ := exit_eq_ok hrun
  refine ⟨task.kin, List.mem_map_of_mem (Scheduler.mem_tasks_of_find? hfind),
    Scheduler.pid_of_find? hfind, hlive, ?_⟩
  rw [family_reselect, family_bury h hfind]
  rfl

/-- Whether a task that joins the table finds room or not, the family only grows. -/
theorem enlist_grows {task : Task} (hlive : task.isZombie = false)
    (hidle : task.waitingForChild = false)
    (hparent : task.ppid < task.pid) : Kin.Grows k.family (k.enlist task).family := by
  unfold enlist Machine.add
  dsimp only
  split
  · rename_i sched hrun
    apply Kin.Grows.born task.kin
    · exact (Scheduler.tasks_add_perm hrun).map Task.kin
    · intro member hmem
      obtain ⟨other, hother, rfl⟩ := List.mem_map.mp hmem
      exact Scheduler.find?_eq_none_iff.mp (Scheduler.find?_of_add hrun) other hother
    · exact hlive
    · exact hidle
    · exact hparent
  · exact Kin.Grows.same

theorem spawn_grows (h : k.sched.Proper) {name : String} {parent : Pid} {pages : Nat}
    (hfit : (k.spawn name parent pages).state.NumbersFit) :
    Kin.Grows k.family (k.spawn name parent pages).state.family := by
  rcases spawn_cases k name parent pages with
    ⟨⟨e, hrun⟩, -⟩ | ⟨hparent, m, ⟨e, -, hrun⟩ | ⟨-, hrun⟩⟩
  · rw [hrun]
    exact Kin.Grows.same
  · rw [hrun]
    exact Kin.Grows.same
  · have hlt : parent < k.sched.nextPid := by
      rcases hparent with rfl | hthere
      · exact h.nextPid_pos
      · obtain ⟨task, hfind⟩ := Option.isSome_iff_exists.mp hthere
        rw [← Scheduler.pid_of_find? hfind]
        exact h.pid_lt task (Scheduler.mem_tasks_of_find? hfind)
    rw [hrun] at hfit ⊢
    rw [← Scheduler.nextNumber_eq (numbersFit_of_enlist hfit)] at hlt
    exact enlist_grows (k := { k with pool := m.pool }) rfl rfl hlt

theorem createInit_grows (h : k.sched.Proper) (hfit : k.createInit.state.NumbersFit) :
    Kin.Grows k.family k.createInit.state.family := by
  unfold createInit at hfit ⊢
  split at hfit
  · rw [if_pos (by assumption)]
    exact Kin.Grows.same
  · rw [if_neg (by assumption)]
    exact spawn_grows h hfit

theorem fork_grows (h : k.sched.Proper) {parent : Pid}
    (hfit : (k.fork parent).state.NumbersFit) :
    Kin.Grows k.family (k.fork parent).state.family := by
  rcases fork_cases k parent with ⟨⟨e, hrun⟩, -⟩ | ⟨task, space, m, hfind, -, -, hfork⟩
  · rw [hrun]
    exact Kin.Grows.same
  · have hput : ({ k with
        sched := k.sched.put { task with space := some m.space }
        pool := m.pool } : Kernel).family = k.family := family_put h hfind rfl
    rcases hfork with ⟨e, -, hrun⟩ | ⟨child, -, hrun⟩
    · rw [hrun]
      exact grows_of_family_eq hput
    · have hlt : task.pid < k.sched.nextPid :=
        h.pid_lt task (Scheduler.mem_tasks_of_find? hfind)
      rw [hrun] at hfit ⊢
      have hleft := numbersFit_of_enlist hfit
      rw [← Scheduler.nextNumber_eq (s := k.sched) hleft] at hlt
      rw [← hput]
      exact enlist_grows rfl rfl hlt

theorem map_kin_mark (s : Scheduler) (pid : Pid) (waiting : Bool) :
    (s.update pid (Task.markWaiting waiting)).tasks.map Task.kin =
      (s.tasks.map Task.kin).map (Kin.mark pid waiting) := by
  rw [Scheduler.tasks_update, List.map_map, List.map_map]
  apply List.map_congr_left
  intro task _
  simp only [Function.comp_apply]
  by_cases hpid : task.pid = pid
  · simp [Kin.mark, Task.kin, Task.markWaiting, Task.isZombie, hpid]
  · simp [Kin.mark, Task.kin, hpid]

/-- A wait reaps a child, or is refused, or marks a parent all of whose children
live. -/
theorem wait_family (k : Kernel) (parent : Pid) :
    (∃ child ∈ k.family, child.ppid = parent ∧ child.zombie = true ∧
      (∃ code, (k.wait parent).result = .ok (child.pid, code)) ∧
      (k.wait parent).state.family =
        (k.family.map (Kin.mark parent false)).filter fun task => task.pid != child.pid) ∨
    ((∃ e, (k.wait parent).result = .error e ∧ e ≠ .wouldBlock) ∧
      (k.sched.contains parent = false ∨ ¬ Kin.HasChild k.family parent) ∧
      (k.wait parent).state.family = k.family) ∨
    (Kin.HasChild k.family parent ∧ ¬ Kin.Reapable k.family parent ∧
      (k.wait parent).result = .error .wouldBlock ∧
      (k.wait parent).state.family = k.family.map (Kin.mark parent true)) := by
  rcases wait_cases k parent with
    ⟨-, child, hchild, hdead, hrun⟩ | ⟨⟨e, hrun, he⟩, hnone⟩ | ⟨-, hsome, hlive, hrun⟩
  · obtain ⟨hmem, hparent⟩ := List.mem_filter.mp hchild
    left
    refine ⟨child.kin, List.mem_map_of_mem hmem, beq_iff_eq.mp hparent, hdead, ?_, ?_⟩
    · rw [hrun]
      exact ⟨_, rfl⟩
    · rw [hrun]
      unfold family withMachine
      dsimp only
      rw [Machine.sched_remove, Scheduler.tasks_remove, ← map_kin_mark, List.filter_map]
      rfl
  · right
    left
    rw [hrun]
    refine ⟨⟨e, rfl, he⟩, hnone.imp_right ?_, rfl⟩
    exact fun hnil hchild => childrenOf_ne_nil_iff.mpr hchild hnil
  · right
    right
    rw [hrun]
    refine ⟨childrenOf_ne_nil_iff.mp hsome, ?_, rfl, map_kin_mark k.sched parent true⟩
    rintro ⟨member, hmember, hppid, hdead⟩
    obtain ⟨child, hmem, rfl⟩ := List.mem_map.mp hmember
    have hchild : child ∈ k.sched.childrenOf parent :=
      List.mem_filter.mpr ⟨hmem, beq_iff_eq.mpr hppid⟩
    have hstate : child.isZombie = true := hdead
    rw [hlive child hchild] at hstate
    cases hstate

theorem wait_step (k : Kernel) (parent : Pid) :
    Kin.Step k.family (k.wait parent).state.family := by
  rcases wait_family k parent with
    ⟨child, hmem, hparent, hdead, -, hafter⟩ | ⟨-, -, hafter⟩ | ⟨hchild, hlive, -, hafter⟩
  · rw [hafter]
    exact Kin.Step.reaped parent child hmem hparent hdead
  · rw [hafter]
    exact Kin.Step.same
  · rw [hafter]
    exact Kin.Step.marked parent hchild hlive

theorem blockProcess_family (h : k.sched.Proper) (pid : Pid) :
    (k.blockProcess pid).state.family = k.family := by
  rcases blockProcess_cases k pid with ⟨e, hrun⟩ | ⟨task, blocked, hfind, hblock, hrun⟩
  · rw [hrun]
  · rw [hrun, family_reselect]
    exact family_put h hfind (congrArg Prod.fst (Task.outline_block hblock))

theorem waitOrBlock_family {total reserved : Nat} (h : Fits total reserved k) (parent : Pid) :
    (k.waitOrBlock parent).state.family = (k.wait parent).state.family := by
  have hproper := (wait_fits h parent).proper
  rcases waitOrBlock_cases k parent with ⟨-, hrun⟩ | ⟨-, hrun⟩
  · rw [hrun]
    rfl
  · rw [hrun]
    exact blockProcess_family hproper parent

theorem exec_family (h : k.sched.Proper) (hrun : k.exec pid = .ok after) :
    after.family = k.family := by
  obtain ⟨task, hfind, -, rfl⟩ := exec_eq_ok hrun
  exact family_put h hfind rfl

theorem access_family (h : k.sched.Proper) (pid : Pid) (request : Memory.Request) :
    (k.access pid request).state.family = k.family := by
  rcases access_cases k pid request with ⟨e, hrun, -⟩ | ⟨task, space, hfind, -, hrun⟩
  · rw [hrun]
  · rw [hrun]
    exact family_put h hfind rfl

theorem send_family (h : k.sched.Proper) {task : Task} (hfind : k.find? pid = some task)
    (signal : Signal) :
    ({ k with sched := k.sched.put (task.send signal) } : Kernel).family = k.family :=
  family_put h hfind (kin_send task signal)

/-- A member of the family that has the number of a live task is that task. -/
theorem zombie_of_find? (h : k.sched.Proper) {task : Task} (hfind : k.find? pid = some task)
    {member : Kin} (hmem : member ∈ k.family) (hpid : member.pid = pid) :
    member.zombie = task.isZombie := by
  obtain ⟨other, hother, rfl⟩ := List.mem_map.mp hmem
  have hsame : k.find? pid = some other := (Scheduler.find?_eq_some_iff h).mpr ⟨hother, hpid⟩
  rw [hfind] at hsame
  cases hsame
  rfl

theorem waits_iff_of_find? (h : k.sched.Proper) {task : Task} (hfind : k.find? pid = some task) :
    Kin.Waits k.family pid ↔ task.isZombie = false ∧ task.waitingForChild = true := by
  constructor
  · rintro ⟨member, hmem, hpid, hmark⟩
    obtain ⟨other, hother, rfl⟩ := List.mem_map.mp hmem
    have hsame : k.find? pid = some other := (Scheduler.find?_eq_some_iff h).mpr ⟨hother, hpid⟩
    rw [hfind] at hsame
    cases hsame
    exact hmark
  · intro hmark
    exact ⟨task.kin, List.mem_map_of_mem (Scheduler.mem_tasks_of_find? hfind),
      Scheduler.pid_of_find? hfind, hmark⟩

theorem pid_ne_of_find? (hfind : k.find? pid = none) {member : Kin}
    (hmem : member ∈ k.family) : member.pid ≠ pid := by
  obtain ⟨other, hother, rfl⟩ := List.mem_map.mp hmem
  exact Scheduler.find?_eq_none_iff.mp hfind other hother

/-- An exit that is refused had no live process to end. -/
theorem zombie_of_exit_error (h : k.sched.Proper) {code : Int} {e : KernelError}
    (hrun : k.exit pid code = .error e) {member : Kin} (hmem : member ∈ k.family)
    (hpid : member.pid = pid) : member.zombie = true := by
  cases hfind : k.find? pid with
  | none => exact absurd hpid (pid_ne_of_find? hfind hmem)
  | some task =>
      rw [zombie_of_find? h hfind hmem hpid]
      rw [exit_of_find? hfind] at hrun
      split at hrun
      · assumption
      · cases hrun

/-- A kill ends a live process, just as an exit does. -/
theorem kill_family (h : k.sched.Proper) (pid : Pid) :
    (∃ ending ∈ k.family, ending.pid = pid ∧ ending.zombie = false ∧
      (k.commit (k.kill pid .kill)).state.family =
        k.family.map (Kin.exit ending.pid ending.ppid)) ∨
    ((∀ member ∈ k.family, member.pid = pid → member.zombie = true) ∧
      (k.commit (k.kill pid .kill)).state.family = k.family) := by
  cases hrun : k.kill pid .kill with
  | error e =>
      right
      refine ⟨?_, rfl⟩
      intro member hmem hpid
      exact absurd hpid (pid_ne_of_find? (kill_eq_error hrun) hmem)
  | ok after =>
      obtain ⟨task, hfind, ⟨hdead, rfl⟩ | ⟨-, ⟨-, hexit⟩ | ⟨hother, -⟩ | ⟨hother, -⟩⟩⟩ :=
        kill_eq_ok hrun
      · right
        refine ⟨?_, rfl⟩
        intro member hmem hpid
        rw [zombie_of_find? h hfind hmem hpid]
        exact hdead
      · left
        have hsend := send_family h hfind .kill
        obtain ⟨ending, hmem, hpid, hlive, hafter⟩ := exit_family (h.put _) hexit
        rw [hsend] at hmem hafter
        exact ⟨ending, hmem, hpid, hlive, hafter⟩
      · cases hother
      · exact absurd rfl hother

/-- A signal that does not kill leaves families alone. -/
theorem signal_family (h : k.sched.Proper) {signal : Signal} (hsignal : signal ≠ .kill)
    (hrun : k.kill pid signal = .ok after) : after.family = k.family := by
  obtain ⟨task, hfind, ⟨-, rfl⟩ | ⟨-, hsent⟩⟩ := kill_eq_ok hrun
  · rfl
  · have hsend := send_family h hfind signal
    rcases hsent with ⟨hkill, -⟩ | ⟨-, rfl⟩ | ⟨-, -, rfl⟩
    · exact absurd hkill hsignal
    · rw [family_reselect]
      exact hsend
    · exact hsend

theorem commit_family {result : Except KernelError Kernel}
    (hresult : ∀ after, result = .ok after → after.family = k.family) :
    (k.commit result).state.family = k.family := by
  cases result with
  | ok after => exact hresult after rfl
  | error e => rfl

theorem ends?_kill (pid : Pid) (signal : Signal) :
    (Request.kill pid signal).ends? = if signal = .kill then some pid else none := by
  cases signal <;> rfl

/-- A request other than a wait ends one live task, or it ends none and the family
only grows. -/
theorem serve_grows (hproper : k.sched.Proper) {request : Request}
    (hfit : (k.serve request).state.NumbersFit) (hwait : ∀ parent, request ≠ .wait parent)
    (hblock : ∀ parent, request ≠ .waitOrBlock parent) :
    (∃ ending ∈ k.family, request.ends? = some ending.pid ∧ ending.zombie = false ∧
      (k.serve request).state.family = k.family.map (Kin.exit ending.pid ending.ppid)) ∨
    ((∀ member ∈ k.family, request.ends? = some member.pid → member.zombie = true) ∧
      Kin.Grows k.family (k.serve request).state.family) := by
  have hquiet : request.ends? = none →
      ∀ member ∈ k.family, request.ends? = some member.pid → member.zombie = true := by
    intro hnone member _ hends
    rw [hnone] at hends
    cases hends
  cases request with
  | createInit => exact Or.inr ⟨hquiet rfl, createInit_grows hproper hfit⟩
  | spawn name parent pages => exact Or.inr ⟨hquiet rfl, spawn_grows hproper hfit⟩
  | schedule =>
      refine Or.inr ⟨hquiet rfl, grows_of_family_eq ?_⟩
      exact family_of_sameOutline (Scheduler.SameOutline.schedule k.sched)
  | timerTick =>
      refine Or.inr ⟨hquiet rfl, grows_of_family_eq ?_⟩
      exact timerTick_family hproper
  | sleep interruptible =>
      refine Or.inr ⟨hquiet rfl, grows_of_family_eq ?_⟩
      exact sleep_family hproper interruptible
  | wakeAll =>
      refine Or.inr ⟨hquiet rfl, grows_of_family_eq ?_⟩
      exact family_of_sameOutline (Scheduler.SameOutline.wakeAll k.sched)
  | fork parent => exact Or.inr ⟨hquiet rfl, fork_grows hproper hfit⟩
  | exit pid code =>
      cases hrun : k.exit pid code with
      | error e =>
          right
          constructor
          · intro member hmem hends
            exact zombie_of_exit_error hproper hrun hmem (Option.some.inj hends).symm
          · apply grows_of_family_eq
            unfold serve
            dsimp only
            rw [hrun]
            rfl
      | ok after =>
          left
          obtain ⟨ending, hmem, hpid, hlive, hafter⟩ := exit_family hproper hrun
          refine ⟨ending, hmem, congrArg some hpid.symm, hlive, ?_⟩
          unfold serve
          dsimp only
          rw [hrun]
          exact hafter
  | wait parent => exact absurd rfl (hwait parent)
  | waitOrBlock parent => exact absurd rfl (hblock parent)
  | kill pid signal =>
      by_cases hsignal : signal = .kill
      · subst hsignal
        rcases kill_family hproper pid with
          ⟨ending, hmem, hpid, hlive, hafter⟩ | ⟨hdead, hafter⟩
        · exact Or.inl ⟨ending, hmem, congrArg some hpid.symm, hlive, hafter⟩
        · right
          refine ⟨?_, grows_of_family_eq hafter⟩
          intro member hmem hends
          exact hdead member hmem (Option.some.inj hends).symm
      · have hends : (Request.kill pid signal).ends? = none := by
          rw [ends?_kill, if_neg hsignal]
        refine Or.inr ⟨hquiet hends, grows_of_family_eq ?_⟩
        exact commit_family fun after hrun => signal_family hproper hsignal hrun
  | exec pid =>
      refine Or.inr ⟨hquiet rfl, grows_of_family_eq ?_⟩
      exact commit_family fun after hrun => exec_family hproper hrun
  | access pid request =>
      exact Or.inr ⟨hquiet rfl, grows_of_family_eq (access_family hproper pid request)⟩
  | shutdown => exact Or.inr ⟨hquiet rfl, Kin.Grows.same⟩

/-- A request ends one live task, or it ends none and takes a step. -/
theorem serve_family {total reserved : Nat} (h : Fits total reserved k) {request : Request}
    (hfit : (k.serve request).state.NumbersFit) :
    (∃ ending ∈ k.family, request.ends? = some ending.pid ∧ ending.zombie = false ∧
      (k.serve request).state.family = k.family.map (Kin.exit ending.pid ending.ppid)) ∨
    ((∀ member ∈ k.family, request.ends? = some member.pid → member.zombie = true) ∧
      Kin.Step k.family (k.serve request).state.family) := by
  by_cases hwait : ∃ parent, request = .wait parent ∨ request = .waitOrBlock parent
  · right
    rcases hwait with ⟨parent, rfl | rfl⟩
    · exact ⟨by rintro member - ⟨⟩, wait_step k parent⟩
    · refine ⟨by rintro member - ⟨⟩, ?_⟩
      show Kin.Step k.family (k.waitOrBlock parent).state.family
      rw [waitOrBlock_family h]
      exact wait_step k parent
  · have hother := serve_grows h.proper hfit (fun parent heq => hwait ⟨parent, Or.inl heq⟩)
      fun parent heq => hwait ⟨parent, Or.inr heq⟩
    exact hother.imp_right fun ⟨hdead, hgrows⟩ => ⟨hdead, hgrows.step⟩

section Runs

variable {total reserved : Nat} {request : Request}

/-- A request that loses a wait strands the first process. -/
theorem lost_serve (h : Fits total reserved k) (hordered : Kin.Ordered k.family)
    (hfit : (k.serve request).state.NumbersFit)
    (hlost : Kin.Lost (k.serve request).state.family pid) :
    Kin.Lost k.family pid ∨ (pid = initPid ∧ k.Strands request) := by
  rcases serve_family h hfit with ⟨ending, hmem, hends, hlive, hafter⟩ | ⟨-, hstep⟩
  · rw [hafter] at hlost
    rcases (Kin.lost_exit_iff hordered hmem).mp hlost with ⟨hold, -⟩ | ⟨hinit, hstrands⟩
    · exact Or.inl hold
    · exact Or.inr ⟨hinit, ending, hmem, hends, hlive, hstrands⟩
  · exact Or.inl (Kin.lost_of_step hstep hlost)

theorem lost_of_strands (h : Fits total reserved k) (hordered : Kin.Ordered k.family)
    (hfit : (k.serve request).state.NumbersFit) (hstrands : k.Strands request) :
    Kin.Lost (k.serve request).state.family initPid := by
  obtain ⟨ending, hmem, hends, hlive, hkin⟩ := hstrands
  rcases serve_family h hfit with ⟨other, hother, hends', -, hafter⟩ | ⟨hdead, -⟩
  · have hpid : other.pid = ending.pid := Option.some.inj (hends'.symm.trans hends)
    have hsame := hordered.eq_of_pid_eq hmem hother hpid
    subst hsame
    rw [hafter]
    exact (Kin.lost_exit_iff hordered hother).mpr (Or.inr ⟨rfl, hkin⟩)
  · rw [hdead ending hmem hends] at hlive
    cases hlive

/-- What holds of the family as long as no number comes round. -/
structure Settled (total reserved : Nat) (k : Kernel) : Prop where
  fits : Fits total reserved k
  ordered : Kin.Ordered k.family
  attended : Kin.Attended k.family

theorem Settled.serve (h : Settled total reserved k) (hfit : (k.serve request).state.NumbersFit) :
    Settled total reserved (k.serve request).state := by
  have hfits := serve_fits h.fits request
  rcases serve_family h.fits hfit with ⟨ending, hmem, -, -, hafter⟩ | ⟨-, hstep⟩
  · refine ⟨hfits, ?_, ?_⟩
    · rw [hafter]
      exact h.ordered.exit hmem ending.ppid
    · rw [hafter]
      exact h.attended.exit ending.pid ending.ppid
  · exact ⟨hfits, h.ordered.step hstep, h.attended.step h.ordered hstep⟩

theorem Settled.serveAll (h : Settled total reserved k) {requests : List Request}
    (hfit : (k.serveAll requests).2.NumbersFit) :
    Settled total reserved (k.serveAll requests).2 := by
  induction requests generalizing k with
  | nil => exact h
  | cons request rest ih =>
      have hle := nextPid_le_serveAll (Fits total reserved) (fun _ hk => hk.proper)
        (fun _ request hk => serve_fits hk request) (serve_fits h.fits request) rest
      exact ih (h.serve (hfit.of_le hle)) hfit

theorem family_ofConfig (config : Config) : (ofConfig config).family = [] := by
  unfold family ofConfig
  rw [Scheduler.tasks_new]
  rfl

theorem ofConfig_settled {config : Config} (h : config.fault? = none) :
    Settled config.totalFrames config.reservedFrames (ofConfig config) where
  fits := ofConfig_fits h
  ordered := by
    rw [family_ofConfig]
    exact ⟨List.nodup_nil, by simp⟩
  attended := by
    rw [family_ofConfig]
    rintro pid ⟨task, hmem, -⟩
    cases hmem

/-- As long as no number comes round, a process that waits has a child, and one
other than the first process has no child that could be reaped. The same is true of
the first process throughout a run exactly if no request of the run strands it. -/
theorem noLostWakeup_iff {config : Config} {k : Kernel} (h : boot config = .ok k)
    (requests : List Request) (hfit : (k.serveAll requests).2.NumbersFit) :
    (∀ done, done <+: requests → ∀ pid, Kin.Waits (k.serveAll done).2.family pid →
      Kin.HasChild (k.serveAll done).2.family pid ∧
        (pid ≠ initPid → ¬ Kin.Reapable (k.serveAll done).2.family pid)) ∧
    ((∀ done, done <+: requests → (k.serveAll done).2.NoLostWakeup) ↔
      ∀ done request, done ++ [request] <+: requests →
        ¬ (k.serveAll done).2.Strands request) := by
  obtain ⟨hfault, rfl⟩ := boot_eq_ok_iff.mp h
  have hfits : ∀ done, done <+: requests → ((ofConfig config).serveAll done).2.NumbersFit :=
    fun _ hprefix => numbersFit_of_prefix (ofConfig_dispatched config) hprefix hfit
  have hsettled : ∀ done, done <+: requests → Settled config.totalFrames config.reservedFrames
      ((ofConfig config).serveAll done).2 :=
    fun done hprefix => (ofConfig_settled hfault).serveAll (hfits done hprefix)
  -- Where a wait is lost, the last request or an earlier one stranded the first process.
  have hlost : ∀ done, done <+: requests → ∀ pid,
      Kin.Lost ((ofConfig config).serveAll done).2.family pid →
      pid = initPid ∧ ∃ before request, before ++ [request] <+: done ∧
        ((ofConfig config).serveAll before).2.Strands request := by
    intro done
    induction done using List.reverseRecOn with
    | nil =>
        rintro - pid ⟨⟨task, hmem, -⟩, -⟩
        rw [show ((ofConfig config).serveAll []).2 = ofConfig config from rfl,
          family_ofConfig] at hmem
        cases hmem
    | append_singleton done request ih =>
        intro hprefix pid hnow
        have hdone := (List.prefix_append done [request]).trans hprefix
        have hafter := hfits _ hprefix
        rw [serveAll_concat] at hnow hafter
        rcases lost_serve (hsettled done hdone).fits (hsettled done hdone).ordered hafter hnow with
          hbefore | ⟨hinit, hstrands⟩
        · obtain ⟨hinit, before, other, hother, hstrands⟩ := ih hdone pid hbefore
          exact ⟨hinit, before, other, hother.trans (List.prefix_append done [request]), hstrands⟩
        · exact ⟨hinit, done, request, List.prefix_refl _, hstrands⟩
  refine ⟨?_, ?_, ?_⟩
  · intro done hprefix pid hwaits
    refine ⟨(hsettled done hprefix).attended pid hwaits, ?_⟩
    intro hother hreap
    exact hother (hlost done hprefix pid ⟨hwaits, hreap⟩).1
  · intro hlaw done request hprefix hstrands
    have hdone := hsettled done ((List.prefix_append done [request]).trans hprefix)
    have hafter := hfits _ hprefix
    rw [serveAll_concat] at hafter
    have hnow := lost_of_strands hdone.fits hdone.ordered hafter hstrands
    rw [← serveAll_concat] at hnow
    exact (hlaw (done ++ [request]) hprefix initPid hnow.1).2 hnow.2
  · intro hnone done hprefix pid hwaits
    refine ⟨(hsettled done hprefix).attended pid hwaits, ?_⟩
    intro hreap
    obtain ⟨-, before, request, hbefore, hstrands⟩ := hlost done hprefix pid ⟨hwaits, hreap⟩
    exact hnone before request (hbefore.trans hprefix) hstrands

/-- A wait that ends with the exit of the child that was waited for. -/
theorem noLostWakeup_fork_wait_exit :
    let requests : List Request :=
      [.createInit, .fork initPid, .waitOrBlock initPid, .exit 2 0, .waitOrBlock initPid]
    boot Config.small = .ok (ofConfig Config.small) ∧
    ((ofConfig Config.small).serveAll requests).2.NumbersFit ∧
    (∀ done, done <+: requests → ∀ pid,
      Kin.Waits ((ofConfig Config.small).serveAll done).2.family pid →
        Kin.HasChild ((ofConfig Config.small).serveAll done).2.family pid ∧
          (pid ≠ initPid → ¬ Kin.Reapable ((ofConfig Config.small).serveAll done).2.family pid)) ∧
    ((∀ done, done <+: requests → ((ofConfig Config.small).serveAll done).2.NoLostWakeup) ↔
      ∀ done request, done ++ [request] <+: requests →
        ¬ ((ofConfig Config.small).serveAll done).2.Strands request) := by
  intro requests
  have hboot : boot Config.small = .ok (ofConfig Config.small) :=
    boot_eq_ok_iff.mpr ⟨by decide, rfl⟩
  have hfit : ((ofConfig Config.small).serveAll requests).2.NumbersFit :=
    ofConfig_numbersFit Config.small (by decide)
  exact ⟨hboot, hfit, noLostWakeup_iff hboot requests hfit⟩

/-- The first process waits. Its grandchild has a child that has terminated, and
terminates as well. The first process sleeps on, with a child to reap. -/
theorem not_noLostWakeup_of_orphaned_zombie :
    let last := ((ofConfig Config.small).serveAll
      [.createInit, .spawn "a" 1 0, .spawn "b" 2 0, .spawn "c" 3 0, .waitOrBlock 1,
        .exit 4 7, .exit 3 0]).2
    boot Config.small = .ok (ofConfig Config.small) ∧
      (last.find? initPid).map Task.state = some .interruptibleWait ∧ ¬ last.NoLostWakeup := by
  refine ⟨boot_eq_ok_iff.mpr ⟨by decide, rfl⟩, by decide +kernel, ?_⟩
  have hfamily : ((ofConfig Config.small).serveAll
      [.createInit, .spawn "a" 1 0, .spawn "b" 2 0, .spawn "c" 3 0, .waitOrBlock 1,
        .exit 4 7, .exit 3 0]).2.family =
      [⟨1, 0, false, true⟩, ⟨2, 1, false, false⟩, ⟨3, 2, true, false⟩, ⟨4, 1, true, false⟩] := by
    decide +kernel
  intro hlaw
  unfold NoLostWakeup at hlaw
  rw [hfamily] at hlaw
  obtain ⟨-, hnone⟩ := hlaw 1 ⟨⟨1, 0, false, true⟩, by decide, rfl, rfl, rfl⟩
  exact hnone ⟨⟨4, 1, true, false⟩, by decide, rfl, rfl⟩

end Runs

end Kernelet.Kernel
