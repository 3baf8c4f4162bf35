import Kernelet.Proofs.Kernel.Reaping
import Kernelet.Proofs.Process.Standing

/-!
The state diagram over whole runs. `Arrow` has one case for each arrow of the diagram,
with the requests that lead along it, and `keepsToDiagram_of_boot` says that nothing
else ever happens to a task: it goes along an arrow, or it has terminated and leaves the
table to its parent. In between, every task is sound.

Each operation is a few turns, one after another; what it does to its own task comes
first, and what it lets others know follows.
-/

namespace Kernelet

namespace Task

/-- What a task leaves behind is sound. -/
theorem sound_terminated (task : Task) (code : Int) : (task.terminated code).Sound where
  code_iff := by simp [isZombie, terminated]
  bare_iff := by simp [isZombie, terminated]
  spent _ := rfl
  closed _ := openCount_closeAll task.descriptors

namespace Turns

variable {task : Task} {arrow : StateArrow}

theorem markWaiting (waiting : Bool) (task : Task) :
    Turns StateArrow.stays task (Task.markWaiting waiting task) :=
  of_stays rfl rfl rfl rfl fun _ => ⟨Nat.le_refl _, rfl⟩

theorem terminated (hlive : task.isZombie = false) (code : Int)
    (harrow : arrow task.pid task.state .zombie) : Turns arrow task (task.terminated code) where
  pid_eq := rfl
  arrow := harrow
  kept := by simp [hlive]
  sound := fun _ => sound_terminated task code

theorem notifyParent (task : Task) :
    Turns StateArrow.wakes task (Kernel.notifyParent task) := by
  have hsend := send_chld task
  unfold Kernel.notifyParent
  dsimp only
  split
  · have hmark : Turns StateArrow.wakes task (Task.markWaiting false (task.send .chld)) := by
      refine hsend.comp (markWaiting false _) ?_
      rintro pid x y z hxy rfl
      exact hxy
    exact hmark.comp (wake _) fun _ _ _ _ => StateArrow.wakes_trans
  · exact hsend

end Turns

end Task

namespace Kernel

/-- The arrows of the state diagram: how the state of process `pid` may change while a
request is served, with process `current` selected. -/
inductive Arrow (request : Request) (current : Option Pid) (pid : Pid) :
    TaskState → TaskState → Prop
  | stays (state : TaskState) : Arrow request current pid state state
  /-- The selected process goes to sleep. -/
  | sleeps (interruptible : Bool) (hrequest : request = .sleep interruptible)
      (hcurrent : current = some pid) :
      Arrow request current pid .runnable
        (if interruptible then .interruptibleWait else .uninterruptibleWait)
  /-- The process waits for a child. -/
  | waits (hrequest : request = .waitOrBlock pid) :
      Arrow request current pid .runnable .interruptibleWait
  | wakes {state : TaskState} (hwaits : state.isWaiting = true) :
      Arrow request current pid state .runnable
  | continues (hrequest : request = .kill pid .cont) :
      Arrow request current pid .stopped .runnable
  | stops {state : TaskState} (hlive : state ≠ .zombie) (hrequest : request = .kill pid .stop) :
      Arrow request current pid state .stopped
  /-- The process exits or is killed. -/
  | ends {state : TaskState} (hlive : state ≠ .zombie) (code : Int)
      (hrequest : request.ending? = some (pid, code)) :
      Arrow request current pid state .zombie

/-- No arrow leads out of the last state. -/
theorem Arrow.of_zombie {request : Request} {current : Option Pid} {pid : Pid} {state : TaskState}
    (h : Arrow request current pid .zombie state) : state = .zombie := by
  cases h with
  | stays => rfl
  | wakes hwaits => cases hwaits
  | stops hlive _ => exact absurd rfl hlive
  | ends _ _ _ => rfl

/-- Every task goes along an arrow of the diagram, unless it has terminated and is
handed to its parent with its exit code. A task that is new is runnable. -/
structure Served.KeepsToDiagram (event : Served) : Prop where
  moves : ∀ pid task, event.before.find? pid = some task →
    (∃ after, event.after.find? pid = some after ∧
      Arrow event.request event.before.current pid task.state after.state ∧
      (task.isZombie = true → after.isZombie = true ∧ after.exitCode = task.exitCode)) ∨
    (task.isZombie = true ∧ event.after.find? pid = none ∧
      ∃ code, task.exitCode = some code ∧ event.result = .ok (.reaped pid code))
  starts : ∀ pid task, event.before.find? pid = none → event.after.find? pid = some task →
    task.state = .runnable

/-- The arrow that a request leads along. Out of an uninterruptible sleep and back to
work leads only a request that wakes everybody or is to end a process. -/
structure Leads (request : Request) (current : Option Pid) (pid : Pid)
    (before after : TaskState) : Prop where
  arrow : Arrow request current pid before after
  deep : before = .uninterruptibleWait → after = .runnable →
    request = .wakeAll ∨ request.ending?.isSome = true

/-- The arrows of one request. -/
abbrev arrows (request : Request) (current : Option Pid) : StateArrow :=
  Leads request current

/-- What a request does to the standing of all tasks, with its result and the kernel
after it. -/
structure Diagram (k : Kernel) (request : Request) (result : Except KernelError Reply)
    (after : Kernel) : Prop where
  moves : ∀ pid task, k.find? pid = some task →
    (∃ turned, after.find? pid = some turned ∧ task.Turns (arrows request k.current) turned) ∨
    (after.find? pid = none ∧ task.isZombie = true ∧
      result = .ok (.reaped pid (task.exitCode.getD 0)))
  starts : ∀ pid task, k.find? pid = none → after.find? pid = some task →
    task.state = .runnable ∧ task.Sound

variable {k mid after : Kernel} {request : Request} {result : Except KernelError Reply}
  {pid : Pid}

namespace Leads

theorem stays (current : Option Pid) (state : TaskState) :
    Leads request current pid state state where
  arrow := Arrow.stays state
  deep := by
    rintro rfl ⟨⟩

theorem of_stays {current : Option Pid} {x y : TaskState} (h : StateArrow.stays pid x y) :
    Leads request current pid x y := by
  cases h
  exact stays current x

/-- Whoever sleeps may wake when everybody does, and when a process ends. -/
theorem of_wakes {current : Option Pid} {x y : TaskState} (h : StateArrow.wakes pid x y)
    (hrequest : request = .wakeAll ∨ request.ending?.isSome = true) :
    Leads request current pid x y := by
  rcases h with rfl | ⟨hwaits, rfl⟩
  · exact stays current y
  · exact ⟨Arrow.wakes hwaits, fun _ _ => hrequest⟩

theorem ends {current : Option Pid} {state : TaskState} (hlive : state ≠ .zombie) (code : Int)
    (hrequest : request.ending? = some (pid, code)) :
    Leads request current pid state .zombie :=
  ⟨Arrow.ends hlive code hrequest, fun _ _ => Or.inr (by rw [hrequest]; rfl)⟩

end Leads

namespace Diagram

theorem of_follows (h : k.sched.Follows (arrows request k.current) after.sched) :
    Diagram k request result after where
  moves pid task hfind := Or.inl (h.exists_of_find? hfind)
  starts pid task hnone hfind := by
    have hgone : after.find? pid = none := h.find?_eq_none hnone
    rw [hgone] at hfind
    cases hfind

theorem of_stays (h : k.sched.Follows StateArrow.stays after.sched) :
    Diagram k request result after :=
  of_follows (h.mono fun _ _ _ => Leads.of_stays)

theorem refl (k : Kernel) : Diagram k request result k :=
  of_stays (Scheduler.Follows.refl k.sched)

/-- A sound task joins the table, or is let go, and nothing happens to the others. -/
theorem of_enlist (h : k.sched.Follows StateArrow.stays mid.sched) {task : Task}
    (hstate : task.state = .runnable) (hsound : task.Sound) :
    Diagram k request result (mid.enlist task) := by
  rcases mid.enlist_cases task with ⟨sched, hadd, -, hrun⟩ | ⟨e, -, hrun⟩
  · have hfind : ∀ q, (mid.enlist task).find? q =
        if task.pid = q then some task else mid.find? q := by
      intro q
      rw [hrun]
      exact Scheduler.find?_add hadd q
    have hfresh : mid.sched.allocatePid.2.find? task.pid = none :=
      Scheduler.find?_eq_none_of_add hadd
    constructor
    · intro q old hold
      obtain ⟨turned, hturned, hturns⟩ := h.exists_of_find? hold
      have hother : task.pid ≠ q := by
        rintro rfl
        cases hfresh.symm.trans hturned
      refine Or.inl ⟨turned, ?_, hturns.mono fun _ _ => Leads.of_stays⟩
      rw [hfind, if_neg hother]
      exact hturned
    · intro q new hnone hnew
      have hgone : mid.find? q = none := h.find?_eq_none hnone
      rw [hfind, hgone] at hnew
      split at hnew
      · cases hnew
        exact ⟨hstate, hsound⟩
      · cases hnew
  · rw [hrun]
    exact of_stays (h.stays (Scheduler.Follows.of_tasks_eq rfl))

end Diagram

theorem reselect_follows (k : Kernel) (pid : Pid) :
    k.sched.Follows StateArrow.stays (k.reselect pid).sched := by
  unfold reselect
  split
  · exact Scheduler.Follows.schedule k.sched
  · exact Scheduler.Follows.refl k.sched

theorem timerTick_follows (k : Kernel) :
    k.sched.Follows StateArrow.stays k.timerTick.2.sched := by
  rw [sched_timerTick]
  exact Scheduler.Follows.timerTick k.sched

theorem sleep_diagram (k : Kernel) (interruptible : Bool) :
    Diagram k (.sleep interruptible) result (k.sleep interruptible).state := by
  unfold sleep
  rcases k.sched.sleep_cases interruptible with
    ⟨-, hrun⟩ | ⟨task, hcurrent, ⟨e, -, hrun⟩ | ⟨blocked, hblock, hrun⟩⟩
  · rw [hrun]
    exact Diagram.of_stays (Scheduler.Follows.schedule k.sched)
  · rw [hrun]
    exact Diagram.refl k
  · obtain ⟨q, hq, hfind⟩ := Scheduler.currentTask?_eq_some_iff.mp hcurrent
    have hpid := Scheduler.pid_of_find? hfind
    have hsleeps : task.Turns (arrows (.sleep interruptible) k.current) blocked :=
      Task.Turns.block hblock ⟨Arrow.sleeps interruptible rfl (hpid ▸ hq), nofun⟩
    have hput := Scheduler.Follows.put hfind hsleeps fun _ state _ => Leads.stays k.current state
    rw [hrun]
    exact Diagram.of_follows (hput.stays (Scheduler.Follows.schedule _))

theorem spawn_diagram (k : Kernel) (name : String) (parent : Pid) (pages : Nat) :
    Diagram k request result (k.spawn name parent pages).state := by
  rcases spawn_cases k name parent pages with
    ⟨⟨e, hrun⟩, -⟩ | ⟨-, m, ⟨e, -, hrun⟩ | ⟨-, hrun⟩⟩
  · rw [hrun]
    exact Diagram.refl k
  · rw [hrun]
    exact Diagram.of_stays (Scheduler.Follows.refl k.sched)
  · rw [hrun]
    apply Diagram.of_enlist
    · exact Scheduler.Follows.refl k.sched
    · rfl
    · exact Task.Sound.of_live rfl rfl rfl

theorem createInit_diagram (k : Kernel) : Diagram k request result k.createInit.state := by
  unfold createInit
  split
  · exact Diagram.refl k
  · exact spawn_diagram k "init" 0 initPages

theorem fork_diagram (k : Kernel) (parent : Pid) :
    Diagram k request result (k.fork parent).state := by
  rcases fork_cases k parent with ⟨⟨e, hrun⟩, -⟩ | ⟨task, space, m, hfind, -, hspace, hfork⟩
  · rw [hrun]
    exact Diagram.refl k
  · have hturns : task.Turns StateArrow.stays { task with space := some m.space } :=
      Task.Turns.withSpace hspace
    have hshared := Scheduler.Follows.put hfind hturns fun _ _ _ => rfl
    rcases hfork with ⟨e, -, hrun⟩ | ⟨child, -, hrun⟩
    · rw [hrun]
      exact Diagram.of_stays hshared
    · rw [hrun]
      exact Diagram.of_enlist hshared rfl (Task.Sound.of_live rfl rfl rfl)

/-- One live process terminates, and others may wake. -/
def StateArrow.endOf (pid : Pid) : StateArrow :=
  fun q before after =>
    (q = pid ∧ before ≠ .zombie ∧ after = .zombie) ∨ (q ≠ pid ∧ StateArrow.wakes q before after)

/-- One live process may do anything but terminate. -/
def StateArrow.stirs (pid : Pid) : StateArrow :=
  fun q before after =>
    (q = pid ∧ before ≠ .zombie ∧ after ≠ .zombie) ∨ (q ≠ pid ∧ after = before)

theorem exit_follows {code : Int} (hrun : k.exit pid code = .ok after) :
    k.sched.Follows (StateArrow.endOf pid) after.sched := by
  obtain ⟨task, hfind, hlive, rfl⟩ := exit_eq_ok hrun
  have hpid := Scheduler.pid_of_find? hfind
  subst hpid
  have hput : k.sched.Follows (StateArrow.endOf task.pid) (k.sched.put (task.terminated code)) := by
    apply Scheduler.Follows.put hfind
    · exact Task.Turns.terminated hlive code
        (Or.inl ⟨rfl, Task.isZombie_eq_false_iff.mp hlive, rfl⟩)
    · exact fun _ _ hother => Or.inr ⟨hother, Or.inl rfl⟩
  have horphans : (k.sched.put (task.terminated code)).Follows StateArrow.stays
      (reparent (k.sched.put (task.terminated code)) task.pid) := by
    apply Scheduler.Follows.mapTasks
    intro other
    split
    · exact Task.Turns.adopt _ other
    · exact Task.Turns.refl other
  have hnotice : (reparent (k.sched.put (task.terminated code)) task.pid).Follows StateArrow.wakes
      (k.bury task code).sched := by
    apply Scheduler.Follows.mapTasks
    intro other
    split
    · exact Task.Turns.notifyParent other
    · exact (Task.Turns.refl other).mono fun _ _ => Or.inl
  refine ((hput.stays horphans).comp hnotice ?_).stays (reselect_follows _ task.pid)
  rintro q x y z (⟨rfl, hx, rfl⟩ | ⟨hother, hwakes⟩) hnext
  · -- The one that has terminated does not wake.
    rcases hnext with rfl | ⟨hwaits, -⟩
    · exact Or.inl ⟨rfl, hx, rfl⟩
    · cases hwaits
  · exact Or.inr ⟨hother, StateArrow.wakes_trans hwakes hnext⟩

theorem exit_diagram {code : Int} :
    Diagram k (.exit pid code) result (k.commit (k.exit pid code)).state := by
  cases hrun : k.exit pid code with
  | error e => exact Diagram.refl k
  | ok after =>
      refine Diagram.of_follows ((exit_follows hrun).mono ?_)
      rintro q x y (⟨rfl, hx, rfl⟩ | ⟨-, hwakes⟩)
      · exact Leads.ends hx code rfl
      · exact Leads.of_wakes hwakes (Or.inr rfl)

/-- A stop, a continue and every other signal but a kill leads along an arrow, and
none of them out of an uninterruptible sleep and back to work. -/
theorem leads_send {task : Task} {signal : Signal} (current : Option Pid)
    (hlive : task.isZombie = false) (hkill : signal ≠ .kill) :
    Leads (.kill task.pid signal) current task.pid task.state (task.send signal).state := by
  have hstate := Task.isZombie_eq_false_iff.mp hlive
  unfold Task.send
  rw [if_neg (by simp [hlive])]
  dsimp only
  split
  · exact ⟨Arrow.stops hstate rfl, nofun⟩
  · unfold Task.resume
    split
    · rename_i hstopped
      have hstopped : task.state = .stopped := hstopped
      rw [hstopped]
      exact ⟨Arrow.continues rfl, nofun⟩
    · exact Leads.stays current _
  · exact absurd rfl hkill
  · split
    · rename_i hwaits
      rw [hwaits.1]
      exact ⟨Arrow.wakes rfl, nofun⟩
    · exact Leads.stays current _

theorem kill_diagram {signal : Signal} :
    Diagram k (.kill pid signal) result (k.commit (k.kill pid signal)).state := by
  cases hrun : k.kill pid signal with
  | error e => exact Diagram.refl k
  | ok after =>
      obtain ⟨task, hfind, ⟨-, rfl⟩ | ⟨hlive, hsent⟩⟩ := kill_eq_ok hrun
      · exact Diagram.refl _
      · have hpid := Scheduler.pid_of_find? hfind
        subst hpid
        have hfollows (hkill : signal ≠ .kill) :
            k.sched.Follows (arrows (.kill task.pid signal) k.current)
              (k.sched.put (task.send signal)) :=
          Scheduler.Follows.put hfind
            (Task.Turns.send hlive (leads_send k.current hlive hkill))
            fun _ state _ => Leads.stays k.current state
        rcases hsent with ⟨rfl, hexit⟩ | ⟨rfl, rfl⟩ | ⟨hkill, -, rfl⟩
        · -- A kill may wake the process before it ends it.
          have hstirs : k.sched.Follows (StateArrow.stirs task.pid)
              (k.sched.put (task.send .kill)) := by
            have hsent := Task.isZombie_eq_of_outline (task.outline_send .kill)
            apply Scheduler.Follows.put hfind
            · exact Task.Turns.send hlive (Or.inl ⟨rfl, Task.isZombie_eq_false_iff.mp hlive,
                Task.isZombie_eq_false_iff.mp (hsent.trans hlive)⟩)
            · exact fun _ _ hother => Or.inr ⟨hother, rfl⟩
          refine Diagram.of_follows (hstirs.comp (exit_follows hexit) ?_)
          rintro q x y z (⟨rfl, hx, -⟩ | ⟨hother, rfl⟩) (⟨hself, hy, rfl⟩ | ⟨hne, hwakes⟩)
          · exact Leads.ends hx Signal.kill.exitCode rfl
          · exact absurd rfl hne
          · exact absurd hself hother
          · exact Leads.of_wakes hwakes (Or.inr rfl)
        · have hselect := reselect_follows
            { k with sched := k.sched.put (task.send .stop) } task.pid
          exact Diagram.of_follows ((hfollows (by decide)).stays hselect)
        · exact Diagram.of_follows (hfollows hkill)

theorem markWaiting_follows (k : Kernel) (parent : Pid) (waiting : Bool) :
    k.sched.Follows StateArrow.stays (k.sched.update parent (Task.markWaiting waiting)) := by
  apply Scheduler.Follows.mapTasks
  intro task
  split
  · exact Task.Turns.markWaiting waiting task
  · exact Task.Turns.refl task

theorem wait_diagram (h : k.sched.Proper) {parent : Pid}
    (hresult : ∀ pid code, (k.wait parent).result = .ok (pid, code) →
      result = .ok (.reaped pid code)) :
    Diagram k request result (k.wait parent).state := by
  rcases wait_cases k parent with
    ⟨-, child, hchild, hdead, hrun⟩ | ⟨⟨e, hrun, -⟩, -⟩ | ⟨-, -, -, hrun⟩
  · obtain ⟨hmem, -⟩ := List.mem_filter.mp hchild
    have hfound : k.find? child.pid = some child :=
      (Scheduler.find?_eq_some_iff h).mpr ⟨hmem, rfl⟩
    have hmark := markWaiting_follows k parent false
    have hfind : ∀ q, (k.wait parent).state.find? q =
        if child.pid = q then none
        else (k.sched.update parent (Task.markWaiting false)).find? q := by
      intro q
      rw [hrun]
      show (Machine.remove _ child.pid).2.sched.find? q = _
      rw [Machine.sched_remove]
      exact Scheduler.find?_remove _ child.pid q
    constructor
    · intro q task htask
      by_cases hself : child.pid = q
      · subst hself
        rw [hfound] at htask
        cases htask
        refine Or.inr ⟨by rw [hfind, if_pos rfl], hdead, hresult _ _ ?_⟩
        rw [hrun]
      · obtain ⟨turned, hturned, hturns⟩ := hmark.exists_of_find? htask
        refine Or.inl ⟨turned, ?_, hturns.mono fun _ _ => Leads.of_stays⟩
        rw [hfind, if_neg hself]
        exact hturned
    · intro q task hnone htask
      rw [hfind] at htask
      split at htask
      · cases htask
      · rw [hmark.find?_eq_none hnone] at htask
        cases htask
  · rw [hrun]
    exact Diagram.refl k
  · rw [hrun]
    exact Diagram.of_stays (markWaiting_follows k parent true)

theorem waitOrBlock_diagram (h : k.sched.Proper) (parent : Pid) :
    Diagram k (.waitOrBlock parent) (k.serve (.waitOrBlock parent)).result
      (k.serve (.waitOrBlock parent)).state := by
  show Diagram k _ ((k.waitOrBlock parent).result.map _) (k.waitOrBlock parent).state
  rcases waitOrBlock_cases k parent with ⟨-, hrun⟩ | ⟨hblocks, hrun⟩
  · rw [hrun]
    apply wait_diagram h
    intro pid code hreaped
    show ((k.wait parent).result.map some).map _ = _
    rw [hreaped]
    rfl
  · rw [hrun]
    rcases wait_cases k parent with
      ⟨-, child, -, -, hwait⟩ | ⟨⟨e, hwait, he⟩, -⟩ | ⟨-, -, -, hwait⟩
    · rw [hwait] at hblocks
      cases hblocks
    · rw [hwait] at hblocks
      cases hblocks
      exact absurd rfl he
    · have hmark := markWaiting_follows k parent true
      rw [hwait]
      dsimp only
      rcases blockProcess_cases _ parent with ⟨e, hblock⟩ | ⟨task, blocked, hfind, hslept, hblock⟩
      · rw [hblock]
        exact Diagram.of_stays hmark
      · have hpid := Scheduler.pid_of_find? hfind
        have hsleeps : task.Turns (arrows (.waitOrBlock parent) k.current) blocked :=
          Task.Turns.block hslept ⟨Arrow.waits (by rw [hpid]), nofun⟩
        have hput := Scheduler.Follows.put hfind hsleeps
          fun _ state _ => Leads.stays k.current state
        have hselect := reselect_follows
          { k with sched := (k.sched.update parent (Task.markWaiting true)).put blocked } parent
        rw [hblock]
        refine Diagram.of_follows ((hmark.comp hput ?_).stays hselect)
        rintro q x y z rfl hnext
        exact hnext

theorem exec_diagram (k : Kernel) (pid : Pid) :
    Diagram k request result (k.commit (k.exec pid)).state := by
  cases hrun : k.exec pid with
  | error e => exact Diagram.refl k
  | ok after =>
      obtain ⟨task, hfind, hlive, rfl⟩ := exec_eq_ok hrun
      exact Diagram.of_stays (Scheduler.Follows.put hfind
        (Task.Turns.execReset hlive k.newSpace) fun _ _ _ => rfl)

theorem access_diagram (k : Kernel) (pid : Pid) (act : Memory.Request) :
    Diagram k request result (k.access pid act).state := by
  rcases access_cases k pid act with ⟨e, hrun, -⟩ | ⟨task, space, hfind, hspace, hrun⟩
  · rw [hrun]
    exact Diagram.refl k
  · rw [hrun]
    exact Diagram.of_stays (Scheduler.Follows.put hfind (Task.Turns.withSpace hspace)
      fun _ _ _ => rfl)

theorem serve_diagram (h : k.sched.Proper) (request : Request) :
    Diagram k request (k.serve request).result (k.serve request).state := by
  cases request with
  | createInit => exact createInit_diagram k
  | spawn name parent pages => exact spawn_diagram k name parent pages
  | schedule => exact Diagram.of_stays (Scheduler.Follows.schedule k.sched)
  | timerTick => exact Diagram.of_stays (timerTick_follows k)
  | sleep interruptible => exact sleep_diagram k interruptible
  | wakeAll =>
      have hwakes : k.sched.Follows StateArrow.wakes k.wakeAll.2.sched :=
        Scheduler.Follows.mapTasks Task.Turns.wake
      exact Diagram.of_follows (hwakes.mono fun _ _ _ h => Leads.of_wakes h (Or.inl rfl))
  | fork parent => exact fork_diagram k parent
  | exit pid code => exact exit_diagram
  | wait parent =>
      refine wait_diagram h fun pid code hreaped => ?_
      show (k.wait parent).result.map _ = _
      rw [hreaped]
      rfl
  | waitOrBlock parent => exact waitOrBlock_diagram h parent
  | kill pid signal => exact kill_diagram
  | exec pid => exact exec_diagram k pid
  | access pid request => exact access_diagram k pid request
  | shutdown => exact Diagram.of_stays (Scheduler.Follows.refl k.sched)

/-- Every task of the table is sound. -/
def AllSound (k : Kernel) : Prop :=
  ∀ pid task, k.find? pid = some task → task.Sound

theorem Diagram.allSound (h : Diagram k request result after) (hsound : k.AllSound) :
    after.AllSound := by
  intro pid task hfind
  cases hold : k.find? pid with
  | none => exact (h.starts pid task hold hfind).2
  | some old =>
      rcases h.moves pid old hold with ⟨turned, hturned, hturns⟩ | ⟨hgone, -, -⟩
      · rw [hturned] at hfind
        cases hfind
        exact hturns.sound (hsound pid old hold)
      · rw [hgone] at hfind
        cases hfind

theorem Served.Sound.keepsToDiagram {event : Served} (h : event.Sound)
    (hsound : event.before.AllSound) : event.KeepsToDiagram := by
  have hdiagram := serve_diagram h.dispatched.proper event.request
  rw [h.serve_eq] at hdiagram
  constructor
  · intro pid task hfind
    have hpid := Scheduler.pid_of_find? hfind
    subst hpid
    rcases hdiagram.moves _ task hfind with ⟨turned, hturned, hturns⟩ | ⟨hgone, hdead, hresult⟩
    · exact Or.inl ⟨turned, hturned, hturns.arrow.arrow, hturns.kept⟩
    · obtain ⟨code, hcode⟩ := Option.isSome_iff_exists.mp
        ((hsound _ task hfind).code_iff.mp hdead)
      rw [hcode] at hresult
      exact Or.inr ⟨hdead, hgone, code, hcode, hresult⟩
  · intro pid task hnone hfind
    exact (hdiagram.starts pid task hnone hfind).1

theorem ofConfig_allSound (config : Config) : (ofConfig config).AllSound := by
  intro pid task hfind
  simp [Kernel.find?, Scheduler.find?, ofConfig] at hfind

/-- Whatever is asked of a kernel from its start on, every task keeps to the state
diagram, and every task that there is at the end is sound. -/
theorem keepsToDiagram_of_boot {config : Config} (hboot : boot config = .ok k)
    (requests : List Request) :
    (∀ event ∈ k.history requests, event.KeepsToDiagram) ∧
      ∀ task ∈ (k.serveAll requests).2.sched.tasks, task.Sound := by
  obtain ⟨-, rfl⟩ := boot_eq_ok_iff.mp hboot
  have hstart := ofConfig_dispatched config
  have hserve : ∀ k request, Dispatched k → k.AllSound → (k.serve request).state.AllSound :=
    fun k request h hsound => (serve_diagram h.proper request).allSound hsound
  constructor
  · intro event hmem
    obtain ⟨hevent, hsound⟩ := holds_of_mem_history AllSound hserve hstart
      (ofConfig_allSound config) hmem
    exact hevent.keepsToDiagram hsound
  · intro task hmem
    have hend := serveAll_invariant (fun k => Dispatched k ∧ k.AllSound)
      (fun k request h => ⟨serve_dispatched h.1 request, hserve k request h.1 h.2⟩)
      ⟨hstart, ofConfig_allSound config⟩ requests
    exact hend.2 task.pid task ((Scheduler.find?_eq_some_iff hend.1.proper).mpr ⟨hmem, rfl⟩)

/-- A process sleeps, is stopped, continued and killed, and reaped in the end. -/
theorem keepsToDiagram_sleep_stop_kill :
    let requests : List Request :=
      [.createInit, .spawn "a" initPid 0, .schedule, .sleep true, .wakeAll, .kill 2 .stop,
        .kill 2 .cont, .kill 2 .kill, .wait initPid]
    boot Config.small = .ok (ofConfig Config.small) ∧
    (((ofConfig Config.small).history requests).map
      fun event => (event.after.find? 2).map Task.state) =
        [none, some .runnable, some .runnable, some .runnable, some .runnable, some .stopped,
          some .runnable, some .zombie, none] ∧
    (∀ event ∈ (ofConfig Config.small).history requests, event.KeepsToDiagram) ∧
      ∀ task ∈ ((ofConfig Config.small).serveAll requests).2.sched.tasks, task.Sound := by
  have hboot : boot Config.small = .ok (ofConfig Config.small) :=
    boot_eq_ok_iff.mpr ⟨by decide, rfl⟩
  intro requests
  refine ⟨hboot, ?_, keepsToDiagram_of_boot hboot requests⟩
  decide +kernel

end Kernel

end Kernelet
