import Kernelet.Proofs.Kernel.Balance
import Kernelet.Proofs.Process.Selection

/-!
The token and the selection go together. The selected process can run and owns its
space, and it has the token as long as the gate is open (`Dispatched`). An operation
that takes the CPU away from the selected process selects another before it is over;
in between the process is no longer fit to run (`DispatchedBut`), and `reselect` mends
that.
-/

namespace Kernelet.Kernel

/-- The tasks that are in the table and not asleep are in order, and the token
is where it should be, but process `pid` may have been selected and be unfit to
run. -/
structure DispatchedBut (pid : Option Pid) (k : Kernel) : Prop where
  proper : k.sched.Proper
  housed : k.sched.Housed
  canRun : ∀ q, k.current = some q → some q ≠ pid → k.sched.CanRun q
  holder_eq : k.gate.closed = false → k.gate.holder = k.current

/-- The selected process can run, and it has the token while the gate is open. -/
abbrev Dispatched (k : Kernel) : Prop :=
  DispatchedBut none k

variable {k after : Kernel} {pid : Pid}

/-- A selection, whatever was selected before it. -/
theorem schedule_dispatched (hproper : k.sched.Proper) (hhoused : k.sched.Housed) :
    Dispatched k.schedule.2 := by
  have hsame := Scheduler.SameOutline.schedule k.sched
  refine ⟨hsame.proper hproper, hhoused.of_sameOutline hsame, ?_, ?_⟩
  · intro q hq _
    exact Scheduler.canRun_of_schedule hq
  · intro hopen
    have hgate : k.gate.closed = false := by
      rw [← Gate.closed_grant k.gate k.sched.schedule.1]
      exact hopen
    exact (Gate.holder_grant hgate _).trans k.sched.schedule_fst

theorem DispatchedBut.reselect (h : DispatchedBut (some pid) k) : Dispatched (k.reselect pid) := by
  unfold Kernel.reselect
  split
  · exact schedule_dispatched h.proper h.housed
  · rename_i hother
    refine ⟨h.proper, h.housed, ?_, h.holder_eq⟩
    intro q hq _
    apply h.canRun q hq
    rintro ⟨rfl⟩
    exact hother hq

namespace DispatchedBut

variable {but : Option Pid}

/-- A task goes back to its place, changed but fit to run if it was before. -/
theorem put (h : DispatchedBut but k) {task : Task} (new : Task) (hfind : k.find? pid = some task)
    (hnew : new.pid = task.pid) (hruns : task.isRunnable = true → new.isRunnable = true)
    (hspace : new.isZombie = false → new.space.isSome = true) (pool : FramePool) :
    DispatchedBut but { k with sched := k.sched.put new, pool } where
  proper := h.proper.put new
  housed := h.housed.put hspace
  canRun q hq hne := (h.canRun q hq hne).put h.proper hfind hnew hruns
  holder_eq := h.holder_eq

/-- A task goes back to its place that may be unfit to run. -/
theorem putAny (h : Dispatched k) (new : Task)
    (hspace : new.isZombie = false → new.space.isSome = true) (pool : FramePool) :
    DispatchedBut (some new.pid) { k with sched := k.sched.put new, pool } where
  proper := h.proper.put new
  housed := h.housed.put hspace
  canRun q hq hne := by
    apply (h.canRun q hq (by simp)).put_of_ne
    rintro rfl
    exact hne rfl
  holder_eq := h.holder_eq

theorem mapTasks (h : DispatchedBut but k) {change : Task → Task}
    (hruns : Task.KeepsRunnable change) (hspace : Task.KeepsSpace change) :
    DispatchedBut but { k with sched := k.sched.mapTasks change } where
  proper := h.proper.mapTasks hspace.pid
  housed := h.housed.mapTasks hspace
  canRun q hq hne := (h.canRun q hq hne).mapTasks hruns
  holder_eq := h.holder_eq

theorem update (h : DispatchedBut but k) (q : Pid) {change : Task → Task}
    (hruns : Task.KeepsRunnable change) (hspace : Task.KeepsSpace change) :
    DispatchedBut but { k with sched := k.sched.update q change } :=
  h.mapTasks (hruns.ite _) (hspace.ite _)

end DispatchedBut

/-- A task that is running does not notice that it is told something. -/
theorem send_isRunnable {task : Task} (signal : Signal) (hstop : signal ≠ .stop)
    (hruns : task.isRunnable = true) : (task.send signal).isRunnable = true := by
  obtain ⟨hstate, hcounter⟩ := Task.isRunnable_iff.mp hruns
  cases signal <;>
    simp_all [Task.send, Task.isRunnable, Task.isZombie, Task.resume, TaskState.isWaiting]

theorem notifyParent_keepsRunnable : Task.KeepsRunnable notifyParent where
  pid := notifyParent_keepsSpace.pid
  isRunnable := by
    intro task hruns
    have hsent := send_isRunnable .chld (by decide) hruns
    unfold notifyParent
    dsimp only
    split
    · exact Task.KeepsRunnable.wake.isRunnable _ hsent
    · exact hsent

theorem timerTick_dispatched (h : Dispatched k) : Dispatched k.timerTick.2 := by
  have hclock : DispatchedBut none
      { k with sched := { k.sched with jiffies := k.sched.jiffies + 1 } } :=
    ⟨h.proper.of_perm (List.Perm.refl _) rfl, h.housed, h.canRun, h.holder_eq⟩
  unfold timerTick
  rcases k.sched.timerTick_cases with ⟨-, hrun⟩ | ⟨task, hcurrent, ⟨hspent, hrun⟩ | ⟨hleft, hrun⟩⟩
  · rw [hrun]
    exact hclock
  · -- The slice is used up, and the tick ends with a selection.
    obtain ⟨pid, -, hfind⟩ := Scheduler.currentTask?_eq_some_iff.mp hcurrent
    have hput := DispatchedBut.putAny hclock task.spendTick
      (h.housed task (Scheduler.mem_tasks_of_find? hfind)) k.pool
    have hnext := schedule_dispatched hput.proper hput.housed
    rw [hrun]
    dsimp only
    rw [← Scheduler.schedule_fst]
    exact hnext
  · obtain ⟨pid, -, hfind⟩ := Scheduler.currentTask?_eq_some_iff.mp hcurrent
    rw [hrun]
    apply hclock.put task.spendTick hfind rfl
    · intro hruns
      refine Task.isRunnable_iff.mpr ⟨(Task.isRunnable_iff.mp hruns).1, ?_⟩
      exact Nat.pos_of_ne_zero hleft
    · exact h.housed task (Scheduler.mem_tasks_of_find? hfind)

theorem sleep_dispatched (h : Dispatched k) (interruptible : Bool) :
    Dispatched (k.sleep interruptible).state := by
  unfold sleep
  rcases k.sched.sleep_cases interruptible with
    ⟨-, hrun⟩ | ⟨task, hcurrent, ⟨e, -, hrun⟩ | ⟨blocked, hblock, hrun⟩⟩
  · rw [hrun]
    exact schedule_dispatched h.proper h.housed
  · rw [hrun]
    exact h
  · obtain ⟨pid, -, hfind⟩ := Scheduler.currentTask?_eq_some_iff.mp hcurrent
    have houtline := Task.outline_block hblock
    have hput := DispatchedBut.putAny h blocked
      (by
        rw [Task.space_eq_of_outline houtline, Task.isZombie_eq_of_outline houtline]
        exact h.housed task (Scheduler.mem_tasks_of_find? hfind)) k.pool
    rw [hrun]
    exact schedule_dispatched hput.proper hput.housed

theorem wakeAll_dispatched (h : Dispatched k) : Dispatched k.wakeAll.2 :=
  h.mapTasks Task.KeepsRunnable.wake Task.KeepsSpace.wake

/-- A task with a space and the next number joins the table, or is let go. -/
theorem enlist_dispatched (h : Dispatched k) {task : Task} (hpid : task.pid = k.sched.nextNumber)
    (hspace : task.space.isSome = true) : Dispatched (k.enlist task) := by
  rcases k.enlist_cases task with ⟨sched, hadd, -, hrun⟩ | ⟨e, -, hrun⟩
  · rw [hrun]
    have hhoused : k.sched.allocatePid.2.Housed := h.housed
    refine ⟨h.proper.add hpid hadd, hhoused.add hspace hadd, ?_, ?_⟩
    · intro q hq _
      have hbefore : k.current = some q := (Scheduler.current_add hadd).symm.trans hq
      apply (h.canRun q hbefore (by simp)).of_subset
      intro other hmem
      exact (Scheduler.tasks_add_perm hadd).mem_iff.mpr (List.mem_cons_of_mem _ hmem)
    · intro hopen
      exact (h.holder_eq hopen).trans (Scheduler.current_add hadd).symm
  · rw [hrun]
    exact ⟨h.proper.allocatePid, h.housed, h.canRun, h.holder_eq⟩

theorem spawn_dispatched (h : Dispatched k) (name : String) (parent : Pid) (pages : Nat) :
    Dispatched (k.spawn name parent pages).state := by
  have hpool : ∀ pool, Dispatched { k with pool } :=
    fun _ => ⟨h.proper, h.housed, h.canRun, h.holder_eq⟩
  rcases spawn_cases k name parent pages with
    ⟨⟨e, hrun⟩, -⟩ | ⟨-, m, ⟨e, -, hrun⟩ | ⟨-, hrun⟩⟩
  · rw [hrun]
    exact h
  · rw [hrun]
    exact hpool m.pool
  · rw [hrun]
    exact enlist_dispatched (hpool m.pool) rfl rfl

theorem createInit_dispatched (h : Dispatched k) : Dispatched k.createInit.state := by
  unfold createInit
  split
  · exact h
  · exact spawn_dispatched h "init" 0 initPages

theorem fork_dispatched (h : Dispatched k) (parent : Pid) :
    Dispatched (k.fork parent).state := by
  rcases fork_cases k parent with ⟨⟨e, hrun⟩, -⟩ | ⟨task, space, m, hfind, -, -, hfork⟩
  · rw [hrun]
    exact h
  · have hshared : Dispatched { k with
        sched := k.sched.put { task with space := some m.space }
        pool := m.pool } :=
      h.put { task with space := some m.space } hfind rfl (fun hruns => hruns)
        (fun _ => rfl) m.pool
    rcases hfork with ⟨e, -, hrun⟩ | ⟨child, -, hrun⟩
    · rw [hrun]
      exact hshared
    · rw [hrun]
      exact enlist_dispatched hshared rfl rfl

/-- The children of a process that ends go to its heir, and stay as they are. -/
theorem DispatchedBut.reparent {but : Option Pid} (h : DispatchedBut but k) (pid : Pid) :
    DispatchedBut but { k with sched := reparent k.sched pid } := by
  have hruns : Task.KeepsRunnable fun task => { task with ppid := heir pid } :=
    ⟨fun _ => rfl, fun _ hruns => hruns⟩
  exact h.mapTasks (hruns.ite _) ((Task.KeepsSpace.adopt (heir pid)).ite _)

theorem exit_dispatched (h : Dispatched k) {code : Int} (hrun : k.exit pid code = .ok after) :
    Dispatched after := by
  obtain ⟨task, hfind, -, rfl⟩ := exit_eq_ok hrun
  have hpid := Scheduler.pid_of_find? hfind
  subst hpid
  apply DispatchedBut.reselect
  have hput := DispatchedBut.putAny h (task.terminated code)
    (by simp [Task.isZombie, Task.terminated]) (task.discard k.pool)
  exact (hput.reparent task.pid).update task.ppid notifyParent_keepsRunnable
    notifyParent_keepsSpace

theorem kill_dispatched (h : Dispatched k) {signal : Signal}
    (hrun : k.kill pid signal = .ok after) : Dispatched after := by
  obtain ⟨task, hfind, ⟨-, rfl⟩ | ⟨-, hsent⟩⟩ := kill_eq_ok hrun
  · exact h
  · have houtline := task.outline_send signal
    have hpid := Task.pid_eq_of_outline houtline
    have hspace : (task.send signal).isZombie = false →
        (task.send signal).space.isSome = true := by
      rw [Task.space_eq_of_outline houtline, Task.isZombie_eq_of_outline houtline]
      exact h.housed task (Scheduler.mem_tasks_of_find? hfind)
    rcases hsent with ⟨rfl, hexit⟩ | ⟨-, rfl⟩ | ⟨-, hstop, rfl⟩
    · have hruns : task.isRunnable = true → (task.send .kill).isRunnable = true :=
        send_isRunnable .kill (by decide)
      exact exit_dispatched (h.put _ hfind hpid hruns hspace k.pool) hexit
    · have hput := DispatchedBut.putAny h _ hspace k.pool
      rw [hpid, Scheduler.pid_of_find? hfind] at hput
      exact hput.reselect
    · exact h.put _ hfind hpid (send_isRunnable signal hstop) hspace k.pool

theorem mark_dispatched (h : Dispatched k) (parent : Pid) (waiting : Bool) :
    Dispatched { k with sched := k.sched.update parent (Task.markWaiting waiting) } :=
  h.update parent ⟨fun _ => rfl, fun _ hruns => hruns⟩ (markWaiting_keepsSpace waiting)

/-- A zombie that leaves the table was not selected. -/
theorem remove_dispatched (h : Dispatched k) {child : Task} (hmem : child ∈ k.sched.tasks)
    (hdead : child.isZombie = true) :
    Dispatched (k.withMachine (Machine.remove k.toMachine child.pid).2) := by
  have hfind := (Scheduler.find?_eq_some_iff h.proper).mpr ⟨hmem, rfl⟩
  have hother : k.current ≠ some child.pid := fun hcurrent =>
    Scheduler.not_canRun_of_zombie h.proper hfind hdead (h.canRun child.pid hcurrent (by simp))
  have hcurrent : (k.sched.remove child.pid).2.current = k.current :=
    (k.sched.current_remove child.pid).resolve_right fun hgone => hother hgone.1
  have hsched : (Machine.remove k.toMachine child.pid).2.sched = (k.sched.remove child.pid).2 :=
    Machine.sched_remove k.toMachine child.pid
  constructor
  · show (Machine.remove k.toMachine child.pid).2.sched.Proper
    rw [hsched]
    exact h.proper.remove child.pid
  · show (Machine.remove k.toMachine child.pid).2.sched.Housed
    rw [hsched]
    exact h.housed.remove child.pid
  · show ∀ q, (Machine.remove k.toMachine child.pid).2.sched.current = some q → _ →
      (Machine.remove k.toMachine child.pid).2.sched.CanRun q
    rw [hsched, hcurrent]
    intro q hq hne
    apply (h.canRun q hq hne).remove
    rintro rfl
    exact hother hq
  · intro hopen
    show k.gate.holder = (Machine.remove k.toMachine child.pid).2.sched.current
    rw [hsched, hcurrent]
    exact h.holder_eq hopen

theorem wait_dispatched (h : Dispatched k) (parent : Pid) :
    Dispatched (k.wait parent).state := by
  rcases wait_cases k parent with
    ⟨-, child, hchild, hdead, hrun⟩ | ⟨⟨e, hrun, -⟩, -⟩ | ⟨-, -, -, hrun⟩
  · obtain ⟨hmem, -⟩ := List.mem_filter.mp hchild
    have hmarked := mark_dispatched h parent false
    -- The child may be its own parent as far as the table goes, and marked as well.
    have hsame : ∃ marked ∈ (k.sched.update parent (Task.markWaiting false)).tasks,
        marked.pid = child.pid ∧ marked.isZombie = true := by
      rw [Scheduler.tasks_update]
      refine ⟨_, List.mem_map_of_mem hmem, ?_, ?_⟩
      · split <;> rfl
      · split <;> exact hdead
    obtain ⟨marked, hthere, hpid, hgone⟩ := hsame
    rw [hrun, ← hpid]
    exact remove_dispatched hmarked hthere hgone
  · rw [hrun]
    exact h
  · rw [hrun]
    exact mark_dispatched h parent true

theorem blockProcess_dispatched (h : Dispatched k) (pid : Pid) :
    Dispatched (k.blockProcess pid).state := by
  rcases blockProcess_cases k pid with ⟨e, hrun⟩ | ⟨task, blocked, hfind, hblock, hrun⟩
  · rw [hrun]
    exact h
  · have houtline := Task.outline_block hblock
    have hput := DispatchedBut.putAny h blocked
      (by
        rw [Task.space_eq_of_outline houtline, Task.isZombie_eq_of_outline houtline]
        exact h.housed task (Scheduler.mem_tasks_of_find? hfind)) k.pool
    rw [Task.pid_eq_of_outline houtline, Scheduler.pid_of_find? hfind] at hput
    rw [hrun]
    exact hput.reselect

theorem waitOrBlock_dispatched (h : Dispatched k) (parent : Pid) :
    Dispatched (k.waitOrBlock parent).state := by
  have hwait := wait_dispatched h parent
  rcases waitOrBlock_cases k parent with ⟨-, hrun⟩ | ⟨-, hrun⟩
  · rw [hrun]
    exact hwait
  · rw [hrun]
    exact blockProcess_dispatched hwait parent

theorem exec_dispatched (h : Dispatched k) (hrun : k.exec pid = .ok after) :
    Dispatched after := by
  obtain ⟨task, hfind, -, rfl⟩ := exec_eq_ok hrun
  exact h.put { task.execReset with space := some k.newSpace } hfind rfl
    (fun hruns => hruns) (fun _ => rfl) _

theorem accessSpace_dispatched {α : Type} (h : Dispatched k) (pid : Pid)
    (act : Memory → α × Memory) : Dispatched (k.accessSpace pid act).state := by
  rcases accessSpace_cases k pid act with ⟨e, hrun, -⟩ | ⟨task, space, hfind, -, hrun⟩
  · rw [hrun]
    exact h
  · rw [hrun]
    exact h.put { task with space := some (act ⟨space, k.pool⟩).2.space } hfind rfl
      (fun hruns => hruns) (fun _ => rfl) _

theorem shutdown_dispatched (h : Dispatched k) : Dispatched k.shutdown :=
  ⟨h.proper, h.housed, h.canRun, fun hopen => by cases hopen⟩

/-- A body that passes the gate, or gives up the CPU, leaves the token where it is. -/
theorem look_dispatched (h : Dispatched k) {gate : Gate} (hlook : k.gate.look pid = .passed gate) :
    Dispatched { k with gate } := by
  obtain ⟨-, -, -, rfl⟩ := Gate.look_eq_passed_iff.mp hlook
  exact ⟨h.proper, h.housed, h.canRun, h.holder_eq⟩

theorem release_dispatched (h : Dispatched k) (pid : Pid) :
    Dispatched { k with gate := k.gate.release pid } := by
  refine ⟨h.proper, h.housed, h.canRun, ?_⟩
  rw [Gate.closed_release, Gate.holder_release]
  exact h.holder_eq

theorem commit_dispatched (h : Dispatched k) {result : Except KernelError Kernel}
    (hresult : ∀ after, result = .ok after → Dispatched after) :
    Dispatched (k.commit result).state := by
  cases result with
  | ok after => exact hresult after rfl
  | error e => exact h

/-- Every request leaves the token with the selected process, and that process fit
to run. -/
theorem serve_dispatched (h : Dispatched k) (request : Request) :
    Dispatched (k.serve request).state := by
  cases request with
  | createInit => exact createInit_dispatched h
  | spawn name parent pages => exact spawn_dispatched h name parent pages
  | schedule => exact schedule_dispatched h.proper h.housed
  | timerTick => exact timerTick_dispatched h
  | sleep interruptible => exact sleep_dispatched h interruptible
  | wakeAll => exact wakeAll_dispatched h
  | fork parent => exact fork_dispatched h parent
  | exit pid code => exact commit_dispatched h fun after hrun => exit_dispatched h hrun
  | wait parent => exact wait_dispatched h parent
  | waitOrBlock parent => exact waitOrBlock_dispatched h parent
  | kill pid signal => exact commit_dispatched h fun after hrun => kill_dispatched h hrun
  | exec pid => exact commit_dispatched h fun after hrun => exec_dispatched h hrun
  | access pid request =>
      exact accessSpace_dispatched h pid fun m =>
        ((m.serve request).result, (m.serve request).state)
  | shutdown => exact shutdown_dispatched h

theorem serveAll_dispatched (h : Dispatched k) (requests : List Request) :
    Dispatched (k.serveAll requests).2 :=
  serveAll_invariant Dispatched (fun _ request h => serve_dispatched h request) h requests

theorem ofConfig_dispatched (config : Config) : Dispatched (ofConfig config) where
  proper := Scheduler.Proper.of_new _
  housed := Scheduler.Housed.of_new _
  canRun := by
    intro q hq
    cases hq
  holder_eq _ := rfl

/-- The selected process is not asleep, so that it can be put to sleep. -/
theorem exists_sleep_ok (h : Dispatched k) (interruptible : Bool) :
    ∃ next, (k.sleep interruptible).result = .ok next := by
  unfold sleep
  rcases k.sched.sleep_cases interruptible with
    ⟨-, hrun⟩ | ⟨task, hcurrent, ⟨e, hrefused, -⟩ | ⟨blocked, -, hrun⟩⟩
  · rw [hrun]
    exact ⟨_, rfl⟩
  · obtain ⟨pid, hpid, hfind⟩ := Scheduler.currentTask?_eq_some_iff.mp hcurrent
    have hruns := (h.canRun pid hpid (by simp)).isRunnable_of_find? h.proper hfind
    have hstate := (Task.isRunnable_iff.mp hruns).1
    simp [Task.block, hstate] at hrefused
  · rw [hrun]
    exact ⟨_, rfl⟩

end Kernelet.Kernel
