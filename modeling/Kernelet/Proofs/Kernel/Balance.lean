import Kernelet.Proofs.Kernel.Lifecycle
import Kernelet.Proofs.Process.Balance

/-!
Every operation of the kernel keeps the pool in balance with the tasks of the
table, whether it succeeds or fails (`serve_fits`). In the middle of an operation
an address space may have no task to own it: the image of a process that is
not yet in the table, or the child of a fork. It is then beside the tables of
the tasks in what the pool backs, until it is put into the table or given back.
-/

namespace Kernelet.Kernel

variable {total reserved : Nat} {k after : Kernel} {pid : Pid}

/-- The tasks of the kernel and its pool are in balance. -/
abbrev Fits (total reserved : Nat) (k : Kernel) : Prop :=
  Machine.Fits total reserved k.toMachine

theorem schedule_fits (h : Fits total reserved k) : Fits total reserved k.schedule.2 :=
  Machine.Fits.of_sameOutline h (Scheduler.SameOutline.schedule k.sched)

theorem reselect_fits (h : Fits total reserved k) (pid : Pid) :
    Fits total reserved (k.reselect pid) := by
  unfold reselect
  split
  · exact schedule_fits h
  · exact h

theorem timerTick_fits (h : Fits total reserved k) : Fits total reserved k.timerTick.2 := by
  have hsame := Scheduler.SameOutline.timerTick h.proper
  unfold timerTick
  rcases hrun : k.sched.timerTick with ⟨_ | _, sched⟩
  · rw [hrun] at hsame
    exact Machine.Fits.of_sameOutline h hsame
  · rw [hrun] at hsame
    exact Machine.Fits.of_sameOutline h hsame

theorem sleep_fits (h : Fits total reserved k) (interruptible : Bool) :
    Fits total reserved (k.sleep interruptible).state := by
  unfold sleep
  split
  · exact h
  · rename_i hrun
    exact Machine.Fits.of_sameOutline h (Scheduler.SameOutline.sleep h.proper hrun)

theorem wakeAll_fits (h : Fits total reserved k) : Fits total reserved k.wakeAll.2 :=
  Machine.Fits.of_sameOutline h (Scheduler.SameOutline.wakeAll k.sched)

/-- An image that cannot be built is given back; one that can be is in balance
beside the tables that were there. -/
theorem newImage_fits {tables : List PageTable} (h : Balanced total reserved k.pool tables)
    (pages : Nat) :
    match k.newImage pages with
    | ⟨.error _, m⟩ => Balanced total reserved m.pool tables
    | ⟨.ok (), m⟩ => Memory.Fits total reserved tables m := by
  have hempty : ∀ p, k.newSpace.table.lookup p = none := PageTable.lookup_new _
  have hspace : Memory.Fits total reserved tables ⟨k.newSpace, k.pool⟩ := h.cons_empty hempty
  have hpages := Memory.mapPages_fits hspace 0 .userData pages
  unfold newImage
  rcases hrun : (Memory.mk k.newSpace k.pool).mapPages 0 .userData pages with ⟨_ | _, m⟩
  · rw [hrun] at hpages
    exact (Memory.release_fits hpages).of_cons_empty m.space.table.lookup_clear
  · rw [hrun] at hpages
    exact hpages

theorem spawn_fits (h : Fits total reserved k) (name : String) (parent : Pid) (pages : Nat) :
    Fits total reserved (k.spawn name parent pages).state := by
  have himage := newImage_fits h.balanced pages
  rcases spawn_cases k name parent pages with
    ⟨⟨e, hrun⟩, -⟩ | ⟨-, m, ⟨e, hbuilt, hrun⟩ | ⟨hbuilt, hrun⟩⟩
  · rw [hrun]
    exact h
  · rw [hbuilt] at himage
    rw [hrun]
    exact ⟨h.proper, himage, h.bare⟩
  · rw [hbuilt] at himage
    rw [hrun]
    exact Machine.Fits.add h.proper h.bare rfl rfl himage

theorem createInit_fits (h : Fits total reserved k) :
    Fits total reserved k.createInit.state := by
  unfold createInit
  split
  · exact h
  · exact spawn_fits h "init" 0 initPages

theorem fork_fits (h : Fits total reserved k) (parent : Pid) :
    Fits total reserved (k.fork parent).state := by
  rcases fork_cases k parent with
    ⟨⟨e, hrun⟩, -⟩ | ⟨task, space, m, hfind, hlive, hspace, hfork⟩
  · rw [hrun]
    exact h
  · have hpid := Scheduler.pid_of_find? hfind
    subst hpid
    obtain ⟨child, after, hrun, hbalanced, -⟩ := Memory.fork_eq (h.focus_space hfind hspace)
    rcases hfork with ⟨e, hfailed, -⟩ | ⟨other, hdone, hforked⟩
    · rw [hrun] at hfailed
      cases hfailed
    · rw [hrun] at hdone
      cases hdone
      rw [hforked]
      have hput : k.sched.find? { task with space := some m.space }.pid = some task := hfind
      have hperm := tablesOf_perm (Scheduler.tasks_put_perm h.proper hput)
      refine Machine.Fits.add (h.proper.put _) ?_ rfl rfl ?_
      · apply Machine.Fits.bare_put h.bare
        intro hdead
        have hsame : task.isZombie = true := hdead
        rw [hlive] at hsame
        cases hsame
      · apply hbalanced.perm
        exact (List.Perm.swap _ _ _).trans (hperm.symm.cons _)

/-- A task that learns of a child's end keeps what it is and owns. -/
theorem notifyParent_keepsSpace : Task.KeepsSpace notifyParent := by
  have hlasting : Task.Lasting fun task => (task.pid, task.space, task.isZombie) := by
    refine ⟨fun _ _ => rfl, fun _ _ => rfl, ?_⟩
    intro task state pending hlive hstate
    have hafter : { task with state, pending }.isZombie = false := Task.isZombie_of_state hstate
    rw [hlive, hafter]
  have hkept := hlasting.notifyParent fun _ _ => rfl
  constructor
  · intro task
    exact congrArg (fun x => x.1) (hkept task)
  · intro task
    exact congrArg (fun x => x.2.1) (hkept task)
  · intro task
    exact congrArg (fun x => x.2.2) (hkept task)

theorem markWaiting_keepsSpace (waiting : Bool) : Task.KeepsSpace (Task.markWaiting waiting) :=
  ⟨fun _ => rfl, fun _ => rfl, fun _ => rfl⟩

theorem bury_fits (h : Fits total reserved k) {task : Task} (hfind : k.find? pid = some task)
    (code : Int) : Fits total reserved (k.bury task code) := by
  have hpid := Scheduler.pid_of_find? hfind
  subst hpid
  have hput : Machine.Fits total reserved
      ⟨k.sched.put (task.terminated code), task.discard k.pool⟩ := by
    apply Machine.Fits.put h (task.terminated code) hfind
    · exact (h.focus hfind).discard
    · intro _
      rfl
  exact (hput.mapTasks ((Task.KeepsSpace.adopt (heir task.pid)).ite _)).update task.ppid
    notifyParent_keepsSpace

theorem exit_fits (h : Fits total reserved k) {code : Int} (hrun : k.exit pid code = .ok after) :
    Fits total reserved after := by
  obtain ⟨task, hfind, -, rfl⟩ := exit_eq_ok hrun
  exact reselect_fits (bury_fits h hfind code) pid

theorem send_fits (h : Fits total reserved k) {task : Task} (hfind : k.find? pid = some task)
    (signal : Signal) :
    Fits total reserved { k with sched := k.sched.put (task.send signal) } :=
  Machine.Fits.of_sameOutline h
    (Scheduler.SameOutline.put h.proper _ hfind (task.outline_send signal))

theorem kill_fits (h : Fits total reserved k) {signal : Signal}
    (hrun : k.kill pid signal = .ok after) : Fits total reserved after := by
  obtain ⟨task, hfind, ⟨-, rfl⟩ | ⟨-, hsent⟩⟩ := kill_eq_ok hrun
  · exact h
  · have hfits := send_fits h hfind signal
    rcases hsent with ⟨-, hexit⟩ | ⟨-, rfl⟩ | ⟨-, -, rfl⟩
    · exact exit_fits hfits hexit
    · exact reselect_fits hfits pid
    · exact hfits

theorem mark_fits (h : Fits total reserved k) (parent : Pid) (waiting : Bool) :
    Machine.Fits total reserved
      ⟨k.sched.update parent (Task.markWaiting waiting), k.pool⟩ :=
  Machine.Fits.update h parent (markWaiting_keepsSpace waiting)

theorem wait_fits (h : Fits total reserved k) (parent : Pid) :
    Fits total reserved (k.wait parent).state := by
  rcases wait_cases k parent with
    ⟨-, child, -, -, hrun⟩ | ⟨⟨e, hrun, -⟩, -⟩ | ⟨-, -, -, hrun⟩
  · rw [hrun]
    exact (mark_fits h parent false).remove child.pid
  · rw [hrun]
    exact h
  · rw [hrun]
    exact mark_fits h parent true

theorem blockProcess_fits (h : Fits total reserved k) (pid : Pid) :
    Fits total reserved (k.blockProcess pid).state := by
  rcases blockProcess_cases k pid with ⟨e, hrun⟩ | ⟨task, blocked, hfind, hblock, hrun⟩
  · rw [hrun]
    exact h
  · rw [hrun]
    apply reselect_fits
    exact Machine.Fits.of_sameOutline h
      (Scheduler.SameOutline.put h.proper blocked hfind (Task.outline_block hblock))

theorem waitOrBlock_fits (h : Fits total reserved k) (parent : Pid) :
    Fits total reserved (k.waitOrBlock parent).state := by
  have hwait := wait_fits h parent
  rcases waitOrBlock_cases k parent with ⟨-, hrun⟩ | ⟨-, hrun⟩
  · rw [hrun]
    exact hwait
  · rw [hrun]
    exact blockProcess_fits hwait parent

theorem exec_fits (h : Fits total reserved k) (hrun : k.exec pid = .ok after) :
    Fits total reserved after := by
  obtain ⟨task, hfind, hlive, rfl⟩ := exec_eq_ok hrun
  have hpid := Scheduler.pid_of_find? hfind
  subst hpid
  have hempty : ∀ p, k.newSpace.table.lookup p = none := PageTable.lookup_new _
  apply Machine.Fits.put h { task.execReset with space := some k.newSpace } hfind
  · exact (h.focus hfind).discard.cons_empty hempty
  · intro hdead
    have hsame : task.isZombie = true := hdead
    rw [hlive] at hsame
    cases hsame

theorem access_fits (h : Fits total reserved k) (pid : Pid) (request : Memory.Request) :
    Fits total reserved (k.access pid request).state := by
  rcases access_cases k pid request with ⟨e, hrun, -⟩ | ⟨task, space, hfind, hspace, hrun⟩
  · rw [hrun]
    exact h
  · have hpid := Scheduler.pid_of_find? hfind
    subst hpid
    have hserved := Memory.serve_fits (h.focus_space hfind hspace) request
    rw [hrun]
    apply Machine.Fits.put h { task with
      space := some ((Memory.mk space k.pool).serve request).state.space } hfind hserved
    intro hdead
    have hnone := h.bare task (Scheduler.mem_tasks_of_find? hfind) hdead
    rw [hspace] at hnone
    cases hnone

theorem commit_fits (h : Fits total reserved k) {result : Except KernelError Kernel}
    (hresult : ∀ after, result = .ok after → Fits total reserved after) :
    Fits total reserved (k.commit result).state := by
  cases result with
  | ok after => exact hresult after rfl
  | error e => exact h

/-- Every request keeps the balance, whatever comes of it. -/
theorem serve_fits (h : Fits total reserved k) (request : Request) :
    Fits total reserved (k.serve request).state := by
  cases request with
  | createInit => exact createInit_fits h
  | spawn name parent pages => exact spawn_fits h name parent pages
  | schedule => exact schedule_fits h
  | timerTick => exact timerTick_fits h
  | sleep interruptible => exact sleep_fits h interruptible
  | wakeAll => exact wakeAll_fits h
  | fork parent => exact fork_fits h parent
  | exit pid code => exact commit_fits h fun after hrun => exit_fits h hrun
  | wait parent => exact wait_fits h parent
  | waitOrBlock parent => exact waitOrBlock_fits h parent
  | kill pid signal => exact commit_fits h fun after hrun => kill_fits h hrun
  | exec pid => exact commit_fits h fun after hrun => exec_fits h hrun
  | access pid request => exact access_fits h pid request
  | shutdown => exact h

theorem serveAll_fits (h : Fits total reserved k) (requests : List Request) :
    Fits total reserved (k.serveAll requests).2 :=
  serveAll_invariant (Fits total reserved) (fun _ request hfits => serve_fits hfits request) h
    requests

/-- A configuration without fault leaves frames to processes. -/
theorem reservedFrames_le {config : Config} (h : config.fault? = none) :
    config.reservedFrames ≤ config.totalFrames := by
  obtain ⟨-, -, hframes, -, -, -, -⟩ := Config.fault?_eq_none_iff.mp h
  exact Nat.div_le_div_right (Nat.le_of_lt hframes)

theorem ofConfig_fits {config : Config} (h : config.fault? = none) :
    Fits config.totalFrames config.reservedFrames (ofConfig config) where
  proper := Scheduler.Proper.of_new _
  balanced := by
    have hroom := reservedFrames_le h
    have hbacks := FramePool.Backs.of_new config.totalFrames config.reservedFrames
    rw [Nat.min_eq_left hroom] at hbacks
    unfold ofConfig
    rw [Scheduler.tasks_new]
    exact ⟨hbacks, Tidy.nil⟩
  bare := by
    intro task hmem
    unfold ofConfig at hmem
    rw [Scheduler.tasks_new] at hmem
    cases hmem

end Kernelet.Kernel
