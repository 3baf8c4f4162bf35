import Kernelet.Proofs.Kernel.Accounting
import Kernelet.Proofs.Kernel.Waiting
import Kernelet.Proofs.Memory.Forking
import Kernelet.Proofs.Process.Ending

/-!
The end of a process from one end of the kernel to the other. A process that lives can
always be ended, and what comes of that is said for the whole kernel (`Ended`): for every
task of the table, for every frame of memory, for the selection and for the gate. To be
killed is to exit with code 137, with the signal left pending (`EndsOnRequest.killed`).
-/

namespace Kernelet

/-- What a task gives back depends on its space alone. -/
theorem Task.discard_congr {task other : Task} (h : task.space = other.space)
    (pool : FramePool) : task.discard pool = other.discard pool := by
  unfold discard releaseSpace
  cases hspace : other.space with
  | none => rw [h.trans hspace]
  | some space => rw [h.trans hspace]

@[simp] theorem Task.bytesOf_discard (task : Task) (pool : FramePool) (f : FrameId) :
    (task.discard pool).bytesOf f = pool.bytesOf f := by
  unfold discard releaseSpace
  cases task.space with
  | none => rfl
  | some space => exact FramePool.bytesOf_freeAll pool space.table.frames f

namespace Kernel

/-- The live process `task` has ended with exit code `code`. -/
structure Ended (k : Kernel) (task : Task) (code : Int) (after : Kernel) : Prop where
  config_eq : after.config = k.config
  dead : after.find? task.pid = some { task with
    state := .zombie
    exitCode := some code
    counter := 0
    waitingForChild := false
    descriptors := Descriptors.empty
    space := none }
  /-- If the process was selected, another is, and has the token if the gate is open. -/
  of_current : k.current = some task.pid →
    let next := (k.sched.mapTasks (Task.afterEnd task.pid task.ppid code)).schedule
    after.sched = next.2 ∧ after.gate = k.gate.grant next.1 ∧
      (k.gate.closed = false → after.gate.holder = next.1)
  of_other : k.current ≠ some task.pid →
    after.sched = k.sched.mapTasks (Task.afterEnd task.pid task.ppid code) ∧
      after.gate = k.gate
  total_eq : after.pool.total = k.pool.total
  freeCount_eq : after.pool.freeCount = after.pool.freeFrames.card
  refCount_mapped : ∀ p entry, k.Maps task.pid p entry →
    after.pool.refCount entry.frame + 1 = k.pool.refCount entry.frame
  refCount_other : ∀ f, (∀ p entry, k.Maps task.pid p entry → entry.frame ≠ f) →
    after.pool.refCount f = k.pool.refCount f
  bytesOf_eq : ∀ f, after.pool.bytesOf f = k.pool.bytesOf f

/-- The kernel with a signal pending at process `pid`. -/
def posted (k : Kernel) (pid : Pid) (signal : Signal) : Kernel :=
  { k with sched := k.sched.update pid (Task.post signal) }

/-- What comes of a request to end process `pid`. -/
structure EndsOnRequest (k : Kernel) (pid : Pid) : Prop where
  missing : k.find? pid = none →
    ∀ code, k.serve (.exit pid code) = ⟨.error (.noSuchProcess pid), k⟩
  zombie : ∀ task, k.find? pid = some task → task.state = .zombie →
    ∀ code, k.serve (.exit pid code) = ⟨.error (.invalidState pid .zombie), k⟩
  live : ∀ task, k.find? pid = some task → task.state ≠ .zombie →
    ∀ code, ∃ after, k.serve (.exit pid code) = ⟨.ok .done, after⟩ ∧ k.Ended task code after
  /-- A kill differs from an exit in that the signal is pending at the zombie. -/
  killed : ∀ task, k.find? pid = some task → task.state ≠ .zombie →
    ∃ after, k.serve (.exit pid 137) = ⟨.ok .done, after⟩ ∧
      k.serve (.kill pid .kill) = ⟨.ok .done, after.posted pid .kill⟩

variable {total reserved : Nat} {k : Kernel} {pid : Pid} {task : Task}

/-- What a process maps is what its space maps. -/
theorem maps_iff_of_find? (h : k.sched.Proper) (hfind : k.find? pid = some task) {p : Nat}
    {entry : PageEntry} :
    k.Maps pid p entry ↔ ∃ space, task.space = some space ∧
      space.table.lookup p = some entry := by
  obtain ⟨hmem, hpid⟩ := (Scheduler.find?_eq_some_iff h).mp hfind
  constructor
  · rintro ⟨other, space, hother, hsame, hspace, hlookup⟩
    cases Scheduler.eq_of_pid_eq h hmem hother (hsame.trans hpid.symm)
    exact ⟨space, hspace, hlookup⟩
  · rintro ⟨space, hspace, hlookup⟩
    exact ⟨task, space, hmem, hpid, hspace, hlookup⟩

/-- A process that goes takes one reference from each frame that it maps. -/
theorem refCount_discard (h : Fits total reserved k) (hfind : k.find? pid = some task) :
    (∀ p entry, k.Maps pid p entry →
      (task.discard k.pool).refCount entry.frame + 1 = k.pool.refCount entry.frame) ∧
    ∀ f, (∀ p entry, k.Maps pid p entry → entry.frame ≠ f) →
      (task.discard k.pool).refCount f = k.pool.refCount f := by
  have hfocus := h.focus hfind
  have hbefore : k.pool.Backs total reserved
      (namedFrames task.tables ++ namedFrames (tablesOf (k.sched.others pid))) := by
    have hbacks := hfocus.backs
    unfold namedFrames at hbacks ⊢
    rw [List.flatMap_append] at hbacks
    exact hbacks
  have hcount := hfocus.discard.backs.refCount_of_append hbefore
  have hmaps : ∀ {p entry}, k.Maps pid p entry ↔ ∃ space, task.space = some space ∧
      space.table.lookup p = some entry := maps_iff_of_find? h.proper hfind
  constructor
  · intro p entry hentry
    obtain ⟨space, hspace, hlookup⟩ := hmaps.mp hentry
    have htables : task.tables = [space.table] := by
      unfold Task.tables
      rw [hspace]
      rfl
    have hnodup := hfocus.tidy.nodup space.table (by simp [htables])
    have hone := List.count_eq_one_of_mem hnodup (PageTable.frame_mem_frames hlookup)
    rw [hcount, htables, namedFrames_cons, namedFrames_nil, List.append_nil, hone]
  · intro f hother
    have hout : f ∉ namedFrames task.tables := by
      intro hmem
      obtain ⟨table, htable, hframe⟩ := List.mem_flatMap.mp hmem
      obtain ⟨p, entry, hlookup, rfl⟩ := PageTable.mem_frames.mp hframe
      obtain ⟨space, hspace, rfl⟩ := Task.mem_tables.mp htable
      exact hother p entry (hmaps.mpr ⟨space, hspace, hlookup⟩) rfl
    rw [hcount, List.count_eq_zero.mpr hout, Nat.add_zero]

/-- A parent is older than its children, and so nobody's parent is itself. -/
theorem ppid_ne_pid (h : Kin.Ordered k.family) (hfind : k.find? pid = some task) :
    task.ppid ≠ task.pid :=
  Nat.ne_of_lt (h.ppid_lt task.kin (List.mem_map_of_mem (Scheduler.mem_tasks_of_find? hfind)))

/-- A burial passes over the table once. -/
theorem bury_eq (h : k.sched.Proper) (hfind : k.find? pid = some task)
    (hparent : task.ppid ≠ task.pid) (code : Int) :
    k.bury task code = { k with
      sched := k.sched.mapTasks (Task.afterEnd task.pid task.ppid code)
      pool := task.discard k.pool } := by
  obtain ⟨hmem, -⟩ := (Scheduler.find?_eq_some_iff h).mp hfind
  have hsched : (reparent (k.sched.put (task.terminated code)) task.pid).update task.ppid
      notifyParent = k.sched.mapTasks (Task.afterEnd task.pid task.ppid code) := by
    unfold Scheduler.put Scheduler.update reparent
    rw [Scheduler.mapTasks_mapTasks, Scheduler.mapTasks_mapTasks]
    apply Scheduler.mapTasks_congr
    intro other hother
    unfold Task.afterEnd
    by_cases hpid : other.pid = task.pid
    · cases Scheduler.eq_of_pid_eq h hmem hother hpid
      simp [Task.terminated, hparent, Ne.symm hparent]
    · have hkept : other.pid ≠ (task.terminated code).pid := hpid
      simp only [if_neg hkept, if_neg hpid, Task.notifyParent_eq, heir]
      split <;> rfl
  unfold bury
  rw [hsched]

theorem find?_afterEnd (hfind : k.find? pid = some task) (hparent : task.ppid ≠ task.pid)
    (code : Int) :
    (k.sched.mapTasks (Task.afterEnd task.pid task.ppid code)).find? pid =
      some (task.terminated code) := by
  have hold : k.sched.find? pid = some task := hfind
  rw [Scheduler.find?_mapTasks (Task.pid_afterEnd task.pid task.ppid code), hold,
    Option.map_some, Task.afterEnd_self hparent]

theorem reselect_of_current (h : k.current = some pid) : k.reselect pid = k.schedule.2 :=
  if_pos h

theorem reselect_of_not_current (h : k.current ≠ some pid) : k.reselect pid = k :=
  if_neg h

theorem ended_bury (h : Fits total reserved k) (hordered : Kin.Ordered k.family)
    (hfind : k.find? pid = some task) (code : Int) :
    k.Ended task code ((k.bury task code).reselect pid) := by
  have hparent := ppid_ne_pid hordered hfind
  have hpid := Scheduler.pid_of_find? hfind
  subst hpid
  have hdead := find?_afterEnd hfind hparent code
  rw [task.terminated_eq] at hdead
  have hbacks := (h.focus hfind).discard.backs
  obtain ⟨hmapped, hkept⟩ := refCount_discard h hfind
  have htotal : (task.discard k.pool).total = k.pool.total :=
    hbacks.total_eq.trans h.balanced.backs.total_eq.symm
  have hsame : (k.bury task code).current = k.current := rfl
  by_cases hcurrent : k.current = some task.pid
  · rw [reselect_of_current (hsame.trans hcurrent), bury_eq h.proper hfind hparent]
    exact ⟨rfl, Scheduler.find?_schedule_of_zombie hdead rfl,
      fun _ => ⟨rfl, rfl, fun hopen => Gate.holder_grant hopen _⟩,
      fun hother => absurd hcurrent hother, htotal, hbacks.freeCount_eq, hmapped, hkept,
      task.bytesOf_discard k.pool⟩
  · rw [reselect_of_not_current (hsame ▸ hcurrent), bury_eq h.proper hfind hparent]
    exact ⟨rfl, hdead, fun his => absurd his hcurrent, fun _ => ⟨rfl, rfl⟩, htotal,
      hbacks.freeCount_eq, hmapped, hkept, task.bytesOf_discard k.pool⟩

/-- A signal may be posted before another task is selected as well as after it. -/
theorem reselect_posted (k : Kernel) (pid q : Pid) (signal : Signal) :
    (k.posted q signal).reselect pid = (k.reselect pid).posted q signal := by
  have hschedule := Scheduler.schedule_update (Task.KeepsTurn.post signal) k.sched q
  have hcurrent : (k.posted q signal).current = k.current := rfl
  unfold reselect
  rw [hcurrent]
  split
  · unfold schedule posted
    dsimp only
    rw [hschedule]
    rfl
  · rfl

/-- A killed task is buried as one that exits, with the signal pending. -/
theorem bury_send_kill (h : k.sched.Proper) (hfind : k.find? pid = some task)
    (hlive : task.state ≠ .zombie) (hparent : task.ppid ≠ task.pid) (code : Int) :
    Kernel.bury { k with sched := k.sched.put (task.send .kill) } (task.send .kill) code =
      (k.bury task code).posted pid .kill := by
  obtain ⟨hmem, rfl⟩ := (Scheduler.find?_eq_some_iff h).mp hfind
  obtain ⟨state, hsend⟩ := Task.send_kill hlive
  have hpid : (task.send .kill).pid = task.pid := by rw [hsend]; rfl
  have hppid : (task.send .kill).ppid = task.ppid := by rw [hsend]; rfl
  have hspace : (task.send .kill).space = task.space := by rw [hsend]; rfl
  have hterminated : (task.send .kill).terminated code = (task.terminated code).post .kill := by
    rw [hsend]
    rfl
  have hstill : (task.send .kill).ppid ≠ (task.send .kill).pid := by
    rw [hpid, hppid]
    exact hparent
  have hsched : (k.sched.put (task.send .kill)).mapTasks
        (Task.afterEnd (task.send .kill).pid (task.send .kill).ppid code) =
      (k.sched.mapTasks (Task.afterEnd task.pid task.ppid code)).update task.pid
        (Task.post .kill) := by
    unfold Scheduler.put Scheduler.update
    rw [Scheduler.mapTasks_mapTasks, Scheduler.mapTasks_mapTasks]
    apply Scheduler.mapTasks_congr
    intro other hother
    rw [Task.pid_afterEnd]
    by_cases hother' : other.pid = task.pid
    · cases Scheduler.eq_of_pid_eq h hmem hother hother'
      rw [if_pos hpid.symm, if_pos rfl, Task.afterEnd_self hstill, Task.afterEnd_self hparent,
        hterminated]
    · rw [hpid, hppid, if_neg hother', if_neg hother']
  rw [bury_eq h hfind hparent, bury_eq (h.put _) (find?_send hfind .kill) hstill]
  unfold posted
  rw [hsched, Task.discard_congr hspace]

/-- An exit is refused to a zombie, and ends any other process. -/
theorem serve_exit_of_find? (hfind : k.find? pid = some task) (code : Int) :
    k.serve (.exit pid code) =
      if task.isZombie then ⟨.error task.invalidState, k⟩
      else ⟨.ok .done, (k.bury task code).reselect pid⟩ := by
  show k.commit (k.exit pid code) = _
  rw [exit_of_find? hfind]
  cases task.isZombie with
  | true => rfl
  | false => rfl

/-- A kill ends a process as an exit does, and leaves the signal pending. -/
theorem serve_kill_of_live (h : k.sched.Proper) (hfind : k.find? pid = some task)
    (hlive : task.state ≠ .zombie) (hparent : task.ppid ≠ task.pid) :
    k.serve (.kill pid .kill) =
      ⟨.ok .done, ((k.bury task 137).reselect pid).posted pid .kill⟩ := by
  have hzombie : task.isZombie = false := Task.isZombie_of_state hlive
  have hstill : (task.send .kill).isZombie = false :=
    (Task.isZombie_eq_of_outline (task.outline_send .kill)).trans hzombie
  rw [← reselect_posted, ← bury_send_kill h hfind hlive hparent 137]
  show k.commit (k.kill pid .kill) = _
  unfold kill
  rw [hfind]
  dsimp only
  rw [if_neg (by simp [hzombie]), exit_of_find? (find?_send hfind .kill), if_neg (by simp [hstill])]
  rfl

theorem endsOnRequest (h : Fits total reserved k) (hordered : Kin.Ordered k.family) (pid : Pid) :
    k.EndsOnRequest pid where
  missing := by
    intro hnone code
    show k.commit (k.exit pid code) = _
    unfold exit
    rw [hnone]
    rfl
  zombie := by
    intro task hfind hdead code
    have hpid := Scheduler.pid_of_find? hfind
    have hzombie : task.isZombie = true := beq_iff_eq.mpr hdead
    rw [serve_exit_of_find? hfind, if_pos hzombie]
    unfold Task.invalidState
    rw [hpid, hdead]
  live := by
    intro task hfind hlive code
    refine ⟨_, ?_, ended_bury h hordered hfind code⟩
    rw [serve_exit_of_find? hfind, if_neg (by simp [Task.isZombie_of_state hlive])]
  killed := by
    intro task hfind hlive
    refine ⟨_, ?_, serve_kill_of_live h.proper hfind hlive (ppid_ne_pid hordered hfind)⟩
    rw [serve_exit_of_find? hfind, if_neg (by simp [Task.isZombie_of_state hlive])]

/-- As long as no number comes round, and whoever stands at the gate, a request to end a
process is refused as a whole or does all that belongs to it. -/
theorem endsOnRequest_of_boot {config : Config} (hboot : boot config = .ok k)
    {requests : List Request} (hfit : (k.serveAll requests).2.NumbersFit) (gate : Gate)
    (pid : Pid) :
    EndsOnRequest { (k.serveAll requests).2 with gate } pid := by
  obtain ⟨hfault, rfl⟩ := boot_eq_ok_iff.mp hboot
  have hsettled := (ofConfig_settled hfault).serveAll hfit
  exact endsOnRequest (k := { ((ofConfig config).serveAll requests).2 with gate })
    hsettled.fits hsettled.ordered pid

/-- A process that runs, with a page of its own, a child, and a parent asleep that waits for
it. -/
theorem endsOnRequest_between_parent_and_child :
    let done : List Request :=
      [.createInit, .spawn "a" 1 1, .spawn "b" 2 0, .waitOrBlock 1, .schedule]
    let last := ((ofConfig Config.small).serveAll done).2
    let gate : Gate := { Gate.new with holder := some 2, running := some 2 }
    boot Config.small = .ok (ofConfig Config.small) ∧
      ((ofConfig Config.small).serveAll done).2.NumbersFit ∧ last.current = some 2 ∧
      (last.find? 2).map Task.state = some .runnable ∧
      (last.find? 1).map Task.state = some .interruptibleWait ∧
      EndsOnRequest { last with gate } 2 := by
  intro done last gate
  have hboot : boot Config.small = .ok (ofConfig Config.small) :=
    boot_eq_ok_iff.mpr ⟨by decide, rfl⟩
  have hfit : ((ofConfig Config.small).serveAll done).2.NumbersFit :=
    ofConfig_numbersFit Config.small (by decide)
  exact ⟨hboot, hfit, by decide +kernel, by decide +kernel, by decide +kernel,
    endsOnRequest_of_boot hboot hfit gate 2⟩

end Kernel

end Kernelet
