import Kernelet.Proofs.Kernel.Dispatch
import Kernelet.Proofs.Process.Fates

/-!
What a request does to the lives of processes. There are four courses that it can
take (`Course`): nobody's fate changes, a process of the next number comes to life,
a live process ends with the code that was asked for, or a terminated child is
handed to its parent and leaves the table. Whoever has ended once stays so
(`serve_over`), and whoever has left the table stays away (`serve_gone`).
-/

namespace Kernelet.Kernel

/-- The process that a request ends if it succeeds, and the exit code that it
ends with. -/
def Request.ending? : Request → Option (Pid × Int)
  | .exit pid code => some (pid, code)
  | .kill pid .kill => some (pid, Signal.kill.exitCode)
  | _ => none

/-- The process in whose name a request reaps. -/
def Request.reaper? : Request → Option Pid
  | .wait parent | .waitOrBlock parent => some parent
  | _ => none

/-- Whether an answer tells of no process that is new or was reaped. -/
def Reply.isQuiet : Reply → Bool
  | .created _ | .reaped _ _ => false
  | _ => true

/-- What a request does to the lives of processes, with its result and the kernel
after it. -/
inductive Course (k : Kernel) (request : Request) (result : Except KernelError Reply)
    (after : Kernel) : Prop where
  /-- Nobody's fate changes. A number may have been used up all the same. -/
  | quiet
      (hresult : ∀ reply, result = .ok reply → reply.isQuiet = true)
      (hfate : ∀ q, after.sched.fate? q = k.sched.fate? q)
      (hnext : after.sched.nextPid = k.sched.nextPid ∨
        after.sched.nextPid = k.sched.nextPid + 1)
  /-- A process of the next number comes to life. -/
  | created
      (hresult : result = .ok (.created k.sched.nextNumber))
      (hfree : k.sched.fate? k.sched.nextNumber = none)
      (hfate : ∀ q, after.sched.fate? q =
        if k.sched.nextNumber = q then some none else k.sched.fate? q)
      (hnext : after.sched.nextPid = k.sched.nextPid + 1)
  /-- A live process ends. -/
  | ended (pid : Pid) (code : Int)
      (hrequest : request.ending? = some (pid, code))
      (hresult : result = .ok .done)
      (hlive : k.sched.fate? pid = some none)
      (hfate : ∀ q, after.sched.fate? q =
        if pid = q then some (some code) else k.sched.fate? q)
      (hnext : after.sched.nextPid = k.sched.nextPid)
  /-- A terminated child is handed to its parent and leaves the table. -/
  | reaped (child : Task) (code : Int)
      (hrequest : request.reaper? = some child.ppid)
      (hparent : k.sched.contains child.ppid = true)
      (hresult : result = .ok (.reaped child.pid code))
      (hchild : k.find? child.pid = some child)
      (hdead : child.fate = some code)
      (hfate : ∀ q, after.sched.fate? q = if child.pid = q then none else k.sched.fate? q)
      (hnext : after.sched.nextPid = k.sched.nextPid)

/-- The tables of the kernels agree in the numbers and fates of their tasks. -/
abbrev SameFates (k after : Kernel) : Prop :=
  Scheduler.SameView Task.entry k.sched after.sched

variable {k mid after : Kernel} {request : Request} {pid : Pid}

namespace Course

theorem of_error {e : KernelError} (h : SameFates k after) :
    Course k request (.error e) after :=
  quiet (by simp) h.fate?_eq (Or.inl h.nextPid_eq)

theorem of_reply {reply : Reply} (h : SameFates k after) (hquiet : reply.isQuiet = true) :
    Course k request (.ok reply) after := by
  refine quiet ?_ h.fate?_eq (Or.inl h.nextPid_eq)
  rintro other ⟨rfl⟩
  exact hquiet

theorem of_map {α : Type} {answer : α → Reply} (h : SameFates k after)
    (hquiet : ∀ a, (answer a).isQuiet = true) (result : Except KernelError α) :
    Course k request (result.map answer) after := by
  cases result with
  | error e => exact of_error h
  | ok a => exact of_reply h (hquiet a)

end Course

theorem SameFates.refl (k : Kernel) : SameFates k k :=
  ⟨rfl, rfl⟩

/-- A task goes back to its place without a change to its fate. -/
theorem SameFates.put (hproper : k.sched.Proper) {task : Task} (new : Task) (pool : FramePool)
    (hfind : k.find? pid = some task) (h : new.entry = task.entry) :
    SameFates k { k with sched := k.sched.put new, pool } :=
  Scheduler.SameView.put hproper new hfind (congrArg Prod.fst h) h

theorem sameFates_schedule (k : Kernel) : SameFates k k.schedule.2 :=
  Scheduler.SameView.schedule Task.lasting_entry k.sched

theorem sameFates_reselect (k : Kernel) (pid : Pid) : SameFates k (k.reselect pid) := by
  unfold reselect
  split
  · exact sameFates_schedule k
  · exact SameFates.refl k

theorem sameFates_timerTick (h : k.sched.Proper) : SameFates k k.timerTick.2 := by
  unfold SameFates
  rw [sched_timerTick]
  exact Scheduler.SameView.timerTick Task.lasting_entry h

theorem sameFates_sleep (h : k.sched.Proper) (interruptible : Bool) :
    SameFates k (k.sleep interruptible).state := by
  unfold sleep
  split
  · exact SameFates.refl k
  · rename_i hrun
    exact Scheduler.SameView.sleep Task.lasting_entry h hrun

theorem sameFates_wakeAll (k : Kernel) : SameFates k k.wakeAll.2 :=
  Scheduler.SameView.wakeAll Task.lasting_entry k.sched

theorem sameFates_mark (k : Kernel) (parent : Pid) (waiting : Bool) :
    SameFates k { k with sched := k.sched.update parent (Task.markWaiting waiting) } := by
  apply Scheduler.SameView.mapTasks
  intro task _
  split <;> rfl

theorem entry_notifyParent (task : Task) : (notifyParent task).entry = task.entry :=
  Task.lasting_entry.notifyParent (fun _ _ => rfl) task

theorem sameFates_blockProcess (h : k.sched.Proper) (pid : Pid) :
    SameFates k (k.blockProcess pid).state := by
  rcases blockProcess_cases k pid with ⟨e, hrun⟩ | ⟨task, blocked, hfind, hblock, hrun⟩
  · rw [hrun]
    exact SameFates.refl k
  · rw [hrun]
    exact (SameFates.put h blocked k.pool hfind (Task.lasting_entry.block hblock)).trans
      (sameFates_reselect _ pid)

theorem sameFates_exec (h : k.sched.Proper) (hrun : k.exec pid = .ok after) :
    SameFates k after := by
  obtain ⟨task, hfind, -, rfl⟩ := exec_eq_ok hrun
  exact SameFates.put h _ _ hfind rfl

theorem sameFates_accessSpace {α : Type} (h : k.sched.Proper) (pid : Pid)
    (act : Memory → α × Memory) : SameFates k (k.accessSpace pid act).state := by
  rcases accessSpace_cases k pid act with ⟨e, hrun, -⟩ | ⟨task, space, hfind, -, hrun⟩
  · rw [hrun]
    exact SameFates.refl k
  · rw [hrun]
    exact SameFates.put h _ _ hfind rfl

/-- A live task with the next number joins the table, or is let go. -/
theorem enlist_course (hsame : SameFates k mid) {task : Task}
    (hpid : task.pid = mid.sched.nextNumber) (hlive : task.fate = none) :
    Course k request ((mid.enlisted task).map Reply.created) (mid.enlist task) := by
  have hnumber : mid.sched.nextNumber = k.sched.nextNumber := hsame.nextNumber_eq
  rcases mid.enlist_cases task with ⟨sched, hadd, hresult, hrun⟩ | ⟨e, hresult, hrun⟩
  · rw [hresult, hrun]
    refine Course.created ?_ ?_ ?_ ?_
    · rw [← hnumber]
      rfl
    · have hfree : mid.sched.allocatePid.2.find? task.pid = none := Scheduler.find?_of_add hadd
      rw [← hsame.fate?_eq, ← hnumber, ← hpid]
      exact Scheduler.fate?_eq_none_iff.mpr hfree
    · intro q
      have hfate : sched.fate? q = _ := Scheduler.fate?_add hadd q
      dsimp only
      rw [hfate, hpid, hlive, hnumber]
      split
      · rfl
      · exact hsame.fate?_eq q
    · rw [← hsame.nextPid_eq]
      exact Scheduler.nextPid_add hadd
  · rw [hresult, hrun]
    refine Course.quiet (by simp [Except.map]) hsame.fate?_eq (Or.inr ?_)
    rw [← hsame.nextPid_eq]
    rfl

theorem spawn_course (k : Kernel) (name : String) (parent : Pid) (pages : Nat) :
    Course k request ((k.spawn name parent pages).map Reply.created).result
      (k.spawn name parent pages).state := by
  rcases spawn_cases k name parent pages with
    ⟨⟨e, hrun⟩, -⟩ | ⟨-, m, ⟨e, -, hrun⟩ | ⟨-, hrun⟩⟩
  · rw [hrun]
    exact Course.of_error (SameFates.refl k)
  · rw [hrun]
    exact Course.of_error ⟨rfl, rfl⟩
  · rw [hrun]
    show Course k request ((enlisted _ _).map Reply.created) (enlist _ _)
    apply enlist_course
    · exact ⟨rfl, rfl⟩
    · rfl
    · exact Task.fate_of_live rfl

theorem createInit_course (k : Kernel) :
    Course k request (k.createInit.map Reply.created).result k.createInit.state := by
  unfold createInit
  split
  · exact Course.of_error (SameFates.refl k)
  · exact spawn_course k "init" 0 initPages

theorem fork_course (h : k.sched.Proper) (parent : Pid) :
    Course k request ((k.fork parent).map Reply.created).result (k.fork parent).state := by
  rcases fork_cases k parent with ⟨⟨e, hrun⟩, -⟩ | ⟨task, space, m, hfind, -, -, hfork⟩
  · rw [hrun]
    exact Course.of_error (SameFates.refl k)
  · have hshared : SameFates k { k with
        sched := k.sched.put { task with space := some m.space }
        pool := m.pool } := SameFates.put h _ m.pool hfind rfl
    rcases hfork with ⟨e, -, hrun⟩ | ⟨child, -, hrun⟩
    · rw [hrun]
      exact Course.of_error hshared
    · rw [hrun]
      show Course k request ((enlisted _ _).map Reply.created) (enlist _ _)
      exact enlist_course hshared rfl (Task.fate_of_live rfl)

/-- A process that exits lived, and has the exit code from then on. -/
theorem exit_fates {code : Int} (hrun : k.exit pid code = .ok after) :
    k.sched.fate? pid = some none ∧ after.sched.nextPid = k.sched.nextPid ∧
      ∀ q, after.sched.fate? q = if pid = q then some (some code) else k.sched.fate? q := by
  obtain ⟨task, hfind, hlive, rfl⟩ := exit_eq_ok hrun
  have hpid := Scheduler.pid_of_find? hfind
  subst hpid
  have hrest : Scheduler.SameView Task.entry (k.sched.put (task.terminated code))
      (k.bury task code).sched := by
    have horphans : Scheduler.SameView Task.entry (k.sched.put (task.terminated code))
        (reparent (k.sched.put (task.terminated code)) task.pid) := by
      apply Scheduler.SameView.mapTasks
      intro other _
      split <;> rfl
    apply horphans.trans
    apply Scheduler.SameView.mapTasks
    intro other _
    split
    · exact entry_notifyParent other
    · rfl
  have hsame := hrest.trans (sameFates_reselect _ task.pid)
  refine ⟨?_, hsame.nextPid_eq, ?_⟩
  · rw [Scheduler.fate?_of_find? hfind, Task.fate_of_live hlive]
  · intro q
    have hput : (k.sched.put (task.terminated code)).fate? q = _ :=
      Scheduler.fate?_put (task.terminated code) hfind q
    rw [hsame.fate?_eq, hput]
    rfl

theorem exit_course {code : Int} :
    Course k (.exit pid code) (k.commit (k.exit pid code)).result
      (k.commit (k.exit pid code)).state := by
  cases hrun : k.exit pid code with
  | error e => exact Course.of_error (SameFates.refl k)
  | ok after =>
      obtain ⟨hlive, hnext, hfate⟩ := exit_fates hrun
      exact Course.ended pid code rfl rfl hlive hfate hnext

theorem kill_course (h : k.sched.Proper) {signal : Signal} :
    Course k (.kill pid signal) (k.commit (k.kill pid signal)).result
      (k.commit (k.kill pid signal)).state := by
  cases hrun : k.kill pid signal with
  | error e => exact Course.of_error (SameFates.refl k)
  | ok after =>
      obtain ⟨task, hfind, ⟨-, rfl⟩ | ⟨-, hsent⟩⟩ := kill_eq_ok hrun
      · exact Course.of_reply (SameFates.refl _) rfl
      · have hsame := SameFates.put h _ k.pool hfind (Task.lasting_entry.send task signal)
        rcases hsent with ⟨rfl, hexit⟩ | ⟨-, rfl⟩ | ⟨-, -, rfl⟩
        · obtain ⟨hlive, hnext, hfate⟩ := exit_fates hexit
          refine Course.ended pid Signal.kill.exitCode rfl rfl ?_ ?_ ?_
          · rw [← hlive]
            exact (hsame.fate?_eq pid).symm
          · intro q
            refine (hfate q).trans ?_
            split
            · rfl
            · exact hsame.fate?_eq q
          · exact hnext
        · exact Course.of_reply (hsame.trans (sameFates_reselect _ pid)) rfl
        · exact Course.of_reply hsame rfl

/-- A wait hands a terminated child over, or changes nobody's fate. -/
theorem wait_outcome (h : k.sched.Proper) (parent : Pid) :
    (∃ child code, child.ppid = parent ∧ k.sched.contains parent = true ∧
      (k.wait parent).result = .ok (child.pid, code) ∧ k.find? child.pid = some child ∧
      child.fate = some code ∧
      (∀ q, (k.wait parent).state.sched.fate? q =
        if child.pid = q then none else k.sched.fate? q) ∧
      (k.wait parent).state.sched.nextPid = k.sched.nextPid) ∨
    ((∃ e, (k.wait parent).result = .error e) ∧ SameFates k (k.wait parent).state) := by
  rcases wait_cases k parent with
    ⟨hparent, child, hchild, hdead, hrun⟩ | ⟨⟨e, hrun, -⟩, -⟩ | ⟨-, -, -, hrun⟩
  · obtain ⟨hmem, hppid⟩ := List.mem_filter.mp hchild
    have hmark := sameFates_mark k parent false
    left
    refine ⟨child, child.exitCode.getD 0, by simpa using hppid, hparent, ?_, ?_, ?_, ?_, ?_⟩
    · rw [hrun]
    · exact (Scheduler.find?_eq_some_iff h).mpr ⟨hmem, rfl⟩
    · exact Task.fate_of_isZombie hdead
    · intro q
      rw [hrun]
      unfold withMachine
      dsimp only
      rw [Machine.sched_remove, Scheduler.fate?_remove]
      split
      · rfl
      · exact hmark.fate?_eq q
    · rw [hrun]
      unfold withMachine
      dsimp only
      rw [Machine.sched_remove, Scheduler.nextPid_remove]
      exact hmark.nextPid_eq
  · right
    rw [hrun]
    exact ⟨⟨e, rfl⟩, SameFates.refl k⟩
  · right
    rw [hrun]
    exact ⟨⟨_, rfl⟩, sameFates_mark k parent true⟩

theorem wait_course (h : k.sched.Proper) (parent : Pid) :
    Course k (.wait parent) (k.serve (.wait parent)).result (k.serve (.wait parent)).state := by
  show Course k _ ((k.wait parent).result.map _) (k.wait parent).state
  rcases wait_outcome h parent with
    ⟨child, code, rfl, hparent, hresult, hchild, hdead, hfate, hnext⟩ | ⟨⟨e, hresult⟩, hsame⟩
  · rw [hresult]
    exact Course.reaped child code rfl hparent rfl hchild hdead hfate hnext
  · rw [hresult]
    exact Course.of_error hsame

theorem wait_proper (h : k.sched.Proper) (parent : Pid) :
    (k.wait parent).state.sched.Proper := by
  have hmark : ∀ waiting, (k.sched.update parent (Task.markWaiting waiting)).Proper := by
    intro waiting
    apply h.mapTasks
    intro task
    split <;> rfl
  rcases wait_cases k parent with
    ⟨-, child, -, -, hrun⟩ | ⟨⟨e, hrun, -⟩, -⟩ | ⟨-, -, -, hrun⟩
  · rw [hrun]
    unfold withMachine
    dsimp only
    rw [Machine.sched_remove]
    exact (hmark false).remove child.pid
  · rw [hrun]
    exact h
  · rw [hrun]
    exact hmark true

theorem waitOrBlock_course (h : k.sched.Proper) (parent : Pid) :
    Course k (.waitOrBlock parent) (k.serve (.waitOrBlock parent)).result
      (k.serve (.waitOrBlock parent)).state := by
  show Course k _ ((k.waitOrBlock parent).result.map _) (k.waitOrBlock parent).state
  rcases waitOrBlock_cases k parent with ⟨-, hrun⟩ | ⟨hblocks, hrun⟩
  · rw [hrun]
    show Course k _ (((k.wait parent).result.map some).map _) (k.wait parent).state
    rcases wait_outcome h parent with
      ⟨child, code, rfl, hparent, hresult, hchild, hdead, hfate, hnext⟩ | ⟨⟨e, hresult⟩, hsame⟩
    · rw [hresult]
      exact Course.reaped child code rfl hparent rfl hchild hdead hfate hnext
    · rw [hresult]
      exact Course.of_error hsame
  · have hmarked : SameFates k (k.wait parent).state := by
      rcases wait_outcome h parent with ⟨_, _, _, _, hresult, _⟩ | ⟨-, hsame⟩
      · rw [hresult] at hblocks
        cases hblocks
      · exact hsame
    have hblocked := hmarked.trans (sameFates_blockProcess (wait_proper h parent) parent)
    rw [hrun]
    show Course k _ ((((k.wait parent).state.blockProcess parent).result.map _).map _)
      ((k.wait parent).state.blockProcess parent).state
    cases ((k.wait parent).state.blockProcess parent).result with
    | error e => exact Course.of_error hblocked
    | ok _ => exact Course.of_reply hblocked rfl

theorem exec_course (h : k.sched.Proper) :
    Course k request (k.commit (k.exec pid)).result (k.commit (k.exec pid)).state := by
  cases hrun : k.exec pid with
  | error e => exact Course.of_error (SameFates.refl k)
  | ok after => exact Course.of_reply (sameFates_exec h hrun) rfl

theorem access_course (h : k.sched.Proper) (act : Memory.Request) :
    Course k request (k.access pid act).result (k.access pid act).state := by
  rcases access_cases k pid act with ⟨e, hrun, -⟩ | ⟨task, space, hfind, -, hrun⟩
  · rw [hrun]
    exact Course.of_error (SameFates.refl k)
  · let served := (Memory.mk space k.pool).serve act
    have hput := SameFates.put h { task with space := some served.state.space } served.state.pool
      hfind rfl
    rw [hrun]
    exact Course.of_map hput (fun _ => rfl) served.result

/-- Every request takes one of the four courses. -/
theorem serve_course (h : k.sched.Proper) (request : Request) :
    Course k request (k.serve request).result (k.serve request).state := by
  cases request with
  | createInit => exact createInit_course k
  | spawn name parent pages => exact spawn_course k name parent pages
  | schedule => exact Course.of_reply (sameFates_schedule k) rfl
  | timerTick => exact Course.of_reply (sameFates_timerTick h) rfl
  | sleep interruptible =>
      exact Course.of_map (sameFates_sleep h interruptible) (fun _ => rfl) _
  | wakeAll => exact Course.of_reply (sameFates_wakeAll k) rfl
  | fork parent => exact fork_course h parent
  | exit pid code => exact exit_course
  | wait parent => exact wait_course h parent
  | waitOrBlock parent => exact waitOrBlock_course h parent
  | kill pid signal => exact kill_course h
  | exec pid => exact exec_course h
  | access pid request => exact access_course h request
  | shutdown => exact Course.of_reply (SameFates.refl k) rfl

/-- Process `pid` has been created, and does not live. -/
structure Over (k : Kernel) (pid : Pid) : Prop where
  created : pid < k.sched.nextPid
  ended : k.sched.fate? pid ≠ some none

/-- Process `pid` has been created, and has left the table. -/
structure Gone (k : Kernel) (pid : Pid) : Prop where
  created : pid < k.sched.nextPid
  absent : k.sched.fate? pid = none

/-- Whoever is in the table has been created. -/
theorem created_of_fate? (h : k.sched.Proper) {fate : Option Int}
    (hfate : k.sched.fate? pid = some fate) : pid < k.sched.nextPid := by
  obtain ⟨task, hfind, -⟩ := Option.map_eq_some_iff.mp hfate
  have hlt := h.pid_lt task (Scheduler.mem_tasks_of_find? hfind)
  rw [Scheduler.pid_of_find? hfind] at hlt
  exact hlt

theorem SameFates.over_after (hsame : SameFates k after) (h : Over k pid) : Over after pid := by
  refine ⟨?_, ?_⟩
  · rw [hsame.nextPid_eq]
    exact h.created
  · rw [hsame.fate?_eq]
    exact h.ended

/-- A request takes one number at most. -/
theorem Course.nextPid_cases {result : Except KernelError Reply}
    (h : Course k request result after) :
    after.sched.nextPid = k.sched.nextPid ∨ after.sched.nextPid = k.sched.nextPid + 1 := by
  cases h with
  | quiet _ _ hnext => exact hnext
  | created _ _ _ hnext => exact Or.inr hnext
  | ended _ _ _ _ _ _ hnext => exact Or.inl hnext
  | reaped _ _ _ _ _ _ _ _ hnext => exact Or.inl hnext

/-- Numbers are given out in order. -/
theorem Course.nextPid_le {result : Except KernelError Reply}
    (h : Course k request result after) : k.sched.nextPid ≤ after.sched.nextPid := by
  rcases h.nextPid_cases with hsame | hnext
  · exact hsame.ge
  · exact hnext ▸ Nat.le_succ _

/-- How process `pid` fares while a request is served. -/
inductive Fares (k : Kernel) (request : Request) (result : Except KernelError Reply)
    (after : Kernel) (pid : Pid) : Prop where
  | unchanged (hsame : after.sched.fate? pid = k.sched.fate? pid)
  | born (hpid : pid = k.sched.nextNumber) (hbefore : k.sched.fate? pid = none)
      (hnext : after.sched.nextPid = k.sched.nextPid + 1)
      (hafter : after.sched.fate? pid = some none)
  | died (code : Int) (hrequest : request.ending? = some (pid, code)) (hresult : result = .ok .done)
      (hbefore : k.sched.fate? pid = some none) (hafter : after.sched.fate? pid = some (some code))
  | buried (code : Int) (hresult : result = .ok (.reaped pid code))
      (hbefore : k.sched.fate? pid = some (some code)) (hafter : after.sched.fate? pid = none)

theorem Course.fares {result : Except KernelError Reply} (h : Course k request result after)
    (pid : Pid) : Fares k request result after pid := by
  cases h with
  | quiet _ hfate _ => exact Fares.unchanged (hfate pid)
  | created _ hfree hfate hnext =>
      by_cases hpid : k.sched.nextNumber = pid
      · subst hpid
        exact Fares.born rfl hfree hnext (by rw [hfate, if_pos rfl])
      · exact Fares.unchanged (by rw [hfate, if_neg hpid])
  | ended q code hrequest hresult hlive hfate _ =>
      by_cases hpid : q = pid
      · subst hpid
        exact Fares.died code hrequest hresult hlive (by rw [hfate, if_pos rfl])
      · exact Fares.unchanged (by rw [hfate, if_neg hpid])
  | reaped child code _ _ hresult hchild hdead hfate _ =>
      by_cases hpid : child.pid = pid
      · subst hpid
        have hbefore : k.sched.fate? child.pid = some (some code) := by
          rw [Scheduler.fate?_of_find? hchild, hdead]
        exact Fares.buried code hresult hbefore (by rw [hfate, if_pos rfl])
      · exact Fares.unchanged (by rw [hfate, if_neg hpid])

/-- Whoever has been created is not created again, as long as no number comes round. -/
theorem ne_nextNumber (hcreated : pid < k.sched.nextPid)
    (hnext : after.sched.nextPid = k.sched.nextPid + 1) (hfit : after.NumbersFit) :
    pid ≠ k.sched.nextNumber := by
  have hbefore : k.NumbersFit := hfit.of_le (hnext ▸ Nat.le_succ _)
  rw [Scheduler.nextNumber_eq hbefore]
  exact Nat.ne_of_lt hcreated

theorem Course.over_after {result : Except KernelError Reply} (h : Course k request result after)
    (hover : Over k pid) (hfit : after.NumbersFit) : Over after pid := by
  refine ⟨Nat.lt_of_lt_of_le hover.created h.nextPid_le, ?_⟩
  cases h.fares pid with
  | unchanged hsame =>
      rw [hsame]
      exact hover.ended
  | born hpid _ hnext _ => exact absurd hpid (ne_nextNumber hover.created hnext hfit)
  | died _ _ _ _ hafter => simp [hafter]
  | buried _ _ _ hafter => simp [hafter]

theorem Course.gone_after {result : Except KernelError Reply} (h : Course k request result after)
    (hgone : Gone k pid) (hfit : after.NumbersFit) : Gone after pid := by
  refine ⟨Nat.lt_of_lt_of_le hgone.created h.nextPid_le, ?_⟩
  cases h.fares pid with
  | unchanged hsame => exact hsame.trans hgone.absent
  | born hpid _ hnext _ => exact absurd hpid (ne_nextNumber hgone.created hnext hfit)
  | died _ _ _ hbefore _ => simp [hgone.absent] at hbefore
  | buried _ _ _ hafter => exact hafter

/-- Whoever has ended never lives again, as long as no number comes round. -/
theorem serve_over (h : k.sched.Proper) (hover : Over k pid) {request : Request}
    (hfit : (k.serve request).state.NumbersFit) : Over (k.serve request).state pid :=
  (serve_course h request).over_after hover hfit

/-- Whoever has left the table never comes back, as long as no number comes round. -/
theorem serve_gone (h : k.sched.Proper) (hgone : Gone k pid) {request : Request}
    (hfit : (k.serve request).state.NumbersFit) : Gone (k.serve request).state pid :=
  (serve_course h request).gone_after hgone hfit

/-- A number that has come round has done so for good. -/
theorem numbersFit_of_serve (h : k.sched.Proper) {request : Request}
    (hfit : (k.serve request).state.NumbersFit) : k.NumbersFit :=
  hfit.of_le (serve_course h request).nextPid_le

/-- Numbers are given out in order in every run of proper tables. -/
theorem nextPid_le_serveAll (holds : Kernel → Prop) (hproper : ∀ k, holds k → k.sched.Proper)
    (hserve : ∀ k request, holds k → holds (k.serve request).state) (h : holds k)
    (requests : List Request) : k.sched.nextPid ≤ (k.serveAll requests).2.sched.nextPid := by
  induction requests generalizing k with
  | nil => exact Nat.le_refl _
  | cons request rest ih =>
      exact (serve_course (hproper k h) request).nextPid_le.trans (ih (hserve k request h))

theorem numbersFit_of_serveAll (h : Dispatched k) {requests : List Request}
    (hfit : (k.serveAll requests).2.NumbersFit) : k.NumbersFit :=
  hfit.of_le (nextPid_le_serveAll Dispatched (fun _ hk => hk.proper)
    (fun _ request hk => serve_dispatched hk request) h requests)

/-- Where the numbers of a run fit, those of the first part of it do. -/
theorem numbersFit_of_prefix (h : Dispatched k) {done requests : List Request}
    (hdone : done <+: requests) (hfit : (k.serveAll requests).2.NumbersFit) :
    (k.serveAll done).2.NumbersFit := by
  obtain ⟨rest, rfl⟩ := hdone
  induction done generalizing k with
  | nil => exact numbersFit_of_serveAll h hfit
  | cons request done ih => exact ih (serve_dispatched h request) hfit

/-- Numbers fit throughout every run of fewer requests than there are numbers left. -/
theorem numbersFit_of_length (h : Dispatched k) {requests : List Request}
    (hroom : k.sched.nextPid + requests.length < UInt32.size) :
    (k.serveAll requests).2.NumbersFit := by
  induction requests generalizing k with
  | nil => exact hroom
  | cons request rest ih =>
      apply ih (serve_dispatched h request)
      have hstep := (serve_course h.proper request).nextPid_cases
      rw [List.length_cons] at hroom
      omega

/-- From the start on there are numbers for as many requests as a word can count. -/
theorem ofConfig_numbersFit (config : Config) {requests : List Request}
    (hroom : requests.length + 1 < UInt32.size) :
    ((ofConfig config).serveAll requests).2.NumbersFit := by
  apply numbersFit_of_length (ofConfig_dispatched config)
  rw [Nat.add_comm]
  exact hroom

end Kernelet.Kernel
