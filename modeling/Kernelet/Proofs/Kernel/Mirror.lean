import Kernelet.Proofs.Kernel.Balance
import Kernelet.Proofs.Kernel.Course
import Kernelet.Proofs.Process.Mirror

/-!
Two kernels that tell the same story under different numbers, with memories that differ in marks
(`Kernel.Mirrors`). Whatever is asked of the one under some numbers, and of the other under those
that they are renamed to, has the same outcome but for the numbers in it, and the kernels go on to
be mirrors of each other (`serve_mirrors`). So nobody who asks them can tell them apart
(`serveAll_mirrors`), as long as new numbers are given out in step (`InStep`).
-/

namespace Kernelet

theorem error_of_map {α β : Type} {f : α → β} {result : Except KernelError α} {e : KernelError}
    (h : result.map f = .error e) : result = .error e := by
  cases result with
  | error e => exact congrArg Except.error (Except.error.inj h)
  | ok a => cases h

namespace Memory

/-! ### Errors that name no process -/

variable {total reserved : Nat} {others : List PageTable} {m : Memory} {e : KernelError}
  (rename : Pid → Pid)

theorem readByte_error_rename (h : Fits total reserved others m) {a : VirtAddr}
    (hrun : m.readByte a = .error e) : e.rename rename = e := by
  rw [readByte_eq h] at hrun
  split at hrun
  · cases hrun
    rfl
  · cases hrun

theorem rangeAddress_error_rename {a : VirtAddr} {i : Nat}
    (hrun : rangeAddress a i = .error e) : e.rename rename = e := by
  unfold rangeAddress at hrun
  split at hrun
  · cases hrun
  · cases hrun
    rfl

theorem readFrom_error_rename (h : Fits total reserved others m) {a : VirtAddr} {i count : Nat}
    (hrun : m.readFrom a i count = .error e) : e.rename rename = e := by
  induction count generalizing i with
  | zero => cases hrun
  | succ count ih =>
      unfold readFrom at hrun
      split at hrun
      · rename_i haddress
        cases hrun
        exact rangeAddress_error_rename rename haddress
      · split at hrun
        · rename_i hread
          cases hrun
          exact readByte_error_rename rename h hread
        · exact ih (error_of_map hrun)

theorem writeByte_error_rename (h : Fits total reserved others m) {a : VirtAddr} {byte : UInt8}
    (hrun : (m.writeByte a byte).result = .error e) : e.rename rename = e := by
  rcases writeByte_cases h a byte with
    ⟨-, hwrite⟩ | ⟨page, -, ⟨-, hwrite⟩ | ⟨-, ⟨-, hwrite⟩ | ⟨after, hwrite, -⟩⟩⟩
  all_goals
    rw [hwrite] at hrun
    cases hrun
  all_goals rfl

theorem writeFrom_error_rename (h : Fits total reserved others m) {a : VirtAddr} {i : Nat}
    {bytes : List UInt8} (hrun : (m.writeFrom a i bytes).result = .error e) :
    e.rename rename = e := by
  induction bytes generalizing m i with
  | nil => cases hrun
  | cons byte rest ih =>
      unfold writeFrom at hrun
      split at hrun
      · rename_i haddress
        cases hrun
        exact rangeAddress_error_rename rename haddress
      · rename_i b _
        have hafter := writeByte_fits h b byte
        split at hrun
        · rename_i hwrite
          cases hrun
          exact writeByte_error_rename rename h (congrArg Outcome.result hwrite)
        · rename_i hwrite
          rw [hwrite] at hafter
          exact ih hafter hrun

/-- What is wrong with a request for memory has nothing to do with the number of its process. -/
theorem serve_error_rename (h : Fits total reserved others m) {request : Request}
    (hrun : (m.serve request).result = .error e) : e.rename rename = e := by
  cases request with
  | map a flags =>
      rcases mapPage_error (error_of_map hrun) with rfl | ⟨b, rfl⟩
      · rfl
      · rfl
  | readByte a => exact readByte_error_rename rename h (error_of_map hrun)
  | writeByte a byte => exact writeByte_error_rename rename h (error_of_map hrun)
  | readRange a length => exact readFrom_error_rename rename h (error_of_map hrun)
  | writeRange a bytes => exact writeFrom_error_rename rename h (error_of_map hrun)
  | expandBrk _ => cases hrun
  | release => cases hrun
  | setCode _ _ => cases hrun
  | setData _ _ => cases hrun

end Memory

namespace Kernel

/-- The request with all its numbers renamed. -/
def Request.rename (rename : Pid → Pid) : Request → Request
  | .spawn name parent pages => .spawn name (rename parent) pages
  | .fork parent => .fork (rename parent)
  | .exit pid code => .exit (rename pid) code
  | .wait parent => .wait (rename parent)
  | .waitOrBlock parent => .waitOrBlock (rename parent)
  | .kill pid signal => .kill (rename pid) signal
  | .exec pid => .exec (rename pid)
  | .access pid request => .access (rename pid) request
  | request => request

/-- The answer with all its numbers renamed. -/
def Reply.rename (rename : Pid → Pid) : Reply → Reply
  | .created pid => .created (rename pid)
  | .selected next => .selected (next.map rename)
  | .reaped pid code => .reaped (rename pid) code
  | reply => reply

/-- The result with all its numbers renamed, those of a value by `value`. -/
def renameResult {α : Type} (rename : Pid → Pid) (value : α → α) :
    Except KernelError α → Except KernelError α
  | .ok a => .ok (value a)
  | .error e => .error (e.rename rename)

/-- The kernels agree but for the numbers of their processes, for marks, and for what is in frames
that nobody uses. Their gates may differ, since no answer depends on the gate. -/
structure Mirrors (rename : Pid → Pid) (k other : Kernel) : Prop where
  sched : k.sched.Mirrors rename other.sched
  pool : k.pool.Unchanged other.pool
  config_eq : other.config = k.config

/-- Up to kernel `last` new numbers go along with the renaming: none is renamed at all, or no
number has come round. -/
def InStep (rename : Pid → Pid) (last : Kernel) : Prop :=
  (∀ pid, rename pid = pid) ∨ last.NumbersFit

/-- The same result but for numbers, and kernels that are mirrors of each other. -/
structure MirroredOutcome {α : Type} (rename : Pid → Pid) (value : α → α)
    (o p : Outcome Kernel α) : Prop where
  result_eq : p.result = renameResult rename value o.result
  state : o.state.Mirrors rename p.state

/-- Both are refused for the same reason, or both go on as mirrors of each other. -/
inductive MirroredResult (rename : Pid → Pid) :
    Except KernelError Kernel → Except KernelError Kernel → Prop
  | error (e : KernelError) : MirroredResult rename (.error e) (.error (e.rename rename))
  | ok {k other : Kernel} (h : k.Mirrors rename other) :
      MirroredResult rename (.ok k) (.ok other)

variable {rename : Pid → Pid} {k other : Kernel} {task task' : Task} {pid : Pid}
  {total reserved : Nat}

namespace MirroredOutcome

variable {α β : Type} {value : α → α} {o p : Outcome Kernel α}

theorem cases (h : MirroredOutcome rename value o p) :
    ∃ result after next, o = ⟨result, after⟩ ∧ p = ⟨renameResult rename value result, next⟩ ∧
      after.Mirrors rename next := by
  obtain ⟨result, after⟩ := o
  obtain ⟨result', next⟩ := p
  have hresult : result' = renameResult rename value result := h.result_eq
  exact ⟨result, after, next, rfl, by rw [hresult], h.state⟩

theorem map (h : MirroredOutcome rename value o p) {f : α → β} {value' : β → β}
    (hvalue : ∀ a, f (value a) = value' (f a)) :
    MirroredOutcome rename value' (o.map f) (p.map f) := by
  obtain ⟨result, after, next, rfl, rfl, hmirrors⟩ := h.cases
  refine ⟨?_, hmirrors⟩
  cases result with
  | error e => rfl
  | ok a => exact congrArg Except.ok (hvalue a)

end MirroredOutcome

namespace Mirrors

theorem withSched (h : k.Mirrors rename other) {sched sched' : Scheduler}
    (hsched : sched.Mirrors rename sched') :
    Mirrors rename { k with sched } { other with sched := sched' } :=
  ⟨hsched, h.pool, h.config_eq⟩

theorem withMachine (h : k.Mirrors rename other) {m m' : Machine}
    (hsched : m.sched.Mirrors rename m'.sched) (hpool : m.pool.Unchanged m'.pool) :
    (k.withMachine m).Mirrors rename (other.withMachine m') :=
  ⟨hsched, hpool, h.config_eq⟩

theorem grant (h : k.Mirrors rename other) (next : Option Pid) :
    (k.grant next).Mirrors rename (other.grant (next.map rename)) :=
  ⟨h.sched, h.pool, h.config_eq⟩

theorem newSpace_eq (h : k.Mirrors rename other) : other.newSpace = k.newSpace := by
  unfold newSpace
  rw [h.config_eq]

end Mirrors

/-! ### The clock and the choice -/

theorem schedule_mirrors (hrename : Renaming rename) (h : k.Mirrors rename other) :
    other.schedule.1 = k.schedule.1.map rename ∧
      k.schedule.2.Mirrors rename other.schedule.2 := by
  obtain ⟨hnext, hsched⟩ := h.sched.schedule hrename
  unfold schedule
  dsimp only
  rw [hnext]
  exact ⟨rfl, (h.withSched hsched).grant _⟩

theorem reselect_mirrors (hrename : Renaming rename) (h : k.Mirrors rename other) (pid : Pid) :
    (k.reselect pid).Mirrors rename (other.reselect (rename pid)) := by
  have hcurrent : other.current = some (rename pid) ↔ k.current = some pid :=
    h.sched.current_eq_iff hrename pid
  unfold reselect
  by_cases hself : k.current = some pid
  · rw [if_pos hself, if_pos (hcurrent.mpr hself)]
    exact (schedule_mirrors hrename h).2
  · rw [if_neg hself, if_neg (mt hcurrent.mp hself)]
    exact h

theorem timerTick_mirrors (hrename : Renaming rename) (h : k.Mirrors rename other) :
    other.timerTick.1 = k.timerTick.1 ∧ k.timerTick.2.Mirrors rename other.timerTick.2 := by
  obtain ⟨hselected, hsched⟩ := h.sched.timerTick hrename
  unfold timerTick
  rcases hrun : k.sched.timerTick with ⟨selected, sched⟩
  rcases hrun' : other.sched.timerTick with ⟨selected', sched'⟩
  rw [hrun, hrun'] at hselected hsched
  cases hselected
  cases selected with
  | false => exact ⟨rfl, h.withSched hsched⟩
  | true =>
      refine ⟨rfl, ?_⟩
      dsimp only
      rw [hsched.current_eq]
      exact (h.withSched hsched).grant _

theorem sleep_mirrors (hrename : Renaming rename) (h : k.Mirrors rename other)
    (interruptible : Bool) :
    MirroredOutcome rename (Option.map rename) (k.sleep interruptible)
      (other.sleep interruptible) := by
  unfold sleep
  rcases h.sched.sleep_cases hrename interruptible with
    ⟨e, hrun, hrun'⟩ | ⟨next, a, b, hrun, hrun', hsched⟩
  · rw [hrun, hrun']
    exact ⟨rfl, h⟩
  · rw [hrun, hrun']
    exact ⟨rfl, (h.withSched hsched).grant next⟩

theorem wakeAll_mirrors (h : k.Mirrors rename other) :
    other.wakeAll.1 = k.wakeAll.1 ∧ k.wakeAll.2.Mirrors rename other.wakeAll.2 := by
  obtain ⟨hcount, hsched⟩ := h.sched.wakeAll
  exact ⟨hcount, h.withSched hsched⟩

/-! ### Creation -/

theorem InStep.nextNumber_eq (hrename : Renaming rename) (h : k.Mirrors rename other)
    (hstep : InStep rename (other.enlist task')) :
    other.sched.nextNumber = rename k.sched.nextNumber := by
  rcases hstep with hsame | hfit
  · have hnext : other.sched.nextPid = rename k.sched.nextPid := h.sched.nextPid_eq 0
    rw [hsame] at hnext ⊢
    exact congrArg (· % UInt32.size) hnext
  · exact h.sched.nextNumber_eq hrename (numbersFit_of_enlist hfit)

theorem enlist_mirrors (hrename : Renaming rename) (h : k.Mirrors rename other)
    (hnumber : other.sched.nextNumber = rename k.sched.nextNumber)
    (htask : task.Mirrors rename task') :
    MirroredOutcome rename rename ⟨k.enlisted task, k.enlist task⟩
      ⟨other.enlisted task', other.enlist task'⟩ := by
  have hsched := h.sched.allocatePid
  unfold enlisted enlist Machine.add
  dsimp only
  rw [hnumber]
  rcases hsched.add_cases hrename htask with ⟨e, hadd, hadd'⟩ | ⟨a, b, hadd, hadd', hadded⟩
  · rw [hadd, hadd']
    exact ⟨rfl, h.withMachine hsched (htask.discard h.pool)⟩
  · rw [hadd, hadd']
    exact ⟨rfl, h.withMachine hadded h.pool⟩

theorem newImage_marked (h : k.Mirrors rename other) (pages : Nat) :
    Memory.MarkedOutcome (k.newImage pages) (other.newImage pages) := by
  have hempty : Memory.Marked ⟨k.newSpace, k.pool⟩ ⟨other.newSpace, other.pool⟩ := by
    rw [h.newSpace_eq]
    exact ⟨AddressSpace.Marked.refl k.newSpace, h.pool⟩
  obtain ⟨result, after, next, hrun, hrun', hmarked⟩ :=
    (Memory.mapPages_marked hempty 0 .userData pages).cases
  unfold newImage
  rw [hrun, hrun']
  cases result with
  | error e => exact ⟨rfl, Memory.release_marked hmarked⟩
  | ok done => exact ⟨rfl, hmarked.space.setData 0 (pages * pageSize), hmarked.pool⟩

/-- What is wrong with an image has nothing to do with numbers. -/
theorem newImage_error_rename {pages : Nat} {m : Memory} {e : KernelError}
    (hrun : k.newImage pages = ⟨.error e, m⟩) (rename : Pid → Pid) : e.rename rename = e := by
  unfold newImage at hrun
  split at hrun
  · rename_i hpages
    cases hrun
    rcases Memory.mapPages_error (congrArg Outcome.result hpages) with rfl | ⟨a, rfl⟩
    · rfl
    · rfl
  · cases hrun

theorem spawn_mirrors (hrename : Renaming rename) (h : k.Mirrors rename other) {name : String}
    {parent : Pid} {pages : Nat}
    (hstep : InStep rename (other.spawn name (rename parent) pages).state) :
    MirroredOutcome rename rename (k.spawn name parent pages)
      (other.spawn name (rename parent) pages) := by
  have hparent : (rename parent ≠ 0 ∧ other.sched.contains (rename parent) = false) ↔
      (parent ≠ 0 ∧ k.sched.contains parent = false) := by
    rw [h.sched.contains_eq hrename, Ne, hrename.eq_zero_iff]
  unfold spawn at hstep ⊢
  by_cases hmissing : parent ≠ 0 ∧ k.sched.contains parent = false
  · rw [if_pos hmissing, if_pos (hparent.mpr hmissing)]
    exact ⟨rfl, h⟩
  · rw [if_neg (mt hparent.mp hmissing)] at hstep
    rw [if_neg hmissing, if_neg (mt hparent.mp hmissing)]
    obtain ⟨result, m, m', himage, himage', hmarked⟩ := (newImage_marked h pages).cases
    have hpool : Mirrors rename { k with pool := m.pool } { other with pool := m'.pool } :=
      ⟨h.sched, hmarked.pool, h.config_eq⟩
    rw [himage'] at hstep
    rw [himage, himage']
    cases result with
    | error e => exact ⟨congrArg Except.error (newImage_error_rename himage rename).symm, hpool⟩
    | ok done =>
        have hnumber := InStep.nextNumber_eq hrename hpool hstep
        have hborn := Task.mirrors_new name parent hmarked.space k.config.defaultPriority.toNat
          k.config.defaultCounter.toNat hnumber h.sched.jiffies_eq
        dsimp only
        rw [h.config_eq]
        exact enlist_mirrors hrename hpool hnumber hborn

theorem createInit_mirrors (hrename : Renaming rename) (h : k.Mirrors rename other)
    (hstep : InStep rename other.createInit.state) :
    MirroredOutcome rename rename k.createInit other.createInit := by
  have hthere := h.sched.contains_eq hrename initPid
  rw [hrename.init] at hthere
  unfold createInit at hstep ⊢
  rw [hthere] at hstep ⊢
  split
  · refine ⟨?_, h⟩
    show Except.error (KernelError.alreadyExists initPid) =
      Except.error (KernelError.alreadyExists (rename initPid))
    rw [hrename.init]
  · rename_i hfree
    rw [if_neg hfree, ← hrename.zero] at hstep
    have hspawn := spawn_mirrors hrename h hstep
    rw [hrename.zero] at hspawn
    exact hspawn

/-- Both are duplicated, and so are their spaces. -/
theorem fork_mirrors (hrename : Renaming rename) (h : k.Mirrors rename other) {parent : Pid}
    (hstep : InStep rename (other.fork (rename parent)).state) :
    MirroredOutcome rename rename (k.fork parent) (other.fork (rename parent)) := by
  unfold fork find? at hstep ⊢
  rcases h.sched.find?_cases hrename parent with
    ⟨hleft, hright⟩ | ⟨task, task', hleft, hright, htask⟩
  · rw [hleft, hright]
    exact ⟨rfl, h⟩
  · rw [hright] at hstep
    rw [hleft, hright]
    dsimp only at hstep ⊢
    rw [htask.isZombie_eq] at hstep
    rw [htask.isZombie_eq, htask.invalidState_eq]
    split
    · exact ⟨rfl, h⟩
    · rename_i hlive
      rw [if_neg hlive] at hstep
      rcases htask.space_cases with ⟨hnone, hnone'⟩ | ⟨space, space', hspace, hspace', hmarked⟩
      · rw [hnone, hnone']
        exact ⟨rfl, h⟩
      · rw [hspace'] at hstep
        rw [hspace, hspace']
        dsimp only at hstep ⊢
        have hmemory : Memory.Marked ⟨space, k.pool⟩ ⟨space', other.pool⟩ := ⟨hmarked, h.pool⟩
        rcases Memory.fork_marked hmemory with
          ⟨e, m, m', hrun, hrun', hafter⟩ | ⟨child, child', m, m', hrun, hrun', hchild, hafter⟩
        · obtain ⟨f, rfl⟩ := Memory.fork_error (congrArg Outcome.result hrun)
          have hput := h.sched.put hrename (htask.withSpace (Option.Rel.some hafter.space))
          rw [hrun, hrun']
          exact ⟨rfl, hput, hafter.pool, h.config_eq⟩
        · have hshared := htask.withSpace (Option.Rel.some hafter.space)
          have hput := h.sched.put hrename hshared
          have hmachine : Mirrors rename
              { k with sched := k.sched.put { task with space := some m.space }, pool := m.pool }
              { other with
                sched := other.sched.put { task' with space := some m'.space }
                pool := m'.pool } :=
            ⟨hput, hafter.pool, h.config_eq⟩
          rw [hrun'] at hstep
          have hnumber := InStep.nextNumber_eq hrename hmachine hstep
          have hborn := hshared.forkChild hnumber hchild h.sched.jiffies_eq
          rw [hrun, hrun']
          exact enlist_mirrors hrename hmachine hnumber hborn

/-! ### The end -/

theorem heir_rename (hrename : Renaming rename) (pid : Pid) :
    heir (rename pid) = rename (heir pid) := by
  unfold heir
  by_cases hfirst : pid = initPid
  · rw [if_pos hfirst, if_pos (hrename.eq_init_iff.mpr hfirst), hrename.zero]
  · rw [if_neg hfirst, if_neg (mt hrename.eq_init_iff.mp hfirst), hrename.init]

theorem reparent_mirrors (hrename : Renaming rename) {s t : Scheduler} (h : s.Mirrors rename t)
    (pid : Pid) : (reparent s pid).Mirrors rename (reparent t (rename pid)) := by
  refine h.mapTasks ?_
  intro task task' htask
  rw [htask.ppid_eq, heir_rename hrename]
  by_cases horphan : task.ppid = pid
  · rw [if_pos horphan, if_pos (congrArg rename horphan)]
    exact htask.withParent (heir pid)
  · rw [if_neg horphan, if_neg (fun heq => horphan (hrename.injective heq))]
    exact htask

theorem bury_mirrors (hrename : Renaming rename) (h : k.Mirrors rename other)
    (htask : task.Mirrors rename task') (code : Int) :
    (k.bury task code).Mirrors rename (other.bury task' code) := by
  have hended := h.sched.put hrename (htask.terminated code)
  have horphans := reparent_mirrors hrename hended task.pid
  have htold := horphans.update hrename task.ppid fun _ _ hparent =>
    hparent.impersonal Task.impersonal_notifyParent
  unfold bury
  rw [htask.pid_eq, htask.ppid_eq]
  exact ⟨htold, htask.discard h.pool, h.config_eq⟩

theorem exit_mirrors (hrename : Renaming rename) (h : k.Mirrors rename other) (pid : Pid)
    (code : Int) : MirroredResult rename (k.exit pid code) (other.exit (rename pid) code) := by
  rcases h.sched.find?_cases hrename pid with
    ⟨hleft, hright⟩ | ⟨task, task', hleft, hright, htask⟩
  · unfold exit find?
    rw [hleft, hright]
    exact MirroredResult.error (.noSuchProcess pid)
  · rw [exit_of_find? hleft, exit_of_find? hright, htask.isZombie_eq, htask.invalidState_eq]
    split
    · exact MirroredResult.error task.invalidState
    · exact MirroredResult.ok (reselect_mirrors hrename (bury_mirrors hrename h htask code) pid)

theorem kill_mirrors (hrename : Renaming rename) (h : k.Mirrors rename other) (pid : Pid)
    (signal : Signal) :
    MirroredResult rename (k.kill pid signal) (other.kill (rename pid) signal) := by
  unfold kill find?
  rcases h.sched.find?_cases hrename pid with
    ⟨hleft, hright⟩ | ⟨task, task', hleft, hright, htask⟩
  · rw [hleft, hright]
    exact MirroredResult.error (.noSuchProcess pid)
  · have hsent := h.withSched (h.sched.put hrename (htask.impersonal
      (Task.impersonal_send signal)))
    rw [hleft, hright]
    dsimp only
    rw [htask.isZombie_eq]
    split
    · exact MirroredResult.ok h
    · split
      · exact exit_mirrors hrename hsent pid Signal.kill.exitCode
      · exact MirroredResult.ok (reselect_mirrors hrename hsent pid)
      · exact MirroredResult.ok hsent

theorem exec_mirrors (hrename : Renaming rename) (h : k.Mirrors rename other) (pid : Pid) :
    MirroredResult rename (k.exec pid) (other.exec (rename pid)) := by
  unfold exec find?
  rcases h.sched.find?_cases hrename pid with
    ⟨hleft, hright⟩ | ⟨task, task', hleft, hright, htask⟩
  · rw [hleft, hright]
    exact MirroredResult.error (.noSuchProcess pid)
  · have hreset := htask.impersonal Task.impersonal_execReset
    have hfresh := hreset.withSpace
      (Option.Rel.some (AddressSpace.Marked.refl k.newSpace))
    rw [hleft, hright]
    dsimp only
    rw [htask.isZombie_eq, htask.invalidState_eq]
    split
    · exact MirroredResult.error task.invalidState
    · unfold Task.replaceSpace
      rw [h.newSpace_eq]
      exact MirroredResult.ok
        ⟨h.sched.put hrename hfresh, hreset.discard h.pool, h.config_eq⟩

/-! ### Waiting -/

theorem mark_mirrors (hrename : Renaming rename) (h : k.Mirrors rename other) (pid : Pid)
    (waiting : Bool) :
    Mirrors rename { k with sched := k.sched.update pid (Task.markWaiting waiting) }
      { other with sched := other.sched.update (rename pid) (Task.markWaiting waiting) } :=
  h.withSched (h.sched.update hrename pid fun _ _ htask =>
    htask.impersonal (Task.impersonal_markWaiting waiting))

theorem remove_mirrors (hrename : Renaming rename) (h : k.Mirrors rename other) (pid : Pid) :
    (k.withMachine (k.toMachine.remove pid).2).Mirrors rename
      (other.withMachine (other.toMachine.remove (rename pid)).2) := by
  have hsched := h.sched.remove hrename pid
  have hfst := k.sched.remove_fst pid
  have hfst' := other.sched.remove_fst (rename pid)
  unfold Machine.remove
  rcases hrun : k.sched.remove pid with ⟨gone, sched⟩
  rcases hrun' : other.sched.remove (rename pid) with ⟨gone', sched'⟩
  rw [hrun] at hfst hsched
  rw [hrun'] at hfst' hsched
  rcases h.sched.find?_cases hrename pid with
    ⟨hleft, hright⟩ | ⟨task, task', hleft, hright, htask⟩
  · obtain rfl : gone = none := hfst.trans hleft
    obtain rfl : gone' = none := hfst'.trans hright
    exact h.withMachine hsched h.pool
  · obtain rfl : gone = some task := hfst.trans hleft
    obtain rfl : gone' = some task' := hfst'.trans hright
    exact h.withMachine hsched (htask.discard h.pool)

/-- A child that is reaped, under its other number. -/
def renameReaped (rename : Pid → Pid) (reaped : Pid × Int) : Pid × Int :=
  (rename reaped.1, reaped.2)

theorem wait_mirrors (hrename : Renaming rename) (h : k.Mirrors rename other) (parent : Pid) :
    MirroredOutcome rename (renameReaped rename) (k.wait parent)
      (other.wait (rename parent)) := by
  have hchildren := h.sched.childrenOf hrename parent
  unfold wait
  rw [h.sched.contains_eq hrename]
  split
  · rcases option_cases (forall₂_find? (fun _ _ htask => htask.isZombie_eq)
      hchildren) with ⟨hleft, hright⟩ | ⟨child, child', hleft, hright, hchild⟩
    · dsimp only
      rw [hleft, hright]
      have hempty : (other.sched.childrenOf (rename parent)).isEmpty =
          (k.sched.childrenOf parent).isEmpty := by
        rw [Bool.eq_iff_iff, List.isEmpty_iff_length_eq_zero, List.isEmpty_iff_length_eq_zero,
          hchildren.length_eq]
      dsimp only
      rw [hempty]
      split
      · exact ⟨rfl, h⟩
      · exact ⟨rfl, mark_mirrors hrename h parent true⟩
    · dsimp only
      rw [hleft, hright]
      refine ⟨?_, ?_⟩
      · show Except.ok (child'.pid, child'.exitCode.getD 0) =
          Except.ok (rename child.pid, child.exitCode.getD 0)
        rw [hchild.pid_eq, hchild.exitCode_eq]
      · have hmarked := mark_mirrors hrename h parent false
        have hremoved := remove_mirrors hrename hmarked child.pid
        rw [← hchild.pid_eq] at hremoved
        exact hremoved
  · exact ⟨rfl, h⟩

theorem blockProcess_mirrors (hrename : Renaming rename) (h : k.Mirrors rename other)
    (pid : Pid) :
    MirroredOutcome rename id (k.blockProcess pid) (other.blockProcess (rename pid)) := by
  unfold blockProcess find?
  rcases h.sched.find?_cases hrename pid with
    ⟨hleft, hright⟩ | ⟨task, task', hleft, hright, htask⟩
  · rw [hleft, hright]
    exact ⟨rfl, h⟩
  · rw [hleft, hright]
    dsimp only
    rcases htask.block_cases true with
      ⟨hblock, hblock'⟩ | ⟨blocked, blocked', hblock, hblock', hblocked⟩
    · rw [hblock, hblock']
      exact ⟨rfl, h⟩
    · rw [hblock, hblock']
      exact ⟨rfl, reselect_mirrors hrename (h.withSched (h.sched.put hrename hblocked)) pid⟩

theorem waitOrBlock_mirrors (hrename : Renaming rename) (h : k.Mirrors rename other)
    (parent : Pid) :
    MirroredOutcome rename (Option.map (renameReaped rename)) (k.waitOrBlock parent)
      (other.waitOrBlock (rename parent)) := by
  obtain ⟨result, after, next, hrun, hrun', hmirrors⟩ := (wait_mirrors hrename h parent).cases
  unfold waitOrBlock
  rw [hrun, hrun']
  cases result with
  | ok reaped => exact ⟨rfl, hmirrors⟩
  | error e =>
      cases e with
      | wouldBlock => exact (blockProcess_mirrors hrename hmirrors parent).map fun _ => rfl
      | _ => exact ⟨rfl, hmirrors⟩

/-! ### Memory -/

theorem access_mirrors (hrename : Renaming rename) (hfits : Fits total reserved k)
    (h : k.Mirrors rename other) (pid : Pid) (request : Memory.Request) :
    MirroredOutcome rename (Reply.rename rename) (k.access pid request)
      (other.access (rename pid) request) := by
  unfold access accessSpace find?
  rcases h.sched.find?_cases hrename pid with
    ⟨hleft, hright⟩ | ⟨task, task', hleft, hright, htask⟩
  · rw [hleft, hright]
    exact ⟨rfl, h⟩
  · rw [hleft, hright]
    dsimp only
    rcases htask.space_cases with ⟨hnone, hnone'⟩ | ⟨space, space', hspace, hspace', hmarked⟩
    · rw [hnone, hnone', htask.invalidState_eq]
      exact ⟨rfl, h⟩
    · have hmemory := hfits.focus_space hleft hspace
      have hboth : Memory.Marked ⟨space, k.pool⟩ ⟨space', other.pool⟩ := ⟨hmarked, h.pool⟩
      obtain ⟨result, m, m', hrun, hrun', hafter⟩ :=
        (Memory.serve_marked hmemory hboth request).cases
      have hput := h.sched.put hrename (htask.withSpace (Option.Rel.some hafter.space))
      rw [hspace, hspace']
      dsimp only
      rw [hrun, hrun']
      refine ⟨?_, hput, hafter.pool, h.config_eq⟩
      cases result with
      | ok reply => rfl
      | error e =>
          have hsame := Memory.serve_error_rename rename hmemory (congrArg Outcome.result hrun)
          exact congrArg Except.error hsame.symm

/-! ### Requests -/

theorem commit_mirrors (h : k.Mirrors rename other) {result result' : Except KernelError Kernel}
    (hresult : MirroredResult rename result result') :
    MirroredOutcome rename (Reply.rename rename) (k.commit result) (other.commit result') := by
  cases hresult with
  | error e => exact ⟨rfl, h⟩
  | ok hafter => exact ⟨rfl, hafter⟩

/-- Whatever is asked of two kernels that are mirrors of each other is answered alike but for
numbers, and they go on to be mirrors of each other. -/
theorem serve_mirrors (hrename : Renaming rename) (hfits : Fits total reserved k)
    (h : k.Mirrors rename other) {request : Request}
    (hstep : InStep rename (other.serve (request.rename rename)).state) :
    MirroredOutcome rename (Reply.rename rename) (k.serve request)
      (other.serve (request.rename rename)) := by
  cases request with
  | createInit => exact (createInit_mirrors hrename h hstep).map fun _ => rfl
  | spawn name parent pages => exact (spawn_mirrors hrename h hstep).map fun _ => rfl
  | schedule =>
      obtain ⟨hnext, hafter⟩ := schedule_mirrors hrename h
      exact ⟨congrArg (Except.ok ∘ Reply.selected) hnext, hafter⟩
  | timerTick =>
      obtain ⟨hselected, hafter⟩ := timerTick_mirrors hrename h
      exact ⟨congrArg (Except.ok ∘ Reply.ticked) hselected, hafter⟩
  | sleep interruptible => exact (sleep_mirrors hrename h interruptible).map fun _ => rfl
  | wakeAll =>
      obtain ⟨hcount, hafter⟩ := wakeAll_mirrors h
      exact ⟨congrArg (Except.ok ∘ Reply.woken) hcount, hafter⟩
  | fork parent => exact (fork_mirrors hrename h hstep).map fun _ => rfl
  | exit pid code => exact commit_mirrors h (exit_mirrors hrename h pid code)
  | wait parent => exact (wait_mirrors hrename h parent).map fun _ => rfl
  | waitOrBlock parent =>
      refine (waitOrBlock_mirrors hrename h parent).map ?_
      intro reaped
      cases reaped with
      | none => rfl
      | some reaped => rfl
  | kill pid signal => exact commit_mirrors h (kill_mirrors hrename h pid signal)
  | exec pid => exact commit_mirrors h (exec_mirrors hrename h pid)
  | access pid request => exact access_mirrors hrename hfits h pid request
  | shutdown => exact ⟨rfl, h.sched, h.pool, h.config_eq⟩

/-- Whatever goes in step up to the end of a run goes in step up to each state of it. -/
theorem InStep.of_serveAll {last : Kernel} (hfits : Fits total reserved last)
    {requests : List Request} (hstep : InStep rename (last.serveAll requests).2) :
    InStep rename last := by
  refine hstep.imp_right fun hfit => ?_
  have hle := nextPid_le_serveAll (Fits total reserved) (fun _ hk => hk.proper)
    (fun _ request hk => serve_fits hk request) hfits requests
  exact hfit.of_le hle

/-- All later answers are the same but for numbers. -/
theorem serveAll_mirrors (hrename : Renaming rename) (hfits : Fits total reserved k)
    (hfits' : Fits total reserved other) (h : k.Mirrors rename other) {requests : List Request}
    (hstep : InStep rename (other.serveAll (requests.map (Request.rename rename))).2) :
    (other.serveAll (requests.map (Request.rename rename))).1 =
        (k.serveAll requests).1.map (renameResult rename (Reply.rename rename)) ∧
      (k.serveAll requests).2.Mirrors rename
        (other.serveAll (requests.map (Request.rename rename))).2 := by
  induction requests generalizing k other with
  | nil => exact ⟨rfl, h⟩
  | cons request rest ih =>
      have hafter' := serve_fits hfits' (request.rename rename)
      have hserved := serve_mirrors hrename hfits h (hstep.of_serveAll hafter')
      obtain ⟨hresults, hafter⟩ := ih (serve_fits hfits request) hafter' hserved.state hstep
      exact ⟨congrArg₂ List.cons hserved.result_eq hresults, hafter⟩

end Kernel

end Kernelet
