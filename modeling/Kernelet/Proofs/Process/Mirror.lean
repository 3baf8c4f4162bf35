import Mathlib.Data.List.Forall2
import Kernelet.Proofs.Kernel.Lifecycle
import Kernelet.Proofs.Memory.MarkedMemory
import Kernelet.Proofs.Process.Slices

/-!
Two process tables that tell the same story under different numbers. In the one every task has
another number than in the other, given by a renaming, and its address space may differ in marks
(`Task.Mirrors`); in all else the tables agree (`Scheduler.Mirrors`). A number only ever serves to
find a task, so that whatever is done to the one table under a number and to the other under the
number that it is renamed to comes to the same, and the tables stay mirrors of each other.
-/

namespace Kernelet

/-- Numbers are put off so that no two become one. That there is no process and that it is the
first one can still be told. -/
structure Renaming (rename : Pid → Pid) : Prop where
  injective : Function.Injective rename
  le : ∀ pid, pid ≤ rename pid
  zero : rename 0 = 0
  init : rename initPid = initPid

theorem Renaming.eq_iff {rename : Pid → Pid} (h : Renaming rename) {p q : Pid} :
    rename p = rename q ↔ p = q :=
  h.injective.eq_iff

theorem Renaming.beq_eq {rename : Pid → Pid} (h : Renaming rename) (p q : Pid) :
    (rename p == rename q) = (p == q) := by
  rw [Bool.eq_iff_iff, beq_iff_eq, beq_iff_eq, h.eq_iff]

theorem Renaming.eq_init_iff {rename : Pid → Pid} (h : Renaming rename) {p : Pid} :
    rename p = initPid ↔ p = initPid := by
  have heq : rename p = rename initPid ↔ p = initPid := h.eq_iff
  rw [h.init] at heq
  exact heq

theorem Renaming.eq_zero_iff {rename : Pid → Pid} (h : Renaming rename) {p : Pid} :
    rename p = 0 ↔ p = 0 := by
  have heq : rename p = rename 0 ↔ p = 0 := h.eq_iff
  rw [h.zero] at heq
  exact heq

/-- The numbers from `first` on, put off by `count`. -/
def skip (first count pid : Nat) : Nat :=
  if pid < first then pid else pid + count

theorem skip_of_lt {first count pid : Nat} (h : pid < first) :
    skip first count pid = pid :=
  if_pos h

theorem le_skip (first count pid : Nat) : pid ≤ skip first count pid := by
  unfold skip
  split
  · exact Nat.le_refl pid
  · exact Nat.le_add_right pid count

theorem skip_injective (first count : Nat) {p q : Nat}
    (heq : skip first count p = skip first count q) : p = q := by
  unfold skip at heq
  split at heq
  · split at heq
    · exact heq
    · omega
  · split at heq
    · omega
    · omega

theorem skip_zero (first pid : Nat) : skip first 0 pid = pid := by
  unfold skip
  split
  · rfl
  · rfl

/-- Once the first number is given out it cannot be put off any more. -/
theorem renaming_skip {first count : Nat} (h : initPid < first ∨ count = 0) :
    Renaming (skip first count) where
  injective _ _ heq := skip_injective first count heq
  le := le_skip first count
  zero := by
    rcases h with hlt | rfl
    · exact skip_of_lt (Nat.zero_lt_of_lt hlt)
    · exact skip_zero first 0
  init := by
    rcases h with hlt | rfl
    · exact skip_of_lt hlt
    · exact skip_zero first initPid

/-- The same complaint, about processes under other numbers. -/
def KernelError.rename (rename : Pid → Pid) : KernelError → KernelError
  | .noSuchProcess pid => .noSuchProcess (rename pid)
  | .noChildren pid => .noChildren (rename pid)
  | .alreadyExists pid => .alreadyExists (rename pid)
  | .invalidState pid state => .invalidState (rename pid) state
  | e => e

/-! ### Related lists -/

section Lists

variable {α β : Type} {R : α → β → Prop} {p : α → Bool} {q : β → Bool} {left : List α}
  {right : List β}

/-- What is looked for in related lists is found in both or in none. -/
theorem forall₂_find? (hpq : ∀ a b, R a b → q b = p a) (h : List.Forall₂ R left right) :
    Option.Rel R (left.find? p) (right.find? q) := by
  induction h with
  | nil => exact Option.Rel.none
  | @cons a b _ _ hfirst _ ih =>
      rw [List.find?_cons, List.find?_cons, hpq a b hfirst]
      cases p a with
      | true => exact Option.Rel.some hfirst
      | false => exact ih

theorem forall₂_filter (hpq : ∀ a b, R a b → q b = p a) (h : List.Forall₂ R left right) :
    List.Forall₂ R (left.filter p) (right.filter q) := by
  refine List.rel_filter ?_ h
  intro a b hab
  show p a = true ↔ q b = true
  rw [hpq a b hab]

theorem forall₂_countP (hpq : ∀ a b, R a b → q b = p a) (h : List.Forall₂ R left right) :
    right.countP q = left.countP p := by
  rw [List.countP_eq_length_filter, List.countP_eq_length_filter]
  exact (forall₂_filter hpq h).length_eq.symm

end Lists

namespace Task

/-- The task under other numbers and with another address space. -/
def recast (pid ppid : Pid) (space : Option AddressSpace) (task : Task) : Task :=
  { task with pid, ppid, space }

/-- A change that does not look at the numbers and the space of a task, and leaves them alone. -/
def Impersonal (change : Task → Task) : Prop :=
  ∀ pid ppid space task, change (recast pid ppid space task) = recast pid ppid space (change task)

/-- The other task is this one under its other number, and their spaces differ in marks at most. -/
structure Mirrors (rename : Pid → Pid) (task other : Task) : Prop where
  task_eq : other = task.recast (rename task.pid) (rename task.ppid) other.space
  space : Option.Rel AddressSpace.Marked task.space other.space

variable {rename : Pid → Pid} {task other : Task} {change : Task → Task}

/-! ### Impersonal changes -/

theorem Impersonal.kept (h : Impersonal change) (task : Task) :
    (change task).pid = task.pid ∧ (change task).ppid = task.ppid ∧
      (change task).space = task.space := by
  have hself : change task = (change task).recast task.pid task.ppid task.space :=
    h task.pid task.ppid task.space task
  rw [hself]
  exact ⟨rfl, rfl, rfl⟩

theorem impersonal_wake : Impersonal wake := by
  intro pid ppid space task
  unfold wake recast
  split <;> rfl

theorem impersonal_send (signal : Signal) : Impersonal fun task => task.send signal := by
  intro pid ppid space task
  obtain ⟨_, _, name, state, counter, priority, startTime, utime, stime, descriptors, pending,
    blocked, waiting, exitCode, _⟩ := task
  unfold send recast isZombie
  dsimp only
  split
  · rfl
  · split
    · rfl
    · unfold resume
      dsimp only
      split <;> rfl
    · split <;> rfl
    · split <;> rfl

theorem impersonal_markWaiting (waiting : Bool) : Impersonal (markWaiting waiting) :=
  fun _ _ _ _ => rfl

theorem impersonal_spendTick : Impersonal spendTick :=
  fun _ _ _ _ => rfl

theorem impersonal_execReset : Impersonal execReset :=
  fun _ _ _ _ => rfl

theorem impersonal_refill : Impersonal fun task =>
    if task.isZombie then task else task.decayCounter := by
  intro pid ppid space task
  have hsame : (task.recast pid ppid space).isZombie = task.isZombie := rfl
  dsimp only
  rw [hsame]
  split <;> rfl

theorem impersonal_notifyParent : Impersonal Kernel.notifyParent := by
  intro pid ppid space task
  have hsend := impersonal_send .chld pid ppid space task
  unfold Kernel.notifyParent
  dsimp only at hsend ⊢
  rw [hsend]
  have hsame : ((task.send .chld).recast pid ppid space).waitingForChild =
      (task.send .chld).waitingForChild := rfl
  rw [hsame]
  split
  · exact impersonal_wake pid ppid space { task.send .chld with waitingForChild := false }
  · rfl

/-! ### Mirrored tasks -/

namespace Mirrors

/-- A task whose numbers stay is its own mirror, also with marks. -/
theorem withMarks (hpid : rename task.pid = task.pid) (hppid : rename task.ppid = task.ppid)
    {space : Option AddressSpace} (hspace : Option.Rel AddressSpace.Marked task.space space) :
    task.Mirrors rename { task with space } where
  task_eq := by
    rw [hpid, hppid]
    rfl
  space := hspace

theorem pid_eq (h : task.Mirrors rename other) : other.pid = rename task.pid := by
  rw [h.task_eq]
  rfl

theorem ppid_eq (h : task.Mirrors rename other) : other.ppid = rename task.ppid := by
  rw [h.task_eq]
  rfl

theorem isZombie_eq (h : task.Mirrors rename other) : other.isZombie = task.isZombie := by
  rw [h.task_eq]
  rfl

theorem isRunnable_eq (h : task.Mirrors rename other) : other.isRunnable = task.isRunnable := by
  rw [h.task_eq]
  rfl

theorem state_eq (h : task.Mirrors rename other) : other.state = task.state := by
  rw [h.task_eq]
  rfl

theorem counter_eq (h : task.Mirrors rename other) : other.counter = task.counter := by
  rw [h.task_eq]
  rfl

theorem exitCode_eq (h : task.Mirrors rename other) : other.exitCode = task.exitCode := by
  rw [h.task_eq]
  rfl

theorem invalidState_eq (h : task.Mirrors rename other) :
    other.invalidState = task.invalidState.rename rename := by
  unfold invalidState KernelError.rename
  rw [h.pid_eq, h.state_eq]

theorem impersonal (hchange : Impersonal change) (h : task.Mirrors rename other) :
    (change task).Mirrors rename (change other) := by
  obtain ⟨hpid, hppid, hspace⟩ := hchange.kept task
  have hother : change other =
      (change task).recast (rename task.pid) (rename task.ppid) other.space := by
    rw [h.task_eq]
    exact hchange _ _ _ task
  refine ⟨?_, ?_⟩
  · rw [hpid, hppid, hother]
    rfl
  · rw [hspace, hother]
    exact h.space

/-- Both tasks come to live in spaces that differ in marks at most. -/
theorem withSpace (h : task.Mirrors rename other) {space space' : Option AddressSpace}
    (hspace : Option.Rel AddressSpace.Marked space space') :
    Mirrors rename { task with space } { other with space := space' } where
  task_eq := by
    rw [h.task_eq]
    rfl
  space := hspace

/-- Both tasks come to have a parent, each under its number. -/
theorem withParent (h : task.Mirrors rename other) (ppid : Pid) :
    Mirrors rename { task with ppid } { other with ppid := rename ppid } where
  task_eq := by
    rw [h.task_eq]
    rfl
  space := h.space

theorem space_cases (h : task.Mirrors rename other) :
    (task.space = none ∧ other.space = none) ∨
    ∃ space space', task.space = some space ∧ other.space = some space' ∧ space.Marked space' :=
  option_cases h.space

theorem terminated (h : task.Mirrors rename other) (code : Int) :
    (task.terminated code).Mirrors rename (other.terminated code) where
  task_eq := by
    rw [h.task_eq]
    rfl
  space := Option.Rel.none

/-- The frames of both are given back. -/
theorem discard (h : task.Mirrors rename other) {pool next : FramePool}
    (hpool : pool.Unchanged next) : (task.discard pool).Unchanged (other.discard next) := by
  unfold Task.discard Task.releaseSpace
  rcases h.space_cases with ⟨hleft, hright⟩ | ⟨space, space', hleft, hright, hmarked⟩
  · rw [hleft, hright]
    exact hpool
  · rw [hleft, hright]
    exact hmarked.releaseFrames hpool

theorem block_cases (h : task.Mirrors rename other) (interruptible : Bool) :
    (task.block interruptible = .error task.invalidState ∧
      other.block interruptible = .error (task.invalidState.rename rename)) ∨
    ∃ blocked blocked', task.block interruptible = .ok blocked ∧
      other.block interruptible = .ok blocked' ∧ blocked.Mirrors rename blocked' := by
  unfold block
  rw [h.state_eq, h.invalidState_eq]
  split
  · refine Or.inr ⟨_, _, rfl, rfl, ?_, h.space⟩
    rw [h.task_eq]
    rfl
  · exact Or.inl ⟨rfl, rfl⟩

/-- The children of a fork, one in each table. -/
theorem forkChild (h : task.Mirrors rename other) {pid pid' : Pid} {space space' : AddressSpace}
    {jiffies jiffies' : Nat} (hpid : pid' = rename pid) (hspace : space.Marked space')
    (hjiffies : jiffies' = jiffies) :
    ((task.forkChild pid space).startedAt jiffies).Mirrors rename
      ((other.forkChild pid' space').startedAt jiffies') where
  task_eq := by
    rw [h.task_eq, hpid, hjiffies]
    rfl
  space := Option.Rel.some hspace

end Mirrors

/-- New tasks, one for each table. -/
theorem mirrors_new (name : String) (parent : Pid) {pid pid' : Pid}
    {space space' : AddressSpace} (hspace : space.Marked space') (priority counter : Nat)
    {jiffies jiffies' : Nat} (hpid : pid' = rename pid) (hjiffies : jiffies' = jiffies) :
    Mirrors rename
      (((new pid parent name space).withTimeSlice priority counter).startedAt jiffies)
      (((new pid' (rename parent) name space').withTimeSlice priority counter).startedAt
        jiffies') where
  task_eq := by
    rw [hpid, hjiffies]
    rfl
  space := Option.Rel.some hspace

end Task

namespace Scheduler

/-- The tables agree but for the numbers of their tasks and for marks. The numbers that will be
given out go along with the renaming. -/
structure Mirrors (rename : Pid → Pid) (s other : Scheduler) : Prop where
  slots : List.Forall₂ (Option.Rel (Task.Mirrors rename)) s.slots other.slots
  current_eq : other.current = s.current.map rename
  nextPid_eq : ∀ n, other.nextPid + n = rename (s.nextPid + n)
  jiffies_eq : other.jiffies = s.jiffies
  contextSwitches_eq : other.contextSwitches = s.contextSwitches

namespace Mirrors

variable {rename : Pid → Pid} {s other : Scheduler} {task task' : Task} {pid : Pid}
  {change change' : Task → Task}

theorem tasks (h : s.Mirrors rename other) :
    List.Forall₂ (Task.Mirrors rename) s.tasks other.tasks :=
  List.rel_filterMap (fun _ _ hslot => hslot) h.slots

theorem find? (hrename : Renaming rename) (h : s.Mirrors rename other) (pid : Pid) :
    Option.Rel (Task.Mirrors rename) (s.find? pid) (other.find? (rename pid)) := by
  refine forall₂_find? ?_ h.tasks
  intro a b hab
  rw [hab.pid_eq]
  exact hrename.beq_eq a.pid pid

theorem find?_cases (hrename : Renaming rename) (h : s.Mirrors rename other) (pid : Pid) :
    (s.find? pid = none ∧ other.find? (rename pid) = none) ∨
    ∃ task task', s.find? pid = some task ∧ other.find? (rename pid) = some task' ∧
      task.Mirrors rename task' :=
  option_cases (h.find? hrename pid)

theorem contains_eq (hrename : Renaming rename) (h : s.Mirrors rename other) (pid : Pid) :
    other.contains (rename pid) = s.contains pid := by
  unfold contains
  rcases h.find?_cases hrename pid with ⟨hleft, hright⟩ | ⟨task, task', hleft, hright, -⟩
  · rw [hleft, hright]
  · rw [hleft, hright]
    rfl

theorem childrenOf (hrename : Renaming rename) (h : s.Mirrors rename other) (ppid : Pid) :
    List.Forall₂ (Task.Mirrors rename) (s.childrenOf ppid) (other.childrenOf (rename ppid)) := by
  refine forall₂_filter ?_ h.tasks
  intro a b hab
  rw [hab.ppid_eq]
  exact hrename.beq_eq a.ppid ppid

theorem current_eq_iff (hrename : Renaming rename) (h : s.Mirrors rename other) (pid : Pid) :
    other.current = some (rename pid) ↔ s.current = some pid := by
  rw [h.current_eq, ← Option.map_some, (Option.map_injective hrename.injective).eq_iff]

theorem currentTask?_cases (hrename : Renaming rename) (h : s.Mirrors rename other) :
    (s.currentTask? = none ∧ other.currentTask? = none) ∨
    ∃ task task', s.currentTask? = some task ∧ other.currentTask? = some task' ∧
      task.Mirrors rename task' := by
  unfold currentTask?
  rw [h.current_eq]
  cases s.current with
  | none => exact Or.inl ⟨rfl, rfl⟩
  | some pid => exact h.find?_cases hrename pid

/-! ### Changes of tasks -/

theorem mapTasks (h : s.Mirrors rename other)
    (hchange : ∀ task task', task.Mirrors rename task' →
      (change task).Mirrors rename (change' task')) :
    (s.mapTasks change).Mirrors rename (other.mapTasks change') where
  slots := by
    refine List.rel_map ?_ h.slots
    intro slot slot' hslot
    cases hslot with
    | none => exact Option.Rel.none
    | some htask => exact Option.Rel.some (hchange _ _ htask)
  current_eq := h.current_eq
  nextPid_eq := h.nextPid_eq
  jiffies_eq := h.jiffies_eq
  contextSwitches_eq := h.contextSwitches_eq

theorem update (hrename : Renaming rename) (h : s.Mirrors rename other) (pid : Pid)
    (hchange : ∀ task task', task.Mirrors rename task' →
      (change task).Mirrors rename (change' task')) :
    (s.update pid change).Mirrors rename (other.update (rename pid) change') := by
  refine h.mapTasks ?_
  intro task task' htask
  rw [htask.pid_eq]
  by_cases hpid : task.pid = pid
  · rw [if_pos hpid, if_pos (congrArg rename hpid)]
    exact hchange task task' htask
  · rw [if_neg hpid, if_neg (fun heq => hpid (hrename.injective heq))]
    exact htask

theorem put (hrename : Renaming rename) (h : s.Mirrors rename other)
    (htask : task.Mirrors rename task') : (s.put task).Mirrors rename (other.put task') := by
  unfold Scheduler.put
  rw [htask.pid_eq]
  exact h.update hrename task.pid fun _ _ _ => htask

/-! ### Selections -/

theorem better_rel {best best' : Option Task}
    (hbest : Option.Rel (Task.Mirrors rename) best best') (htask : task.Mirrors rename task') :
    Option.Rel (Task.Mirrors rename) (better best task) (better best' task') := by
  cases hbest with
  | none => exact Option.Rel.some htask
  | some hb =>
      unfold better
      dsimp only
      rw [hb.counter_eq, htask.counter_eq]
      split
      · exact Option.Rel.some htask
      · exact Option.Rel.some hb

theorem select_eq (h : s.Mirrors rename other) : other.select = s.select.map rename := by
  have hrunnable : List.Forall₂ (Task.Mirrors rename) (s.tasks.filter Task.isRunnable)
      (other.tasks.filter Task.isRunnable) :=
    forall₂_filter (fun _ _ hab => hab.isRunnable_eq) h.tasks
  have hbest : Option.Rel (Task.Mirrors rename)
      ((s.tasks.filter Task.isRunnable).foldl better none)
      ((other.tasks.filter Task.isRunnable).foldl better none) := by
    refine List.rel_foldl ?_ Option.Rel.none hrunnable
    exact fun _ _ hbest _ _ htask => better_rel hbest htask
  unfold select
  rcases option_cases hbest with ⟨hleft, hright⟩ | ⟨task, task', hleft, hright, htask⟩
  · rw [hleft, hright]
    rfl
  · rw [hleft, hright, Option.map_some, Option.map_some, Option.map_some, htask.pid_eq]

theorem decay (h : s.Mirrors rename other) : s.decay.Mirrors rename other.decay :=
  h.mapTasks fun _ _ htask => htask.impersonal Task.impersonal_refill

theorem switchTo (hrename : Renaming rename) (h : s.Mirrors rename other) (next : Option Pid) :
    (s.switchTo next).Mirrors rename (other.switchTo (next.map rename)) where
  slots := h.slots
  current_eq := rfl
  nextPid_eq := h.nextPid_eq
  jiffies_eq := h.jiffies_eq
  contextSwitches_eq := by
    have hsame : (next.map rename != other.current) = (next != s.current) := by
      rw [h.current_eq, Bool.eq_iff_iff, bne_iff_ne, bne_iff_ne, Ne, Ne,
        (Option.map_injective hrename.injective).eq_iff]
    unfold Scheduler.switchTo
    dsimp only
    rw [Option.isSome_map, hsame, h.contextSwitches_eq]

theorem schedule (hrename : Renaming rename) (h : s.Mirrors rename other) :
    other.schedule.1 = s.schedule.1.map rename ∧
      s.schedule.2.Mirrors rename other.schedule.2 := by
  unfold Scheduler.schedule
  rw [h.select_eq]
  cases s.select with
  | some pid => exact ⟨rfl, h.switchTo hrename (some pid)⟩
  | none =>
      have hdecay := h.decay
      dsimp only [Option.map_none]
      rw [hdecay.select_eq]
      exact ⟨rfl, hdecay.switchTo hrename s.decay.select⟩

theorem clock (h : s.Mirrors rename other) : s.clock.Mirrors rename other.clock where
  slots := h.slots
  current_eq := h.current_eq
  nextPid_eq := h.nextPid_eq
  jiffies_eq := congrArg (· + 1) h.jiffies_eq
  contextSwitches_eq := h.contextSwitches_eq

/-- The tick is spent by the same task in both, and in both or in neither it was the last one
of the slice. -/
theorem timerTick (hrename : Renaming rename) (h : s.Mirrors rename other) :
    other.timerTick.1 = s.timerTick.1 ∧ s.timerTick.2.Mirrors rename other.timerTick.2 := by
  have hcurrent := h.currentTask?_cases hrename
  rcases s.timerTick_cases with ⟨hnone, hrun⟩ | ⟨task, htask, hrun⟩
  · rcases other.timerTick_cases with ⟨-, hrun'⟩ | ⟨task', htask', -⟩
    · rw [hrun, hrun']
      exact ⟨rfl, h.clock⟩
    · simp [hnone, htask'] at hcurrent
  · rcases other.timerTick_cases with ⟨hnone', -⟩ | ⟨task', htask', hrun'⟩
    · simp [htask, hnone'] at hcurrent
    · simp only [htask, htask', reduceCtorEq, false_and, false_or, Option.some.injEq] at hcurrent
      obtain ⟨_, _, rfl, rfl, hmirror⟩ := hcurrent
      have hspent : Mirrors rename (s.clock.put task.spendTick)
          (other.clock.put task'.spendTick) :=
        h.clock.put hrename (hmirror.impersonal Task.impersonal_spendTick)
      rw [hmirror.counter_eq] at hrun'
      rcases hrun with ⟨hzero, hrun⟩ | ⟨hleft, hrun⟩
      · rw [hrun, (hrun'.resolve_right fun hother => hother.1 hzero).2]
        exact ⟨rfl, (hspent.schedule hrename).2⟩
      · rw [hrun, (hrun'.resolve_left fun hother => hleft hother.1).2]
        exact ⟨rfl, hspent⟩

theorem sleep_cases (hrename : Renaming rename) (h : s.Mirrors rename other)
    (interruptible : Bool) :
    (∃ e, s.sleep interruptible = .error e ∧
      other.sleep interruptible = .error (e.rename rename)) ∨
    ∃ next a b, s.sleep interruptible = .ok (next, a) ∧
      other.sleep interruptible = .ok (next.map rename, b) ∧ a.Mirrors rename b := by
  unfold Scheduler.sleep
  rcases h.currentTask?_cases hrename with
    ⟨hleft, hright⟩ | ⟨task, task', hleft, hright, htask⟩
  · obtain ⟨hnext, hafter⟩ := h.schedule hrename
    rw [hleft, hright]
    exact Or.inr ⟨_, _, _, rfl, congrArg Except.ok (Prod.ext hnext rfl), hafter⟩
  · rw [hleft, hright]
    dsimp only
    rcases htask.block_cases interruptible with
      ⟨hblock, hblock'⟩ | ⟨blocked, blocked', hblock, hblock', hblocked⟩
    · rw [hblock, hblock']
      exact Or.inl ⟨_, rfl, rfl⟩
    · obtain ⟨hnext, hafter⟩ := (h.put hrename hblocked).schedule hrename
      rw [hblock, hblock']
      exact Or.inr ⟨_, _, _, rfl, congrArg Except.ok (Prod.ext hnext rfl), hafter⟩

theorem wakeAll (h : s.Mirrors rename other) :
    other.wakeAll.1 = s.wakeAll.1 ∧ s.wakeAll.2.Mirrors rename other.wakeAll.2 := by
  refine ⟨forall₂_countP ?_ h.tasks, h.mapTasks fun _ _ htask => ?_⟩
  · intro a b hab
    rw [hab.state_eq]
  · exact htask.impersonal Task.impersonal_wake

/-! ### Coming and going -/

/-- The numbers that are handed out next go along with the renaming, unless they have come
round. -/
theorem nextNumber_eq (hrename : Renaming rename) (h : s.Mirrors rename other)
    (hfit : other.NumbersFit) : other.nextNumber = rename s.nextNumber := by
  have hnext : other.nextPid = rename s.nextPid := h.nextPid_eq 0
  have hbefore : s.NumbersFit := hfit.of_le (hnext ▸ hrename.le s.nextPid)
  rw [Scheduler.nextNumber_eq hfit, Scheduler.nextNumber_eq hbefore, hnext]

theorem allocatePid (h : s.Mirrors rename other) :
    s.allocatePid.2.Mirrors rename other.allocatePid.2 := by
  refine ⟨h.slots, h.current_eq, ?_, h.jiffies_eq, h.contextSwitches_eq⟩
  intro n
  have hnext := h.nextPid_eq (1 + n)
  rw [← Nat.add_assoc, ← Nat.add_assoc] at hnext
  exact hnext

theorem place_rel {left right : List (Option Task)} (htask : task.Mirrors rename task')
    (hslots : List.Forall₂ (Option.Rel (Task.Mirrors rename)) left right) :
    Option.Rel (List.Forall₂ (Option.Rel (Task.Mirrors rename))) (place task left)
      (place task' right) := by
  induction hslots with
  | nil => exact Option.Rel.none
  | @cons slot slot' rest rest' hslot hrest ih =>
      cases hslot with
      | none => exact Option.Rel.some (List.Forall₂.cons (Option.Rel.some htask) hrest)
      | @some a b hab =>
          unfold place
          rcases option_cases ih with ⟨hleft, hright⟩ | ⟨_, _, hleft, hright, hplaced⟩
          · rw [hleft, hright]
            exact Option.Rel.none
          · rw [hleft, hright]
            exact Option.Rel.some (List.Forall₂.cons (Option.Rel.some hab) hplaced)

theorem add_cases (hrename : Renaming rename) (h : s.Mirrors rename other)
    (htask : task.Mirrors rename task') :
    (∃ e, s.add task = .error e ∧ other.add task' = .error (e.rename rename)) ∨
    ∃ a b, s.add task = .ok a ∧ other.add task' = .ok b ∧ a.Mirrors rename b := by
  unfold Scheduler.add
  rw [htask.pid_eq, h.contains_eq hrename]
  split
  · exact Or.inl ⟨_, rfl, rfl⟩
  · rcases option_cases (place_rel htask h.slots) with
      ⟨hleft, hright⟩ | ⟨_, _, hleft, hright, hslots⟩
    · rw [hleft, hright]
      exact Or.inl ⟨_, rfl, rfl⟩
    · rw [hleft, hright]
      exact Or.inr ⟨_, _, rfl, rfl, hslots, h.current_eq, h.nextPid_eq, h.jiffies_eq,
        h.contextSwitches_eq⟩

theorem remove (hrename : Renaming rename) (h : s.Mirrors rename other) (pid : Pid) :
    (s.remove pid).2.Mirrors rename (other.remove (rename pid)).2 := by
  unfold Scheduler.remove
  rcases h.find?_cases hrename pid with ⟨hleft, hright⟩ | ⟨task, task', hleft, hright, -⟩
  · rw [hleft, hright]
    exact h
  · rw [hleft, hright]
    refine ⟨List.rel_map ?_ h.slots, ?_, h.nextPid_eq, h.jiffies_eq, h.contextSwitches_eq⟩
    · intro slot slot' hslot
      cases hslot with
      | none => exact Option.Rel.none
      | @some a b hab =>
          have hsame : (b.pid != rename pid) = (a.pid != pid) := by
            rw [bne, bne, hab.pid_eq, hrename.beq_eq]
          dsimp only
          rw [Option.filter_some, Option.filter_some, hsame]
          split
          · exact Option.Rel.some hab
          · exact Option.Rel.none
    · by_cases hself : s.current = some pid
      · rw [if_pos hself, if_pos ((h.current_eq_iff hrename pid).mpr hself)]
        rfl
      · rw [if_neg hself, if_neg (mt (h.current_eq_iff hrename pid).mp hself)]
        exact h.current_eq

end Mirrors

/-! ### Numbers passed over -/

/-- A renaming leaves every number alone that the table holds. -/
structure Spares (rename : Pid → Pid) (s : Scheduler) : Prop where
  pid_eq : ∀ task ∈ s.tasks, rename task.pid = task.pid
  ppid_eq : ∀ task ∈ s.tasks, rename task.ppid = task.ppid
  current_eq : ∀ pid, s.current = some pid → rename pid = pid

/-- Every number that the table holds was given out. -/
structure Issued (s : Scheduler) : Prop where
  pid_lt : ∀ task ∈ s.tasks, task.pid < s.nextPid
  ppid_lt : ∀ task ∈ s.tasks, task.ppid < s.nextPid
  current_lt : ∀ pid, s.current = some pid → pid < s.nextPid

section Skipping

variable {rename : Pid → Pid} {s : Scheduler} {task : Task} {pid : Pid}

/-- Numbers that were not given out yet may be passed over: the table is a mirror of itself. -/
theorem Mirrors.skip {count : Nat} (h : Spares (skip s.nextPid count) s)
    {slots : List (Option Task)}
    (hslots : List.Forall₂ (Option.Rel (Task.Mirrors (skip s.nextPid count))) s.slots slots) :
    s.Mirrors (Kernelet.skip s.nextPid count) { s with slots, nextPid := s.nextPid + count } where
  slots := hslots
  current_eq := by
    cases hcurrent : s.current with
    | none => rfl
    | some pid => rw [Option.map_some, h.current_eq pid hcurrent]
  nextPid_eq := by
    intro n
    unfold Kernelet.skip
    rw [if_neg (Nat.not_lt.mpr (Nat.le_add_right _ n)), Nat.add_right_comm]
  jiffies_eq := rfl
  contextSwitches_eq := rfl

theorem Issued.spares (h : s.Issued) (count : Nat) :
    Spares (Kernelet.skip s.nextPid count) s where
  pid_eq task hmem := skip_of_lt (h.pid_lt task hmem)
  ppid_eq task hmem := skip_of_lt (h.ppid_lt task hmem)
  current_eq pid hcurrent := skip_of_lt (h.current_lt pid hcurrent)

theorem spares_skip_zero (s : Scheduler) (first : Nat) : Spares (Kernelet.skip first 0) s where
  pid_eq task _ := skip_zero first task.pid
  ppid_eq task _ := skip_zero first task.ppid
  current_eq pid _ := skip_zero first pid

theorem Spares.mirrors_withMarks (h : Spares rename s) (hmem : task ∈ s.tasks)
    {space : Option AddressSpace} (hspace : Option.Rel AddressSpace.Marked task.space space) :
    task.Mirrors rename { task with space } :=
  Task.Mirrors.withMarks (h.pid_eq task hmem) (h.ppid_eq task hmem) hspace

theorem Spares.mirrors_self (h : Spares rename s) (hmem : task ∈ s.tasks) :
    task.Mirrors rename task := by
  have hspace : Option.Rel AddressSpace.Marked task.space task.space := by
    cases task.space with
    | none => exact Option.Rel.none
    | some space => exact Option.Rel.some (AddressSpace.Marked.refl space)
  exact h.mirrors_withMarks hmem hspace

theorem Spares.slots_self (h : Spares rename s) :
    List.Forall₂ (Option.Rel (Task.Mirrors rename)) s.slots s.slots := by
  rw [List.forall₂_same]
  intro slot hslot
  cases slot with
  | none => exact Option.Rel.none
  | some task => exact Option.Rel.some (h.mirrors_self (mem_tasks_iff.mpr hslot))

/-- One task has come to have marks in its space. -/
theorem Spares.slots_put (h : Spares rename s) (hproper : s.Proper)
    (hfind : s.find? pid = some task) {space : Option AddressSpace}
    (hspace : Option.Rel AddressSpace.Marked task.space space) :
    List.Forall₂ (Option.Rel (Task.Mirrors rename)) s.slots
      (s.put { task with space }).slots := by
  have hself := mem_tasks_of_find? hfind
  show List.Forall₂ _ s.slots (s.slots.map (Option.map _))
  rw [List.forall₂_map_right_iff, List.forall₂_same]
  intro slot hslot
  cases slot with
  | none => exact Option.Rel.none
  | some other =>
      have hmem := mem_tasks_iff.mpr hslot
      refine Option.Rel.some ?_
      dsimp only
      split
      · rename_i hpid
        obtain rfl : other = task := eq_of_pid_eq hproper hself hmem hpid
        exact h.mirrors_withMarks hmem hspace
      · exact h.mirrors_self hmem

end Skipping

end Scheduler

end Kernelet
