import Kernelet.Process.Task.Request
import Kernelet.Proofs.Process.SignalSets

/-!
The signals of a task. Every request to a task keeps the digits of the pending ones signals'
digits, keeps stop and continue from waiting together, and keeps the signals that cannot be
blocked out of the blocked ones (`SignalsKept.serve`). A signal that was sent waits until
something takes it off (`contains_pending_serveAll`), and a task that takes its signals one after
another gets each once, by ascending number (`delivers_members`).
-/

namespace Kernelet

namespace Task

variable {task after : Task} {signal : Signal}

/-! ### One request -/

theorem pending_send (hlive : task.isZombie = false) (signal : Signal) :
    (task.send signal).pending =
      match signal.opposite? with
      | some opposite => (task.pending.insert signal).erase opposite
      | none => task.pending.insert signal := by
  unfold send
  rw [if_neg (by rw [hlive]; exact Bool.false_ne_true)]
  cases signal with
  | stop => rfl
  | cont => rfl
  | _ =>
      dsimp only [Signal.opposite?]
      split
      · rfl
      · rfl

theorem send_of_zombie (hzombie : task.isZombie = true) (signal : Signal) :
    task.send signal = task := by
  unfold send
  rw [if_pos hzombie]

theorem blocked_send (task : Task) (signal : Signal) :
    (task.send signal).blocked = task.blocked := by
  unfold send
  split
  · rfl
  · cases signal with
    | cont =>
        dsimp only
        unfold resume
        split
        · rfl
        · rfl
    | stop => rfl
    | _ =>
        dsimp only
        split
        · rfl
        · rfl

/-- A blocked signal does not act on the state, apart from the three that act on it by
themselves. -/
theorem state_send_of_blocked (hblocked : task.blocked.contains signal = true)
    (hkill : signal ≠ .kill) (hstop : signal ≠ .stop) (hcont : signal ≠ .cont) :
    (task.send signal).state = task.state := by
  unfold send
  split
  · rfl
  · cases signal with
    | kill => exact absurd rfl hkill
    | stop => exact absurd rfl hstop
    | cont => exact absurd rfl hcont
    | _ =>
        dsimp only
        rw [if_neg]
        rintro ⟨-, hfree⟩
        rw [hblocked] at hfree
        cases hfree

theorem contains_send (hlive : task.isZombie = false) (sent other : Signal) :
    (task.send sent).pending.contains other =
      ((task.pending.contains other || decide (sent = other)) &&
        !decide (sent.opposite? = some other)) := by
  rw [pending_send hlive]
  cases hopposite : sent.opposite? with
  | none => simp [SignalSet.contains_insert]
  | some opposite => simp [SignalSet.contains_erase, SignalSet.contains_insert]

/-- The signals of a task are as before. -/
structure SameSignals (task after : Task) : Prop where
  pending_eq : after.pending = task.pending
  blocked_eq : after.blocked = task.blocked

theorem sameSignals_commit {result : Except KernelError Task}
    (hsame : ∀ after, result = .ok after → task.SameSignals after) :
    task.SameSignals (task.commit result).state := by
  cases result with
  | ok after => exact hsame after rfl
  | error e => exact ⟨rfl, rfl⟩

theorem sameSignals_block (task : Task) (interruptible : Bool) :
    task.SameSignals (task.serve (.block interruptible)).state := by
  refine sameSignals_commit fun after hrun => ?_
  unfold block at hrun
  split at hrun
  · cases hrun
    exact ⟨rfl, rfl⟩
  · cases hrun

theorem sameSignals_stop (task : Task) : task.SameSignals (task.serve .stop).state := by
  refine sameSignals_commit fun after hrun => ?_
  unfold stop at hrun
  split at hrun
  · cases hrun
  · cases hrun
    exact ⟨rfl, rfl⟩

theorem sameSignals_exit (task : Task) (code : Int) :
    task.SameSignals (task.serve (.exit code)).state := by
  refine sameSignals_commit fun after hrun => ?_
  unfold exit at hrun
  split at hrun
  · cases hrun
  · cases hrun
    exact ⟨rfl, rfl⟩

theorem sameSignals_wake (task : Task) : task.SameSignals task.wake := by
  unfold wake
  split
  · exact ⟨rfl, rfl⟩
  · exact ⟨rfl, rfl⟩

theorem sameSignals_resume (task : Task) : task.SameSignals task.resume := by
  unfold resume
  split
  · exact ⟨rfl, rfl⟩
  · exact ⟨rfl, rfl⟩

/-- Four requests change which signals are pending. -/
theorem pending_serve (task : Task) (request : Request) :
    (task.serve request).state.pending =
      match request with
      | .send signal => (task.send signal).pending
      | .clearSignal signal => task.pending.erase signal
      | .execReset => SignalSet.empty
      | _ => task.pending := by
  cases request with
  | block interruptible => exact (sameSignals_block task interruptible).pending_eq
  | wake => exact (sameSignals_wake task).pending_eq
  | stop => exact (sameSignals_stop task).pending_eq
  | resume => exact (sameSignals_resume task).pending_eq
  | exit code => exact (sameSignals_exit task code).pending_eq
  | blockSignal signal =>
      show (task.blockSignal signal).pending = task.pending
      unfold blockSignal
      split
      · rfl
      · rfl
  | _ => rfl

/-- Three requests change which signals are blocked. -/
theorem blocked_serve (task : Task) (request : Request) :
    (task.serve request).state.blocked =
      match request with
      | .blockSignal signal => (task.blockSignal signal).blocked
      | .unblockSignal signal => task.blocked.erase signal
      | .execReset => SignalSet.empty
      | _ => task.blocked := by
  cases request with
  | send signal => exact blocked_send task signal
  | block interruptible => exact (sameSignals_block task interruptible).blocked_eq
  | wake => exact (sameSignals_wake task).blocked_eq
  | stop => exact (sameSignals_stop task).blocked_eq
  | resume => exact (sameSignals_resume task).blocked_eq
  | exit code => exact (sameSignals_exit task code).blocked_eq
  | _ => rfl

/-! ### What every request keeps -/

/-- What holds of the signals of a task whatever is asked of it. -/
structure SignalsKept (task : Task) : Prop where
  /-- Stop and continue do not wait together. -/
  stop_or_cont : ¬(task.pending.contains .stop = true ∧ task.pending.contains .cont = true)
  blockable : ∀ signal : Signal, signal.isUnblockable = true →
    task.blocked.contains signal = false
  defined : task.pending.Defined

theorem SignalsKept.of_fresh {blocked : SignalSet} (hpending : task.pending = SignalSet.empty)
    (hblocked : task.blocked = blocked)
    (hblockable : ∀ signal : Signal, signal.isUnblockable = true →
      blocked.contains signal = false) : task.SignalsKept where
  stop_or_cont := by simp [hpending]
  blockable := fun signal hsignal => by rw [hblocked, hblockable signal hsignal]
  defined := by
    rw [hpending]
    exact SignalSet.defined_empty

theorem defined_pending_send (h : task.pending.Defined) (signal : Signal) :
    (task.send signal).pending.Defined := by
  cases hlive : task.isZombie with
  | true =>
      rw [send_of_zombie hlive]
      exact h
  | false =>
      rw [pending_send hlive]
      split
      · exact (h.insert signal).erase _
      · exact h.insert signal

/-- Sending one of stop and continue calls the other one off. -/
theorem SignalsKept.stop_or_cont_send (h : task.SignalsKept) (signal : Signal) :
    ¬((task.send signal).pending.contains .stop = true ∧
      (task.send signal).pending.contains .cont = true) := by
  cases hlive : task.isZombie with
  | true =>
      rw [send_of_zombie hlive]
      exact h.stop_or_cont
  | false =>
      have hold := h.stop_or_cont
      rw [contains_send hlive, contains_send hlive]
      cases signal with
      | stop => simp [Signal.opposite?]
      | cont => simp [Signal.opposite?]
      | _ => simpa [Signal.opposite?] using hold

theorem blockable_blockSignal
    (h : ∀ other : Signal, other.isUnblockable = true → task.blocked.contains other = false)
    (signal other : Signal) (hother : other.isUnblockable = true) :
    (task.blockSignal signal).blocked.contains other = false := by
  unfold blockSignal
  split
  · exact h other hother
  · rename_i hblockable
    have hne : signal ≠ other := fun heq => hblockable (heq ▸ hother)
    show (task.blocked.insert signal).contains other = false
    rw [SignalSet.contains_insert, h other hother, decide_eq_false hne]
    rfl

theorem SignalsKept.serve (h : task.SignalsKept) (request : Request) :
    (task.serve request).state.SignalsKept where
  stop_or_cont := by
    rw [pending_serve]
    cases request with
    | send signal => exact h.stop_or_cont_send signal
    | clearSignal signal =>
        have hold := h.stop_or_cont
        dsimp only
        rw [SignalSet.contains_erase, SignalSet.contains_erase, Bool.and_eq_true,
          Bool.and_eq_true]
        rintro ⟨hstop, hcont⟩
        exact hold ⟨hstop.1, hcont.1⟩
    | execReset => simp
    | _ => exact h.stop_or_cont
  blockable := by
    rw [blocked_serve]
    cases request with
    | blockSignal signal => exact blockable_blockSignal h.blockable signal
    | unblockSignal signal =>
        intro other hother
        dsimp only
        rw [SignalSet.contains_erase, h.blockable other hother]
        rfl
    | execReset => exact fun other _ => SignalSet.contains_empty other
    | _ => exact h.blockable
  defined := by
    rw [pending_serve]
    cases request with
    | send signal => exact defined_pending_send h.defined signal
    | clearSignal signal => exact h.defined.erase signal
    | execReset => exact SignalSet.defined_empty
    | _ => exact h.defined

/-! ### A signal that was sent -/

/-- The request takes the signal off the pending ones, at least from a live task. -/
def Request.Removes (request : Request) (signal : Signal) : Prop :=
  request = .clearSignal signal ∨ request = .execReset ∨
    ∃ opposite : Signal, opposite.opposite? = some signal ∧ request = .send opposite

theorem contains_pending_serve {request : Request}
    (hpending : task.pending.contains signal = true) (hkeeps : ¬request.Removes signal) :
    (task.serve request).state.pending.contains signal = true := by
  rw [pending_serve]
  cases request with
  | send sent =>
      cases hlive : task.isZombie with
      | true =>
          dsimp only
          rw [send_of_zombie hlive]
          exact hpending
      | false =>
          have hother : sent.opposite? ≠ some signal :=
            fun heq => hkeeps (.inr (.inr ⟨sent, heq, rfl⟩))
          dsimp only
          rw [contains_send hlive, hpending, decide_eq_false hother]
          rfl
  | clearSignal other =>
      have hother : other ≠ signal := fun heq => hkeeps (.inl (congrArg Request.clearSignal heq))
      dsimp only
      rw [SignalSet.contains_erase, hpending, decide_eq_false hother]
      rfl
  | execReset => exact absurd (.inr (.inl rfl)) hkeeps
  | _ => exact hpending

theorem contains_pending_serveAll {requests : List Request}
    (hpending : task.pending.contains signal = true)
    (hkeep : ∀ request ∈ requests, ¬request.Removes signal) :
    (task.serveAll requests).pending.contains signal = true := by
  induction requests generalizing task with
  | nil => exact hpending
  | cons request rest ih =>
      have hfirst := contains_pending_serve hpending (hkeep request List.mem_cons_self)
      exact ih hfirst fun next hnext => hkeep next (List.mem_cons_of_mem request hnext)

theorem contains_pending_send_self (hlive : task.isZombie = false) (signal : Signal) :
    (task.send signal).pending.contains signal = true := by
  have hself : signal.opposite? ≠ some signal := fun heq => Signal.ne_of_opposite? heq rfl
  rw [contains_send hlive, decide_eq_true rfl, decide_eq_false hself, Bool.or_true]
  rfl

theorem Request.Removes.not_pending {request : Request} (h : request.Removes signal)
    (hserved : task.isZombie = false ∨ ∀ sent, request ≠ .send sent) :
    (task.serve request).state.pending.contains signal = false := by
  rw [pending_serve]
  rcases h with rfl | rfl | ⟨opposite, hopposite, rfl⟩
  · dsimp only
    rw [SignalSet.contains_erase, decide_eq_true rfl, Bool.not_true, Bool.and_false]
  · exact SignalSet.contains_empty signal
  · have hlive : task.isZombie = false := by
      rcases hserved with hlive | hother
      · exact hlive
      · exact absurd rfl (hother opposite)
    dsimp only
    rw [contains_send hlive, decide_eq_true hopposite, Bool.not_true, Bool.and_false]

/-! ### Taking signals one after another -/

/-- The signal is pending, and not blocked. -/
def Waits (task : Task) (signal : Signal) : Prop :=
  task.pending.contains signal = true ∧ task.blocked.contains signal = false

theorem contains_ready (task : Task) (signal : Signal) :
    task.ready.contains signal = true ↔ task.Waits signal := by
  rw [ready, SignalSet.contains_diff, Bool.and_eq_true, Bool.not_eq_true']
  rfl

/-- The task takes the next signal and clears it, again and again: it gets these signals, and
then there is none. -/
inductive Delivers : Task → List Signal → Task → Prop
  | done {task : Task} (hnone : task.nextSignal? = none) : Delivers task [] task
  | take {task after : Task} {signal : Signal} {rest : List Signal}
      (hnext : task.nextSignal? = some signal)
      (hrest : Delivers (task.clearSignal signal) rest after) : Delivers task (signal :: rest) after

theorem Delivers.unique {list other : List Signal} {last : Task}
    (h : Delivers task list after) (hother : Delivers task other last) :
    list = other ∧ after = last := by
  induction h generalizing other with
  | done hnone =>
      cases hother with
      | done _ => exact ⟨rfl, rfl⟩
      | take hnext _ =>
          rw [hnone] at hnext
          cases hnext
  | take hnext _ ih =>
      cases hother with
      | done hnone =>
          rw [hnext] at hnone
          cases hnone
      | take hnext' hrest' =>
          rw [hnext] at hnext'
          cases hnext'
          obtain ⟨rfl, rfl⟩ := ih hrest'
          exact ⟨rfl, rfl⟩

theorem Delivers.nextSignal?_eq_none {list : List Signal} (h : Delivers task list after) :
    after.nextSignal? = none := by
  induction h with
  | done hnone => exact hnone
  | take _ _ ih => exact ih

/-- All that changes is that the signals are not pending any more. -/
theorem Delivers.pending {list : List Signal} (h : Delivers task list after) :
    after = { task with pending := after.pending } ∧ ∀ signal,
      after.pending.contains signal = true ↔
        task.pending.contains signal = true ∧ signal ∉ list := by
  induction h with
  | done _ => exact ⟨rfl, fun signal => by simp⟩
  | @take task after first rest _ _ ih =>
      obtain ⟨hsame, hpending⟩ := ih
      refine ⟨hsame, fun signal => ?_⟩
      rw [hpending signal]
      show (task.pending.erase first).contains signal = true ∧ _ ↔ _
      rw [SignalSet.contains_erase, Bool.and_eq_true, Bool.not_eq_true', decide_eq_false_iff_not,
        List.mem_cons, not_or, and_assoc, eq_comm (a := first)]

theorem ready_clearSignal (task : Task) (signal : Signal) :
    (task.clearSignal signal).ready.members =
      task.ready.members.filter fun other => !decide (signal = other) := by
  unfold SignalSet.members
  rw [List.filter_filter]
  refine List.filter_congr fun other _ => ?_
  show ((task.pending.erase signal).diff task.blocked).contains other = _
  rw [SignalSet.contains_diff, SignalSet.contains_erase, ready, SignalSet.contains_diff]
  ac_rfl

/-- What is ready is taken, by ascending number. -/
theorem delivers_members (task : Task) : ∃ after, Delivers task task.ready.members after := by
  induction hmembers : task.ready.members generalizing task with
  | nil =>
      refine ⟨task, .done ?_⟩
      rw [nextSignal?, SignalSet.first?_eq_head?, hmembers]
      rfl
  | cons signal rest ih =>
      have hascending := task.ready.members_ascending
      rw [hmembers, List.pairwise_cons] at hascending
      have hnext : task.nextSignal? = some signal := by
        rw [nextSignal?, SignalSet.first?_eq_head?, hmembers]
        rfl
      have hrest : (task.clearSignal signal).ready.members = rest := by
        rw [ready_clearSignal, hmembers, List.filter_cons_of_neg (by simp),
          List.filter_eq_self]
        intro other hother
        have hlt := hascending.1 other hother
        rw [Bool.not_eq_true', decide_eq_false_iff_not]
        rintro rfl
        exact Nat.lt_irrefl _ hlt
      obtain ⟨after, hafter⟩ := ih (task.clearSignal signal) hrest
      exact ⟨after, .take hnext hafter⟩

/-! ### Every task -/

/-- A task that started by itself or as the child of a fork, and served requests since. -/
inductive Arises : Task → Prop
  | new (pid ppid : Pid) (name : String) (space : AddressSpace) :
      Arises (Task.new pid ppid name space)
  | forkChild {task : Task} (h : Arises task) (pid : Pid) (space : AddressSpace) :
      Arises (task.forkChild pid space)
  | serve {task : Task} (h : Arises task) (request : Request) :
      Arises (task.serve request).state

theorem Arises.signalsKept (h : Arises task) : task.SignalsKept := by
  induction h with
  | new pid ppid name space =>
      exact .of_fresh rfl rfl fun signal _ => SignalSet.contains_empty signal
  | forkChild _ pid space ih => exact .of_fresh rfl rfl ih.blockable
  | serve _ request ih => exact ih.serve request

/-- There is one way to take signals one after another, and it comes to an end: the task gets
what waits for it, each signal once and in ascending order, and is left with what it blocked. -/
structure DeliversAll (task : Task) (list : List Signal) (after : Task) : Prop where
  delivers_iff : ∀ other last, task.Delivers other last ↔ other = list ∧ last = after
  ascending : list.Pairwise fun a b => a.number < b.number
  mem_iff : ∀ signal, signal ∈ list ↔ task.Waits signal
  nextSignal?_eq : after.nextSignal? = none
  rest_eq : after = { task with pending := after.pending }
  pending_iff : ∀ signal, after.pending.contains signal = true ↔
    task.pending.contains signal = true ∧ task.blocked.contains signal = true

theorem exists_deliversAll (task : Task) : ∃ list after, task.DeliversAll list after := by
  obtain ⟨after, hafter⟩ := task.delivers_members
  have hmem : ∀ signal, signal ∈ task.ready.members ↔ task.Waits signal := by
    intro signal
    rw [SignalSet.mem_members, contains_ready]
  obtain ⟨hsame, hpending⟩ := hafter.pending
  refine ⟨task.ready.members, after, ?_, task.ready.members_ascending, hmem,
    hafter.nextSignal?_eq_none, hsame, fun signal => ?_⟩
  · intro other last
    constructor
    · exact fun hother => hother.unique hafter
    · rintro ⟨rfl, rfl⟩
      exact hafter
  · rw [hpending signal, hmem signal, Waits, not_and, Bool.not_eq_false]
    exact and_congr_right fun hwaits => ⟨fun h => h hwaits, fun h _ => h⟩

/-- What waits for a task, how long it waits, which of it comes first, and what the task gets
when it takes one signal after another. -/
structure SignalsServed (task : Task) : Prop extends SignalsKept task where
  hasPendingSignals_iff :
    task.hasPendingSignals = true ↔ ∃ signal, task.nextSignal? = some signal
  /-- The next signal is the lowest-numbered one that waits. -/
  nextSignal?_iff : ∀ signal, task.nextSignal? = some signal ↔
    task.Waits signal ∧ ∀ lower : Signal, lower.number < signal.number → ¬task.Waits lower
  /-- The search by number comes to the same. -/
  nextSignal?_eq : task.nextSignal? = task.ready.search?
  sent : ∀ signal requests, task.isZombie = false →
    (∀ request ∈ requests, ¬Request.Removes request signal) →
    ((task.send signal).serveAll requests).pending.contains signal = true
  removed : ∀ signal request, Request.Removes request signal →
    (task.isZombie = false ∨ ∀ sent, request ≠ .send sent) →
    (task.serve request).state.pending.contains signal = false
  blocked_idle : ∀ signal : Signal, task.blocked.contains signal = true →
    signal ≠ .kill → signal ≠ .stop → signal ≠ .cont → (task.send signal).state = task.state
  delivers : ∃ list after, task.DeliversAll list after

theorem nextSignal?_eq_some_iff (task : Task) (signal : Signal) :
    task.nextSignal? = some signal ↔
      task.Waits signal ∧ ∀ lower : Signal, lower.number < signal.number → ¬task.Waits lower := by
  rw [nextSignal?, SignalSet.first?_eq_some_iff, contains_ready]
  refine and_congr_right fun _ => forall_congr' fun lower => forall_congr' fun _ => ?_
  rw [← contains_ready, Bool.not_eq_true]

/-- The signals of every task are kept in order, whatever was asked of it and of the tasks it
was forked from. -/
theorem Arises.signalsServed (h : Arises task) : task.SignalsServed where
  toSignalsKept := h.signalsKept
  hasPendingSignals_iff := by
    have hdefined : task.ready.Defined := h.signalsKept.defined.diff task.blocked
    rw [hasPendingSignals, hdefined.isEmpty_eq, Option.not_isNone, Option.isSome_iff_exists]
    rfl
  nextSignal?_iff := nextSignal?_eq_some_iff task
  nextSignal?_eq := task.ready.first?_eq_search?
  sent := fun signal _ hlive hkeep =>
    contains_pending_serveAll (contains_pending_send_self hlive signal) hkeep
  removed := fun _ _ hremoves hserved => hremoves.not_pending hserved
  blocked_idle := fun _ => state_send_of_blocked
  delivers := task.exists_deliversAll

/-- A child inherits what its parent blocked, and sleeps through it. -/
theorem signalsServed_forkChild :
    let parent := ((Task.new 1 0 "init" (AddressSpace.new 0)).serve (.blockSignal .term)).state
    let child := (((parent.forkChild 2 (AddressSpace.new 0)).serve (.block true)).state.serve
      (.send .term)).state
    child.pending.contains .term = true ∧ child.nextSignal? = none ∧
      child.state = .interruptibleWait ∧ child.SignalsServed :=
  ⟨by decide, by decide, by decide,
    Arises.signalsServed (((((Arises.new _ _ _ _).serve _).forkChild _ _).serve _).serve _)⟩

end Task

end Kernelet
