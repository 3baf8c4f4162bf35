import Mathlib.Data.List.Basic
import Kernelet.Gate.Waiting

/-!
Exclusion at the gate. Whoever passes had the token and found the CPU free. From
then on the CPU is taken: grants move the token and start nobody, and releases by
others change nothing, until the one who passed releases it or the gate is shut
(`exclusive`). The moves are those of any number of callers in any order, parked
callers that look again for no reason among them.
-/

namespace Kernelet.WaitingRoom

/-- Caller `i` asked for a turn of process `pid` and has got it. -/
def HasPassed (room : WaitingRoom) (i : Nat) (pid : Pid) : Prop :=
  room.waiters[i]? = some ⟨pid, .passed⟩

/-- With this move caller `i` gets a turn of process `pid`. -/
def Passes (room : WaitingRoom) (m : Move) (i : Nat) (pid : Pid) : Prop :=
  (room.move m).HasPassed i pid ∧ ¬ room.HasPassed i pid

/-- Caller `i` looks at the gate in this move, for a turn of process `pid`. -/
def Looks (room : WaitingRoom) (m : Move) (i : Nat) (pid : Pid) : Prop :=
  (m = .arrive pid ∧ i = room.waiters.length) ∨
    (m = .look i ∧ ∃ seen, room.waiters[i]? = some ⟨pid, .parked seen⟩)

variable {room : WaitingRoom} {m : Move} {i : Nat} {pid : Pid}

theorem move_of_looks (h : room.Looks m i pid) :
    (room.move m).gate = (lookAs room.gate pid).2 ∧
      ∀ j, (room.move m).waiters[j]? =
        if j = i then some (lookAs room.gate pid).1 else room.waiters[j]? := by
  rcases h with ⟨rfl, rfl⟩ | ⟨rfl, seen, hparked⟩
  · refine ⟨rfl, ?_⟩
    intro j
    simp only [move, arrive]
    grind
  · simp only [move, look, hparked, true_and]
    intro j
    grind

/-- Only a caller who looks changes. -/
theorem waiters_move (h : ∀ i pid, ¬ room.Looks m i pid) :
    (room.move m).waiters = room.waiters := by
  cases m with
  | grant pid => rfl
  | release pid => rfl
  | close => rfl
  | arrive pid => exact absurd (Or.inl ⟨rfl, rfl⟩) (h room.waiters.length pid)
  | look i =>
      simp only [move, look]
      split
      · rename_i pid seen hparked
        exact absurd (Or.inr ⟨rfl, seen, hparked⟩) (h i pid)
      · rfl

theorem look_of_passes (h : room.Passes m i pid) :
    ∃ after, room.gate.look pid = .passed after ∧ (room.move m).gate = after := by
  obtain ⟨hafter, hbefore⟩ := h
  by_cases hlooks : ∃ j q, room.Looks m j q
  · obtain ⟨j, q, hlooks⟩ := hlooks
    obtain ⟨hgate, hwaiters⟩ := move_of_looks hlooks
    have hsame : i = j := by
      by_contra hne
      apply hbefore
      rw [HasPassed, hwaiters, if_neg hne] at hafter
      exact hafter
    rw [HasPassed, hwaiters, if_pos hsame] at hafter
    unfold lookAs at hgate hafter
    cases hlook : room.gate.look q with
    | closed => simp [hlook] at hafter
    | wait => simp [hlook] at hafter
    | passed after =>
        simp only [hlook, Option.some.injEq, Waiter.mk.injEq, and_true] at hgate hafter
        subst hafter
        exact ⟨after, hlook, hgate⟩
  · exfalso
    apply hbefore
    rw [HasPassed, waiters_move (by simpa using hlooks)] at hafter
    exact hafter

theorem running_lookAs {gate : Gate} {q : Pid} (h : gate.running = some pid) :
    (lookAs gate q).2.running = some pid := by
  unfold lookAs
  cases hlook : gate.look q with
  | closed => exact h
  | wait => exact h
  | passed after =>
      rw [← Gate.eq_of_look_passed h hlook]
      obtain ⟨-, -, -, rfl⟩ := Gate.look_eq_passed_iff.mp hlook
      rfl

/-- A body that runs goes on running, whatever the others do. -/
theorem running_move (h : room.gate.running = some pid) (hrelease : m ≠ .release pid)
    (hclose : m ≠ .close) : (room.move m).gate.running = some pid := by
  cases m with
  | grant q => simpa [move, grant] using h
  | release q =>
      have hne : room.gate.running ≠ some q := by
        intro heq
        apply hrelease
        rw [Option.some.inj (heq.symm.trans h)]
      simpa [move, release, Gate.release_of_ne hne] using h
  | close => exact absurd rfl hclose
  | arrive q => exact running_lookAs h
  | look i =>
      by_cases hparked : ∃ q, room.Looks (.look i) i q
      · obtain ⟨q, hlooks⟩ := hparked
        rw [(move_of_looks hlooks).1]
        exact running_lookAs h
      · simp only [move, look]
        split
        · rename_i q seen hfound
          exact absurd ⟨q, Or.inr ⟨rfl, seen, hfound⟩⟩ hparked
        · exact h

theorem running_run (h : room.gate.running = some pid) {moves : List Move}
    (hmoves : ∀ m ∈ moves, m ≠ .release pid ∧ m ≠ .close) :
    (room.run moves).gate.running = some pid := by
  induction moves generalizing room with
  | nil => exact h
  | cons m rest ih =>
      have hm := hmoves m (by simp)
      apply ih (running_move h hm.1 hm.2)
      intro next hnext
      exact hmoves next (by simp [hnext])

/-- Nobody else passes while a body runs. -/
theorem pid_eq_of_passes (h : room.gate.running = some pid) {j : Nat} {q : Pid}
    (hpasses : room.Passes m j q) : q = pid := by
  obtain ⟨after, hlook, -⟩ := look_of_passes hpasses
  exact Gate.eq_of_look_passed h hlook

/-- The gate is shut, with nobody at it. -/
structure Shut (room : WaitingRoom) : Prop where
  closed : room.gate.closed = true
  holder_eq : room.gate.holder = none
  running_eq : room.gate.running = none

theorem shut_close (room : WaitingRoom) : room.close.Shut :=
  ⟨rfl, rfl, rfl⟩

namespace Shut

theorem lookAs_eq (h : room.Shut) (pid : Pid) :
    lookAs room.gate pid = (⟨pid, .turnedAway⟩, room.gate) := by
  unfold lookAs
  rw [Gate.look_eq_closed_iff.mpr h.closed]

theorem move (h : room.Shut) (m : Move) : (room.move m).Shut := by
  have hsame : (room.move m).gate = room.gate ∨ (room.move m).gate = room.gate.close := by
    cases m with
    | grant pid => exact Or.inl (Gate.grant_of_closed h.closed pid)
    | release pid =>
        left
        apply Gate.release_of_ne
        simp [h.running_eq]
    | close => exact Or.inr rfl
    | arrive pid =>
        left
        simp [WaitingRoom.move, arrive, h.lookAs_eq]
    | look i =>
        left
        simp only [WaitingRoom.move, look]
        split
        · simp [h.lookAs_eq]
        · rfl
  obtain ⟨hclosed, hholder, hrunning⟩ := h
  rcases hsame with hgate | hgate
  · exact ⟨hgate ▸ hclosed, hgate ▸ hholder, hgate ▸ hrunning⟩
  · exact ⟨by rw [hgate]; rfl, by rw [hgate]; rfl, by rw [hgate]; rfl⟩

theorem run (h : room.Shut) (moves : List Move) : (room.run moves).Shut := by
  induction moves generalizing room with
  | nil => exact h
  | cons m rest ih => exact ih (h.move m)

theorem not_passes (h : room.Shut) : ¬ room.Passes m i pid := by
  intro hpasses
  obtain ⟨after, hlook, -⟩ := look_of_passes hpasses
  have hopen := (Gate.look_eq_passed_iff.mp hlook).1
  rw [h.closed] at hopen
  cases hopen

/-- Whoever looks at a gate that is shut is turned away. -/
theorem turnedAway (h : room.Shut) (hlooks : room.Looks m i pid) :
    (room.move m).waiters[i]? = some ⟨pid, .turnedAway⟩ := by
  rw [(move_of_looks hlooks).2, if_pos rfl, h.lookAs_eq]

end Shut

/-- Who passes has the token. From then on, up to a release by that process or the
end of the gate, the process runs and no other passes, whatever comes in between.
Once the gate is shut nobody has the token or runs, nobody passes any more, and
every caller who looks, parked before or new, is turned away. -/
theorem exclusive (room : WaitingRoom) :
    (∀ m i pid, room.Passes m i pid →
      room.gate.holder = some pid ∧ (room.move m).gate.holder = some pid ∧
      ∀ more, (∀ x ∈ more, x ≠ Move.release pid ∧ x ≠ Move.close) →
        ((room.move m).run more).gate.running = some pid ∧
        ∀ next j q, ((room.move m).run more).Passes next j q → q = pid) ∧
    (∀ more,
      (room.close.run more).gate.holder = none ∧ (room.close.run more).gate.running = none ∧
      (∀ next j q, ¬ (room.close.run more).Passes next j q) ∧
      ∀ next j q, (room.close.run more).Looks next j q →
        ((room.close.run more).move next).waiters[j]? = some ⟨q, .turnedAway⟩) := by
  constructor
  · intro m i pid hpasses
    obtain ⟨after, hlook, hgate⟩ := look_of_passes hpasses
    obtain ⟨-, hholder, -, rfl⟩ := Gate.look_eq_passed_iff.mp hlook
    refine ⟨hholder, by rw [hgate]; exact hholder, ?_⟩
    intro more hmore
    have hstart : (room.move m).gate.running = some pid := by rw [hgate]
    have hrunning := running_run hstart hmore
    exact ⟨hrunning, fun next j q hnext => pid_eq_of_passes hrunning hnext⟩
  · intro more
    have hshut := (shut_close room).run more
    exact ⟨hshut.holder_eq, hshut.running_eq, fun next j q => hshut.not_passes,
      fun next j q hlooks => hshut.turnedAway hlooks⟩

/-- The token goes on to a second process while the first one runs. -/
theorem exclusive_two_callers :
    let room := new.run [.arrive 1, .arrive 2, .grant (some 1)]
    let later := (room.move (.look 0)).run [.grant (some 2), .release 2]
    room.Passes (.look 0) 0 1 ∧ later.gate.running = some 1 ∧ ¬ later.Passes (.look 1) 1 2 := by
  intro room later
  have hpasses : room.Passes (.look 0) 0 1 := by
    unfold Passes HasPassed
    decide
  obtain ⟨-, -, hturn⟩ := (exclusive room).1 _ _ _ hpasses
  obtain ⟨hrunning, hothers⟩ := hturn [.grant (some 2), .release 2] (by decide)
  refine ⟨hpasses, hrunning, ?_⟩
  intro hsecond
  exact absurd (hothers _ _ _ hsecond) (by decide)

end Kernelet.WaitingRoom
