import Kernelet.Proofs.Gate.Exclusion

/-!
No call at the gate is missed. A waiter sleeps until it is called, so that it must
not be the case that it could go on and has not been called since it last looked.
A move at the gate calls all who wait, or it lets nobody on who could not go on
before (`move_calls`), and whoever parks has just seen that it has to
(`Heeded.move`).
-/

namespace Kernelet

/-- A body has to wait while the gate is open and either another process has the
token or another body runs. -/
theorem Gate.look_eq_wait_iff {gate : Gate} {pid : Pid} :
    gate.look pid = .wait ↔
      gate.closed = false ∧
        (gate.holder ≠ some pid ∨ ∃ q, q ≠ pid ∧ gate.running = some q) := by
  have hbusy : (¬ (gate.running = none ∨ gate.running = some pid)) ↔
      ∃ q, q ≠ pid ∧ gate.running = some q := by
    cases gate.running with
    | none => simp
    | some q => simp
  unfold look
  rw [← hbusy]
  split
  · rename_i hclosed
    simp [hclosed]
  · rename_i hopen
    split
    · rename_i hturn
      simp [hturn]
    · rename_i hturn
      simp only [true_iff]
      exact ⟨by simpa using hopen, Decidable.not_and_iff_not_or_not.mp hturn⟩

namespace WaitingRoom

variable {room : WaitingRoom} {m : Move} {i : Nat} {pid : Pid} {waiter : Waiter}

/-- Whoever stands at a place after a move stood there before, or has looked in
this move. -/
theorem waiter_of_move (h : (room.move m).waiters[i]? = some waiter) :
    room.waiters[i]? = some waiter ∨
      ∃ pid, room.Looks m i pid ∧ waiter = (lookAs room.gate pid).1 := by
  by_cases hlooks : ∃ j q, room.Looks m j q
  · obtain ⟨j, q, hlooks⟩ := hlooks
    rw [(move_of_looks hlooks).2] at h
    split at h
    · rename_i hself
      subst hself
      exact Or.inr ⟨q, hlooks, (Option.some.inj h).symm⟩
    · exact Or.inl h
  · rw [waiters_move (by simpa using hlooks)] at h
    exact Or.inl h

/-- A caller that comes to be parked has to wait, and finds the gate and leaves it
as it is. -/
theorem lookAs_eq_parked {gate : Gate} {q : Pid} {seen : Nat}
    (h : (lookAs gate q).1 = ⟨pid, .parked seen⟩) :
    q = pid ∧ seen = gate.calls ∧ gate.look pid = .wait ∧ (lookAs gate q).2 = gate := by
  unfold lookAs at h ⊢
  cases hlook : gate.look q with
  | closed => simp [hlook] at h
  | passed after => simp [hlook] at h
  | wait =>
      simp only [hlook, Waiter.mk.injEq, WaitState.parked.injEq] at h
      obtain ⟨rfl, rfl⟩ := h
      exact ⟨rfl, rfl, hlook, rfl⟩

/-- A look makes no call. -/
theorem calls_lookAs (gate : Gate) (q : Pid) : (lookAs gate q).2.calls = gate.calls := by
  unfold lookAs
  cases hlook : gate.look q with
  | closed => rfl
  | wait => rfl
  | passed after =>
      obtain ⟨-, -, -, rfl⟩ := Gate.look_eq_passed_iff.mp hlook
      rfl

/-- Whoever has to wait still has to after another has looked: only the process with
the token passes, and then its body runs. -/
theorem look_lookAs {gate : Gate} (hwait : gate.look pid = .wait) (q : Pid) :
    (lookAs gate q).2.look pid = .wait := by
  unfold lookAs
  cases hlook : gate.look q with
  | closed => exact hwait
  | wait => exact hwait
  | passed after =>
      obtain ⟨-, -, -, rfl⟩ := Gate.look_eq_passed_iff.mp hlook
      obtain ⟨hopen, -⟩ := Gate.look_eq_wait_iff.mp hwait
      have hother : q ≠ pid := by
        rintro rfl
        rw [hwait] at hlook
        cases hlook
      exact Gate.look_eq_wait_iff.mpr ⟨hopen, Or.inr ⟨q, hother, rfl⟩⟩

/-- A move calls all who wait, or lets nobody on. -/
theorem move_calls (room : WaitingRoom) (m : Move) :
    (room.move m).gate.calls = room.gate.calls + 1 ∨
      ((room.move m).gate.calls = room.gate.calls ∧
        ∀ pid, room.gate.look pid = .wait → (room.move m).gate.look pid = .wait) := by
  cases m with
  | grant q =>
      cases hclosed : room.gate.closed with
      | true =>
          have hsame : (room.move (.grant q)).gate = room.gate := Gate.grant_of_closed hclosed q
          rw [hsame]
          exact Or.inr ⟨rfl, fun _ hwait => hwait⟩
      | false =>
          left
          simp [move, grant, Gate.grant, Gate.callWaiters, hclosed]
  | release q =>
      by_cases hruns : room.gate.running = some q
      · left
        simp [move, release, Gate.release, Gate.callWaiters, hruns]
      · have hsame : (room.move (.release q)).gate = room.gate := Gate.release_of_ne hruns
        rw [hsame]
        exact Or.inr ⟨rfl, fun _ hwait => hwait⟩
  | close => exact Or.inl rfl
  | arrive q =>
      have hgate : (room.move (.arrive q)).gate = (lookAs room.gate q).2 := rfl
      rw [hgate]
      exact Or.inr ⟨calls_lookAs room.gate q, fun _ hwait => look_lookAs hwait q⟩
  | look i =>
      by_cases hparked : ∃ q, room.Looks (.look i) i q
      · obtain ⟨q, hlooks⟩ := hparked
        rw [(move_of_looks hlooks).1]
        exact Or.inr ⟨calls_lookAs room.gate q, fun _ hwait => look_lookAs hwait q⟩
      · right
        simp only [move, look]
        split
        · rename_i q seen hfound
          exact absurd ⟨q, Or.inr ⟨rfl, seen, hfound⟩⟩ hparked
        · exact ⟨rfl, fun _ hwait => hwait⟩

/-- Whoever is parked and has not been called since has to wait. -/
structure Heeded (room : WaitingRoom) : Prop where
  seen_le : ∀ (i : Nat) (pid : Pid) (seen : Nat),
    room.waiters[i]? = some ⟨pid, .parked seen⟩ → seen ≤ room.gate.calls
  waits : ∀ (i : Nat) (pid : Pid),
    room.waiters[i]? = some ⟨pid, .parked room.gate.calls⟩ → room.gate.look pid = .wait

theorem heeded_new : new.Heeded where
  seen_le := by
    intro i pid seen h
    cases h
  waits := by
    intro i pid h
    cases h

namespace Heeded

theorem move (h : room.Heeded) (m : Move) : (room.move m).Heeded := by
  have hcalls := room.move_calls m
  have hgrows : room.gate.calls ≤ (room.move m).gate.calls := by omega
  constructor
  · intro i pid seen hparked
    rcases waiter_of_move hparked with hbefore | ⟨q, -, hlook⟩
    · exact Nat.le_trans (h.seen_le i pid seen hbefore) hgrows
    · obtain ⟨-, rfl, -, -⟩ := lookAs_eq_parked hlook.symm
      exact hgrows
  · intro i pid hparked
    rcases waiter_of_move hparked with hbefore | ⟨q, hlooks, hlook⟩
    · -- Nobody was called, and so nobody was let on either.
      have hseen := h.seen_le i pid _ hbefore
      rcases hcalls with hcalled | ⟨hsame, hkeeps⟩
      · omega
      · rw [hsame] at hbefore
        exact hkeeps pid (h.waits i pid hbefore)
    · obtain ⟨-, -, hwait, hgate⟩ := lookAs_eq_parked hlook.symm
      rw [(move_of_looks hlooks).1, hgate]
      exact hwait

theorem run (h : room.Heeded) (moves : List Move) : (room.run moves).Heeded := by
  induction moves generalizing room with
  | nil => exact h
  | cons m rest ih => exact ih (h.move m)

end Heeded

/-- A parked caller that has to wait stays parked in a move that lets it on. -/
theorem stays_parked {seen : Nat} (hparked : room.waiters[i]? = some ⟨pid, .parked seen⟩)
    (hwait : room.gate.look pid = .wait) (hgo : (room.move m).gate.look pid ≠ .wait) :
    (room.move m).waiters[i]? = some ⟨pid, .parked seen⟩ := by
  by_cases hlooks : ∃ j q, room.Looks m j q
  · obtain ⟨j, q, hlooks⟩ := hlooks
    obtain ⟨hgate, hwaiters⟩ := move_of_looks hlooks
    rw [hwaiters]
    split
    · exfalso
      apply hgo
      rw [hgate]
      exact look_lookAs hwait q
    · exact hparked
  · rw [waiters_move (by simpa using hlooks)]
    exact hparked

/-- After any moves, whoever is parked and has not been called since it last looked
has to wait: the gate is open, and another process has the token or another body
runs. And a move that lets a parked caller on calls it. -/
theorem calls_whoever_may_go (moves : List Move) :
    let room := new.run moves
    (∀ (i : Nat) (pid : Pid) (seen : Nat), room.waiters[i]? = some ⟨pid, .parked seen⟩ →
      isCalled room.gate ⟨pid, .parked seen⟩ = false →
        room.gate.closed = false ∧
          (room.gate.holder ≠ some pid ∨ ∃ q, q ≠ pid ∧ room.gate.running = some q)) ∧
    ∀ (m : Move) (i : Nat) (pid : Pid) (seen : Nat), room.waiters[i]? = some ⟨pid, .parked seen⟩ →
      room.gate.look pid = .wait → (room.move m).gate.look pid ≠ .wait →
        (room.move m).waiters[i]? = some ⟨pid, .parked seen⟩ ∧
          (room.move m).gate.calls = room.gate.calls + 1 ∧
            isCalled (room.move m).gate ⟨pid, .parked seen⟩ = true := by
  intro room
  have hheeded : room.Heeded := heeded_new.run moves
  constructor
  · intro i pid seen hparked hcalled
    have hseen := hheeded.seen_le i pid seen hparked
    have hlast : seen = room.gate.calls := by
      simp only [isCalled, decide_eq_false_iff_not] at hcalled
      omega
    subst hlast
    exact Gate.look_eq_wait_iff.mp (hheeded.waits i pid hparked)
  · intro m i pid seen hparked hwait hgo
    have hseen := hheeded.seen_le i pid seen hparked
    rcases room.move_calls m with hcalls | ⟨-, hkeeps⟩
    · refine ⟨stays_parked hparked hwait hgo, hcalls, ?_⟩
      simp only [isCalled, decide_eq_true_eq]
      omega
    · exact absurd (hkeeps pid hwait) hgo

/-- A second caller is called in vain, looks and parks again, and is called once more
when the first body gives the CPU up. -/
theorem calls_second_caller :
    let room := new.run [.grant (some 1), .arrive 1, .arrive 2, .grant (some 2), .look 1]
    (room.waiters[1]? = some ⟨2, .parked 2⟩ ∧ isCalled room.gate ⟨2, .parked 2⟩ = false ∧
      (room.gate.holder ≠ some 2 ∨ ∃ q, q ≠ 2 ∧ room.gate.running = some q)) ∧
    (room.gate.look 2 = .wait ∧ (room.move (.release 1)).gate.look 2 ≠ .wait ∧
      isCalled (room.move (.release 1)).gate ⟨2, .parked 2⟩ = true) := by
  intro room
  have hparked : room.waiters[1]? = some ⟨2, .parked 2⟩ := by decide
  have hasleep : isCalled room.gate ⟨2, .parked 2⟩ = false := by decide
  have hwait : room.gate.look 2 = .wait := 
    Gate.look_eq_wait_iff.mpr ⟨by decide, Or.inr ⟨1, by decide, by decide⟩⟩
  have hgo : (room.move (.release 1)).gate.look 2 ≠ .wait := by
    intro hstill
    rcases (Gate.look_eq_wait_iff.mp hstill).2 with hholder | ⟨q, -, hruns⟩
    · exact hholder (by decide)
    · cases hruns
  obtain ⟨hsleep, hcall⟩ := calls_whoever_may_go
    [.grant (some 1), .arrive 1, .arrive 2, .grant (some 2), .look 1]
  obtain ⟨-, -, hcalled⟩ := hcall (.release 1) 1 2 2 hparked hwait hgo
  exact ⟨⟨hparked, hasleep, (hsleep 1 2 2 hparked hasleep).2⟩, hwait, hgo, hcalled⟩

end WaitingRoom

end Kernelet
