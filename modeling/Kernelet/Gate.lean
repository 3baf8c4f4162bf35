import Kernelet.Error

/-!
The execution gate. It holds the token that lets the body of one process run
at a time. Handing the CPU over takes two steps: a grant only names the next
holder, and the holder starts once the body that runs has given the CPU up. A
grant that comes while a body runs therefore moves the token, but starts
nothing.

Bodies that cannot go on wait. Every change that could let one of them on is
announced, and the gate counts the announcements, so that a waiter which
remembers the count at its last look knows whether it has to look again.
-/

namespace Kernelet

structure Gate where
  /-- The process that has the token. -/
  holder : Option Pid
  /-- The process whose body runs. -/
  running : Option Pid
  /-- The gate is shut for good, and nobody passes any more. -/
  closed : Bool
  /-- How often the waiters were called to look again. -/
  calls : Nat
deriving DecidableEq, Repr

namespace Gate

/-- An open gate with nobody at it. -/
def new : Gate where
  holder := none
  running := none
  closed := false
  calls := 0

/-- Calls the waiters to look again. -/
def callWaiters (gate : Gate) : Gate :=
  { gate with calls := gate.calls + 1 }

/-- Hands the token to `pid`, or to nobody. Nothing happens once the gate is
closed. -/
def grant (gate : Gate) (pid : Option Pid) : Gate :=
  if gate.closed then gate else { gate with holder := pid }.callWaiters

/-- What a look at the gate tells the body of a process. -/
inductive Look where
  | closed
  /-- It is the body's turn, and the gate is now as given. -/
  | passed (gate : Gate)
  | wait

/-- One look at the gate by the body of `pid`. It passes if `pid` has the token
and no other body runs, and is then the body that runs. -/
def look (gate : Gate) (pid : Pid) : Look :=
  if gate.closed then .closed
  else if gate.holder = some pid ∧ (gate.running = none ∨ gate.running = some pid) then
    .passed { gate with running := some pid }
  else
    .wait

/-- The body of `pid` gives the CPU up. If it does not run, nothing happens. -/
def release (gate : Gate) (pid : Pid) : Gate :=
  if gate.running = some pid then { gate with running := none }.callWaiters else gate

/-- Shuts the gate. All who wait, and all who come later, are turned away. -/
def close (gate : Gate) : Gate :=
  { gate with holder := none, running := none, closed := true }.callWaiters

/-- Who passes had the token, and found nobody else running. -/
theorem look_eq_passed_iff {gate after : Gate} {pid : Pid} :
    gate.look pid = .passed after ↔
      gate.closed = false ∧ gate.holder = some pid ∧
        (gate.running = none ∨ gate.running = some pid) ∧
          after = { gate with running := some pid } := by
  unfold look
  split
  · rename_i hclosed
    simp [hclosed]
  · rename_i hopen
    split
    · rename_i hturn
      constructor
      · intro hlook
        cases hlook
        exact ⟨by simpa using hopen, hturn.1, hturn.2, rfl⟩
      · rintro ⟨-, -, -, rfl⟩
        rfl
    · rename_i hturn
      constructor
      · intro hlook
        cases hlook
      · rintro ⟨-, hholder, hrunning, -⟩
        exact absurd ⟨hholder, hrunning⟩ hturn

/-- While a body runs only that body passes. -/
theorem eq_of_look_passed {gate after : Gate} {pid q : Pid} (h : gate.running = some pid)
    (hlook : gate.look q = .passed after) : q = pid := by
  obtain ⟨-, -, hfree, -⟩ := look_eq_passed_iff.mp hlook
  rw [h] at hfree
  rcases hfree with hnone | hsome
  · cases hnone
  · exact (Option.some.inj hsome).symm

theorem look_eq_closed_iff {gate : Gate} {pid : Pid} :
    gate.look pid = .closed ↔ gate.closed = true := by
  unfold look
  split
  · simp_all
  · split <;> simp_all

theorem holder_grant {gate : Gate} (h : gate.closed = false) (pid : Option Pid) :
    (gate.grant pid).holder = pid := by
  simp [grant, callWaiters, h]

theorem grant_of_closed {gate : Gate} (h : gate.closed = true) (pid : Option Pid) :
    gate.grant pid = gate := by
  simp [grant, h]

@[simp] theorem closed_grant (gate : Gate) (pid : Option Pid) :
    (gate.grant pid).closed = gate.closed := by
  unfold grant
  split <;> rfl

@[simp] theorem running_grant (gate : Gate) (pid : Option Pid) :
    (gate.grant pid).running = gate.running := by
  unfold grant
  split <;> rfl

/-- A grant calls all who wait, as long as the gate is open. -/
theorem calls_grant {gate : Gate} (h : gate.closed = false) (pid : Option Pid) :
    (gate.grant pid).calls = gate.calls + 1 := by
  simp [grant, callWaiters, h]

theorem calls_le_grant (gate : Gate) (pid : Option Pid) :
    gate.calls ≤ (gate.grant pid).calls := by
  unfold grant
  split
  · exact Nat.le_refl _
  · exact Nat.le_succ _

theorem calls_le_release (gate : Gate) (pid : Pid) : gate.calls ≤ (gate.release pid).calls := by
  unfold release
  split
  · exact Nat.le_succ _
  · exact Nat.le_refl _

@[simp] theorem closed_release (gate : Gate) (pid : Pid) :
    (gate.release pid).closed = gate.closed := by
  unfold release
  split <;> rfl

@[simp] theorem holder_release (gate : Gate) (pid : Pid) :
    (gate.release pid).holder = gate.holder := by
  unfold release
  split <;> rfl

theorem running_release_self {gate : Gate} {pid : Pid} (h : gate.running = some pid) :
    (gate.release pid).running = none := by
  simp [release, callWaiters, h]

theorem release_of_ne {gate : Gate} {pid : Pid} (h : gate.running ≠ some pid) :
    gate.release pid = gate := by
  simp [release, h]

end Gate

end Kernelet
