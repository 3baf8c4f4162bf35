import Kernelet.Gate

/-!
Callers who wait for their turn at the gate, one critical section at a time. A
caller looks once when it arrives and parks if it may not pass. A parked caller
looks again when it has been called, or for no reason at all, and then passes,
is turned away, or parks once more. Between two critical sections anybody else
may come first, so that a history of the room is any list of moves.

`WaitingRoom.settle` is the one schedule in which all who have been called look
before anything else happens.
-/

namespace Kernelet

/-- How far a caller has come. -/
inductive WaitState where
  /-- It waits, and last looked when the gate had made `seen` calls. -/
  | parked (seen : Nat)
  | passed
  /-- It was turned away because the gate is closed. -/
  | turnedAway
deriving DecidableEq, Repr

/-- A caller that asked for a turn of process `pid`. -/
structure Waiter where
  pid : Pid
  state : WaitState
deriving DecidableEq, Repr

/-- The gate and everybody who ever asked for a turn, in order of arrival. -/
structure WaitingRoom where
  gate : Gate
  waiters : List Waiter
deriving DecidableEq, Repr

namespace WaitingRoom

def new : WaitingRoom where
  gate := Gate.new
  waiters := []

/-- A caller for `pid` looks at the gate: what becomes of the caller, and of the
gate. -/
def lookAs (gate : Gate) (pid : Pid) : Waiter × Gate :=
  match gate.look pid with
  | .closed => (⟨pid, .turnedAway⟩, gate)
  | .passed gate => (⟨pid, .passed⟩, gate)
  | .wait => (⟨pid, .parked gate.calls⟩, gate)

def grant (room : WaitingRoom) (pid : Option Pid) : WaitingRoom :=
  { room with gate := room.gate.grant pid }

def release (room : WaitingRoom) (pid : Pid) : WaitingRoom :=
  { room with gate := room.gate.release pid }

def close (room : WaitingRoom) : WaitingRoom :=
  { room with gate := room.gate.close }

/-- A new caller for `pid` arrives and looks. -/
def arrive (room : WaitingRoom) (pid : Pid) : WaitingRoom :=
  let (waiter, gate) := lookAs room.gate pid
  { gate, waiters := room.waiters ++ [waiter] }

/-- The caller at place `i` looks again, if it is parked. -/
def look (room : WaitingRoom) (i : Nat) : WaitingRoom :=
  match room.waiters[i]? with
  | some ⟨pid, .parked _⟩ =>
    let (waiter, gate) := lookAs room.gate pid
    { gate, waiters := room.waiters.set i waiter }
  | _ => room

/-- One critical section at the gate. -/
inductive Move where
  | grant (pid : Option Pid)
  | release (pid : Pid)
  | close
  /-- Somebody asks for a turn of a process. -/
  | arrive (pid : Pid)
  /-- A parked caller looks again, called or not. -/
  | look (i : Nat)
deriving DecidableEq, Repr

def move (room : WaitingRoom) : Move → WaitingRoom
  | .grant pid => room.grant pid
  | .release pid => room.release pid
  | .close => room.close
  | .arrive pid => room.arrive pid
  | .look i => room.look i

/-- The room after some moves. -/
def run (room : WaitingRoom) (moves : List Move) : WaitingRoom :=
  moves.foldl move room

/-- Whether a caller is parked and has been called since it last looked. -/
def isCalled (gate : Gate) (waiter : Waiter) : Bool :=
  match waiter.state with
  | .parked seen => seen < gate.calls
  | .passed | .turnedAway => false

/-- Everybody who has been called looks again, in order of arrival. A look makes
no further call, so that nobody has to look twice. -/
def settle (room : WaitingRoom) : WaitingRoom :=
  (List.range room.waiters.length).foldl
    (fun room i => if room.waiters[i]?.any (isCalled room.gate) then room.look i else room) room

end WaitingRoom

end Kernelet
