import Kernelet.Kernel.Request

/-!
Callers who want the first process created, one critical section at a time. A
caller looks whether the process is there. If it is not, the caller goes on to
create it, but not in the same critical section: in between anybody else may come
first, another such caller or a request of any other kind. A history is any list of
moves.

`Kernel.createInit` is the schedule in which every caller that has looked goes on
before anything else happens.
-/

namespace Kernelet

/-- How far a caller has come. -/
inductive InitCall where
  /-- It found no first process, and is yet to create it. -/
  | cleared
  | created (pid : Pid)
  | refused (e : KernelError)
deriving DecidableEq

/-- A call that has come to its end with `result`. -/
def InitCall.returned : Except KernelError Pid → InitCall
  | .ok pid => .created pid
  | .error e => .refused e

/-- A kernel and everybody who ever wanted its first process created, in order of
arrival. -/
structure Startup where
  kernel : Kernel
  calls : List InitCall

namespace Startup

open Kernel

/-- A kernel that nobody has called yet. -/
def new (k : Kernel) : Startup where
  kernel := k
  calls := []

/-- A new caller looks for the first process. -/
def arrive (s : Startup) : Startup :=
  let call : InitCall :=
    if s.kernel.sched.contains initPid then .refused (.alreadyExists initPid) else .cleared
  { s with calls := s.calls ++ [call] }

/-- The caller at place `i` creates a process, if it has been cleared. -/
def create (s : Startup) (i : Nat) : Startup :=
  match s.calls[i]? with
  | some .cleared =>
    match s.kernel.spawn "init" 0 initPages with
    | ⟨result, kernel⟩ => { kernel, calls := s.calls.set i (.returned result) }
  | _ => s

/-- One critical section. -/
inductive Move where
  /-- A request of another kind is served. -/
  | serve (request : Request) (h : request ≠ .createInit)
  /-- Somebody wants the first process created. -/
  | arrive
  /-- A caller that has been cleared goes on. -/
  | create (i : Nat)

def move (s : Startup) : Move → Startup
  | .serve request _ => { s with kernel := (s.kernel.serve request).state }
  | .arrive => s.arrive
  | .create i => s.create i

def run (s : Startup) (moves : List Move) : Startup :=
  moves.foldl move s

end Startup

end Kernelet
