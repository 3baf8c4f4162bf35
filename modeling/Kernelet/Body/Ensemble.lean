import Kernelet.Body.Script

/-!
A kernel with the bodies of its processes. `Ensemble.settle` lets the bodies run
until each of them is gone or waits for a turn that it will not get by itself.
-/

namespace Kernelet

/-- A kernel, the bodies of its processes in the order in which they were
started, and what their scripts reported. -/
structure Ensemble (ρ : Type) where
  kernel : Kernel
  bodies : List (Body ρ)
  log : List (Event ρ)

namespace Ensemble

variable {ρ : Type}

def new (k : Kernel) : Ensemble ρ where
  kernel := k
  bodies := []
  log := []

def start (s : Ensemble ρ) (pid : Pid) (script : Script ρ) : Ensemble ρ :=
  { s with bodies := s.bodies ++ [Body.new pid script] }

def advance (s : Ensemble ρ) (i : Nat) : Ensemble ρ :=
  match s.bodies[i]? with
  | none => s
  | some body =>
    match body.advance s.kernel with
    | ⟨kernel, body, event, child⟩ =>
      { kernel
        bodies := s.bodies.set i body ++ child.toList
        log := s.log ++ event.toList }

/-- The body to go on next: one that executes, or else the first that has been
called to the gate. -/
def next? (s : Ensemble ρ) : Option Nat :=
  match s.bodies.findIdx? fun body => body.point.isExecuting with
  | some i => some i
  | none =>
    s.bodies.findIdx? fun body =>
      !body.point.isEnded && !body.point.isParked s.kernel.gate

/-- Lets the bodies take `fuel` steps, or fewer if none of them can go on. -/
def run : Nat → Ensemble ρ → Ensemble ρ
  | 0, s => s
  | fuel + 1, s =>
    match s.next? with
    | none => s
    | some i => run fuel (s.advance i)

/-- How much the bodies have left to do, and a little for each of them. -/
def workLeft (s : Ensemble ρ) : Nat :=
  s.bodies.foldl (fun work body => work + body.workLeft + 4) 4

/-- A number of steps within which the bodies come to rest: every step of a
script takes a few critical sections, and each of them may call every body to
the gate for one look. -/
def fuel (s : Ensemble ρ) : Nat :=
  64 * s.workLeft * s.workLeft

/-- Lets the bodies run until none of them can go on. -/
def settle (s : Ensemble ρ) : Ensemble ρ :=
  run s.fuel s

/-- Something happens to the kernel from outside, and the bodies take notice. -/
def outside {α : Type} (s : Ensemble ρ) (act : Kernel → α × Kernel) : α × Ensemble ρ :=
  let (answer, kernel) := act s.kernel
  (answer, { s with kernel }.settle)

/-- What was reported since the last time, and the system with nothing to
report. -/
def takeLog (s : Ensemble ρ) : List (Event ρ) × Ensemble ρ :=
  (s.log, { s with log := [] })

/-- Shuts the gate and lets every body come to its end. -/
def shutdown (s : Ensemble ρ) : Ensemble ρ :=
  { s with kernel := s.kernel.shutdown }.settle

/-- How the body of each process ended, in the order in which they were
started. One that has not ended has no outcome. -/
def outcomes (s : Ensemble ρ) : List (Pid × Option (Except KernelError Unit)) :=
  s.bodies.map fun body =>
    (body.pid,
      match body.point with
      | .ended outcome => some outcome
      | _ => none)

end Ensemble

end Kernelet
