import Kernelet.Body.Call

/-!
Scripts: the code of a body as a list of steps. A script runs its steps in
order and reports the result of each. A step that fails ends the script, unless
it is only attempted; a shut gate ends the script in any case.
-/

namespace Kernelet

/-- One step of a script. Steps that report carry the label to report under. -/
inductive Step (ρ : Type) where
  /-- A call to the kernel. -/
  | call (label : String) (call : Call ρ)
  /-- A fork whose child gets a body with a script of its own. -/
  | forkRunning (label : String) (child : List (Step ρ))
  /-- Something done at once, whoever's turn it is. It never fails. -/
  | report (label : String) (act : Pid → Kernel → ρ × Kernel)
  | fail (label : String) (error : KernelError)
  /-- A step whose failure does not end the script. -/
  | attempt (step : Step ρ)
  /-- A script to be run a number of times. -/
  | times (count : Nat) (script : List (Step ρ))

abbrev Script (ρ : Type) := List (Step ρ)

mutual

/-- How many steps are taken if a step goes as planned, children included. -/
def Step.length {ρ : Type} : Step ρ → Nat
  | .call _ _ | .report _ _ | .fail _ _ => 1
  | .forkRunning _ child => 1 + Script.length child
  | .attempt step => 1 + step.length
  | .times count script => count * (1 + Script.length script) + 1

/-- How many steps are taken if a script goes as planned, children included. -/
def Script.length {ρ : Type} : List (Step ρ) → Nat
  | [] => 0
  | step :: rest => step.length + Script.length rest

end

/-- Steps that belong together. A failure in a guarded block ends that block
and no more. -/
structure Block (ρ : Type) where
  steps : Script ρ
  guarded : Bool

structure Event (ρ : Type) where
  pid : Pid
  label : String
  result : Except KernelError (Reply ρ)

/-- A call that has not returned yet: the label of its step, and the script for
the child if it is a fork. -/
structure OpenCall (ρ : Type) where
  label : String
  child : Option (Script ρ)

structure Body (ρ : Type) where
  pid : Pid
  point : Point ρ
  /-- What is left to do, the innermost block first. -/
  blocks : List (Block ρ)
  openCall : Option (OpenCall ρ)

namespace Body

variable {ρ : Type}

/-- A body for process `pid` that has not started yet. -/
def new (pid : Pid) (script : Script ρ) : Body ρ where
  pid := pid
  point := .start
  blocks := [⟨script, false⟩]
  openCall := none

def workLeft (body : Body ρ) : Nat :=
  body.blocks.foldl (fun work block => work + 1 + Script.length block.steps) 0

/-- The blocks that are left after a failure. There are none if no block was
guarded. -/
def unwind : List (Block ρ) → Option (List (Block ρ))
  | [] => none
  | block :: rest => if block.guarded then some rest else unwind rest

def failed (body : Body ρ) (e : KernelError) : Body ρ :=
  match if e = .gateClosed then none else unwind body.blocks with
  | some blocks => { body with point := .ready, blocks }
  | none => { body with point := .stopping (.error e), blocks := [] }

/-- What a body does with its own code in one go: the kernel and the body after
it, what it reports, and a body that it starts. -/
structure Progress (ρ : Type) where
  kernel : Kernel
  body : Body ρ
  event : Option (Event ρ)
  child : Option (Body ρ)

/-- Begins the next step of the script, if there is one. -/
def begin (body : Body ρ) (k : Kernel) : Progress ρ :=
  match body.blocks with
  | [] => ⟨k, { body with point := .stopping (.ok ()) }, none, none⟩
  | ⟨[], _⟩ :: outer => ⟨k, { body with blocks := outer }, none, none⟩
  | ⟨step :: rest, guarded⟩ :: outer =>
    let body := { body with blocks := ⟨rest, guarded⟩ :: outer }
    match step with
    | .call label call =>
      ⟨k, { body with point := .entering call, openCall := some ⟨label, none⟩ }, none, none⟩
    | .forkRunning label child =>
      ⟨k, { body with point := .entering .fork, openCall := some ⟨label, some child⟩ },
        none, none⟩
    | .report label act =>
      let (answer, k) := act body.pid k
      ⟨k, body, some ⟨body.pid, label, .ok (.value answer)⟩, none⟩
    | .fail label e => ⟨k, body.failed e, some ⟨body.pid, label, .error e⟩, none⟩
    | .attempt step =>
      ⟨k, { body with blocks := ⟨[step], true⟩ :: body.blocks }, none, none⟩
    | .times 0 _ => ⟨k, body, none, none⟩
    | .times (count + 1) script =>
      let outer := ⟨.times count script :: rest, guarded⟩ :: outer
      ⟨k, { body with blocks := ⟨script, false⟩ :: outer }, none, none⟩

/-- Takes the result of a call: reports it, starts the body of a child, and
goes on or fails. -/
def take (body : Body ρ) (k : Kernel) (result : Except KernelError (Reply ρ)) : Progress ρ :=
  match body.openCall with
  | none => ⟨k, { body with point := .ready }, none, none⟩
  | some ⟨label, script⟩ =>
    let body := { body with openCall := none }
    let event := some ⟨body.pid, label, result⟩
    match result with
    | .error e => ⟨k, body.failed e, event, none⟩
    | .ok (.child pid) => ⟨k, { body with point := .ready }, event, script.map (new pid)⟩
    | .ok _ => ⟨k, { body with point := .ready }, event, none⟩

/-- One step of a body: of its own code where it has the choice, and of its way
through the kernel elsewhere. -/
def advance (body : Body ρ) (k : Kernel) : Progress ρ :=
  match body.point with
  | .ready => body.begin k
  | .returned result => body.take k result
  | point =>
    let (k, point) := point.advance k body.pid
    ⟨k, { body with point }, none, none⟩

end Body

end Kernelet
