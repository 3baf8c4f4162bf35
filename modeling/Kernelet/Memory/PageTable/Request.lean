import Kernelet.Memory.PageTable

/-!
What may be asked of a page table, as data, and of a family of tables that are copied from one
another. A copy is a table of its own from then on.

The course of a family is written for anything that answers the requests to a table, so that a
family of tables and one of simpler things can be put through the same course.
-/

namespace Kernelet

namespace PageTable

/-- A request to a page table that may change it. -/
inductive Request where
  | map (p : Nat) (frame : FrameId) (flags : PageFlags)
  | unmap (p : Nat)
  | setFlags (p : Nat) (flags : PageFlags)
  | clear
deriving DecidableEq

/-- The answer to a request that succeeds. -/
inductive Reply where
  | done
  /-- The entry that was removed, if there was one. -/
  | removed (entry : Option PageEntry)
  /-- Whether the page is mapped. -/
  | found (mapped : Bool)
deriving DecidableEq

def serve (table : PageTable) : Request → Outcome PageTable Reply
  | .map p frame flags =>
    match table.map p frame flags with
    | .ok after => ⟨.ok .done, after⟩
    | .error e => ⟨.error e, table⟩
  | .unmap p =>
    let (entry, after) := table.unmap p
    ⟨.ok (.removed entry), after⟩
  | .setFlags p flags =>
    let (mapped, after) := table.setFlags p flags
    ⟨.ok (.found mapped), after⟩
  | .clear => ⟨.ok .done, table.clear⟩

end PageTable

/-- What happens in a family of tables: one of them serves a request, or is copied. Tables are
known by the order in which they came about. -/
inductive FamilyEvent where
  | access (i : Nat) (request : PageTable.Request)
  | clone (i : Nat)
deriving DecidableEq

namespace FamilyEvent

variable {σ : Type}

/-- The family after an event, and the answer if a table was asked. -/
def apply (serve : σ → PageTable.Request → Outcome σ PageTable.Reply) (family : List σ) :
    FamilyEvent → Option (Except KernelError PageTable.Reply) × List σ
  | .access i request =>
    match family[i]? with
    | some table =>
      let ⟨result, after⟩ := serve table request
      (some result, family.set i after)
    | none => (none, family)
  | .clone i => (none, family ++ family[i]?.toList)

/-- The answers to events in turn, and the family after them. -/
def applyAll (serve : σ → PageTable.Request → Outcome σ PageTable.Reply) (family : List σ) :
    List FamilyEvent → List (Option (Except KernelError PageTable.Reply)) × List σ
  | [] => ([], family)
  | event :: rest =>
    let (answer, after) := event.apply serve family
    let (answers, last) := applyAll serve after rest
    (answer :: answers, last)

end FamilyEvent

end Kernelet
