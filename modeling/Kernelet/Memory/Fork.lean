import Kernelet.Memory.AddressSpace

/-!
Duplicating an address space without copying it. The child maps the same
frames, each of which gains a reference, and every page that could be written
becomes copy-on-write on both sides. Read-only pages are shared as they are.
-/

namespace Kernelet.Memory

/-- A parent and a child in the middle of a fork, with the memory behind
them. -/
structure Sharing where
  parent : PageTable
  child : PageTable
  pool : FramePool

/-- Shares one page: its frame gains a reference, and on both sides its flags
become those of a shared page. -/
def Sharing.page (s : Sharing) (p : Nat) (entry : PageEntry) : Except KernelError Sharing :=
  match s.pool.share entry.frame with
  | .error e => .error e
  | .ok pool =>
    .ok {
      parent := (s.parent.setFlags p entry.flags.shared).2
      child := (s.child.setFlags p entry.flags.shared).2
      pool }

/-- Shares the pages of a list in turn. If a frame cannot be shared, the child
loses that page and all pages after it, for which it holds no reference. -/
def Sharing.pages (s : Sharing) : List (Nat × PageEntry) → Outcome Sharing Unit
  | [] => ⟨.ok (), s⟩
  | (p, entry) :: rest =>
    match s.page p entry with
    | .ok s => s.pages rest
    | .error e =>
      let kept := ((p, entry) :: rest).foldl (fun table (q, _) => (table.unmap q).2) s.child
      ⟨.error e, { s with child := kept }⟩

/-- Duplicates the space for a child process. If that fails, what the child
held so far is given back. -/
def fork (m : Memory) : Outcome Memory AddressSpace :=
  let start : Sharing := ⟨m.space.table, m.space.table, m.pool⟩
  match start.pages m.space.table.entries with
  | ⟨.ok (), s⟩ =>
    ⟨.ok { m.space with table := s.child },
      { space := { m.space with table := s.parent }, pool := s.pool }⟩
  | ⟨.error e, s⟩ =>
    let child : AddressSpace := { m.space with table := s.child }
    ⟨.error e,
      { space := { m.space with table := s.parent }, pool := child.releaseFrames s.pool }⟩

end Kernelet.Memory
