import Std.Data.ExtTreeMap
import Kernelet.Proofs.Spaces.Balance

/-!
Copy-on-write against copying at once. In the eager model every space is a map
of its own from page numbers to bytes, and a fork copies the whole map; there
are no frames, no references and no sharing. `Spaces.Follows` says that the
spaces over one pool answer every operation as that model does, unless memory
has run out, and then nothing has happened.

What carries the proof is that the spaces are in balance: a page that is
written has its frame to itself, so that no other space can see the write.
-/

namespace Kernelet

/-- A space of the eager model. -/
structure Eager.Space where
  maxPages : Nat
  pages : Std.ExtTreeMap Nat Page

/-- The eager model. Spaces are numbered in order of creation. -/
structure Eager where
  slots : List (Option Eager.Space)

namespace Eager

/-- An operation on one space. -/
inductive Access where
  | map (address : VirtAddr) (flags : PageFlags)
  | readByte (address : VirtAddr)
  | writeByte (address : VirtAddr) (byte : UInt8)
  | release

inductive Op where
  | create (size : Nat)
  | fork (i : Nat)
  | drop (i : Nat)
  | access (i : Nat) (act : Access)

def Access.request : Access → Memory.Request
  | .map a flags => .map a flags
  | .readByte a => .readByte a
  | .writeByte a byte => .writeByte a byte
  | .release => .release

/-- The operation as a request to spaces that share a pool. -/
def Op.request : Op → Spaces.Request
  | .create size => .create size
  | .fork i => .fork i
  | .drop i => .drop i
  | .access i act => .access i act.request

/-- Whether the operation may have to take a frame. -/
def Access.takesFrame : Access → Bool
  | .map _ _ | .writeByte _ _ => true
  | .readByte _ | .release => false

def Op.takesFrame : Op → Bool
  | .access _ act => act.takesFrame
  | .create _ | .fork _ | .drop _ => false

def Space.new (size : Nat) : Space :=
  ⟨size / pageSize, ∅⟩

def Space.store (copy : Space) (p : Nat) (page : Page) : Space :=
  { copy with pages := copy.pages.insert p page }

def Space.serve (copy : Space) : Access → Outcome Space Memory.Reply
  | .map a flags =>
    match copy.pages[a.page]? with
    | some _ => ⟨.ok .done, copy⟩
    | none =>
      if a.page < copy.maxPages then
        ⟨.ok .done, copy.store a.page ⟨PageBytes.zero, flags.mayWrite⟩⟩
      else
        ⟨.error (.addressOutOfRange a), copy⟩
  | .readByte a =>
    match copy.pages[a.page]? with
    | none => ⟨.error (.pageFault a), copy⟩
    | some page => ⟨.ok (.byte (page.read a)), copy⟩
  | .writeByte a byte =>
    match copy.pages[a.page]? with
    | none => ⟨.error (.pageFault a), copy⟩
    | some page =>
      if page.writable then
        ⟨.ok .done, copy.store a.page (page.write a byte)⟩
      else
        ⟨.error (.permissionFault a), copy⟩
  | .release => ⟨.ok .done, { copy with pages := ∅ }⟩

def space? (e : Eager) (i : Nat) : Option Space :=
  (e.slots[i]?).join

/-- Serves one operation. None of them takes memory, and none of them fails
for the lack of it. -/
def serve (e : Eager) : Op → Outcome Eager Spaces.Reply
  | .create size => ⟨.ok (.created e.slots.length), ⟨e.slots ++ [some (Space.new size)]⟩⟩
  | .fork i =>
    match e.space? i with
    | none => ⟨.ok .absent, e⟩
    | some copy => ⟨.ok (.created e.slots.length), ⟨e.slots ++ [some copy]⟩⟩
  | .drop i =>
    match e.space? i with
    | none => ⟨.ok .absent, e⟩
    | some _ => ⟨.ok .dropped, ⟨e.slots.set i none⟩⟩
  | .access i act =>
    match e.space? i with
    | none => ⟨.ok .absent, e⟩
    | some copy =>
      match copy.serve act with
      | ⟨result, copy⟩ => ⟨result.map .access, ⟨e.slots.set i (some copy)⟩⟩

end Eager

/-- What a process sees of its space is `copy`. -/
structure Shows (pool : FramePool) (space : AddressSpace) (copy : Eager.Space) : Prop where
  maxPages_eq : space.table.maxPages = copy.maxPages
  page_eq : ∀ p, space.table.page? pool p = copy.pages[p]?

/-- The same spaces live in both, and each shows what its copy holds. -/
structure Spaces.Matches (s : Spaces) (e : Eager) : Prop where
  length_eq : s.slots.length = e.slots.length
  shows : ∀ i, Option.Rel (Shows s.pool) (s.space? i) (e.space? i)

/-- Through all of `ops` the spaces match the eager model and answer as it
does, except that an operation which takes a frame may find none free. It then
says so, and the model stays where it was. -/
inductive Spaces.Follows : Spaces → Eager → List Eager.Op → Prop
  | nil {s : Spaces} {e : Eager} (hmatch : s.Matches e) : Follows s e []
  | served {s : Spaces} {e : Eager} {op : Eager.Op} {rest : List Eager.Op}
      (hmatch : s.Matches e)
      (hresult : (s.serve op.request).result = (e.serve op).result)
      (hrest : Follows (s.serve op.request).state (e.serve op).state rest) :
      Follows s e (op :: rest)
  | starved {s : Spaces} {e : Eager} {op : Eager.Op} {rest : List Eager.Op}
      (hmatch : s.Matches e) (htakes : op.takesFrame = true) (hfull : s.pool.freeCount = 0)
      (hresult : (s.serve op.request).result = .error .outOfMemory)
      (hrest : Follows (s.serve op.request).state e rest) :
      Follows s e (op :: rest)

end Kernelet
