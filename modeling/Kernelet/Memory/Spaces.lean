import Kernelet.Memory.Fork
import Kernelet.Memory.Request

/-!
Any number of address spaces over one pool of frames. Spaces are known by the
order of their creation, and a space that is dropped gives its frames back and
leaves its place empty.
-/

namespace Kernelet

/-- Address spaces that share one pool. -/
structure Spaces where
  pool : FramePool
  /-- The spaces in order of creation; `none` where one was dropped. -/
  slots : List (Option AddressSpace)

namespace Spaces

/-- No space yet, over a pool of `total` frames with `reserved` of them kept
by the kernel. -/
def boot (total reserved : Nat) : Spaces where
  pool := FramePool.new total reserved
  slots := []

/-- Space number `i`, if it lives. -/
def space? (s : Spaces) (i : Nat) : Option AddressSpace :=
  (s.slots[i]?).join

/-- Adds an empty space of `size` bytes and returns its number. -/
def create (s : Spaces) (size : Nat) : Nat × Spaces :=
  (s.slots.length, { s with slots := s.slots ++ [some (AddressSpace.new size)] })

/-- The same spaces with number `i` and the pool as `m` has them. -/
def put (s : Spaces) (i : Nat) (m : Memory) : Spaces where
  pool := m.pool
  slots := s.slots.set i (some m.space)

/-- What was asked of the spaces, beside or instead of a request to one. -/
inductive Request where
  | create (size : Nat)
  | fork (i : Nat)
  | drop (i : Nat)
  | access (i : Nat) (request : Memory.Request)
deriving DecidableEq

/-- The answer to a request that succeeds. -/
inductive Reply where
  | created (i : Nat)
  | dropped
  /-- There is no such space, or no longer. -/
  | absent
  | access (reply : Memory.Reply)
deriving DecidableEq

/-- Duplicates space `i`. The child becomes the newest space. -/
def fork (s : Spaces) (i : Nat) : Outcome Spaces Reply :=
  match s.space? i with
  | none => ⟨.ok .absent, s⟩
  | some space =>
    match (Memory.mk space s.pool).fork with
    | ⟨.error e, m⟩ => ⟨.error e, s.put i m⟩
    | ⟨.ok child, m⟩ =>
      let s := s.put i m
      ⟨.ok (.created s.slots.length), { s with slots := s.slots ++ [some child] }⟩

/-- Lets space `i` go, with all its frames. -/
def drop (s : Spaces) (i : Nat) : Reply × Spaces :=
  match s.space? i with
  | none => (.absent, s)
  | some space =>
    (.dropped, { pool := space.releaseFrames s.pool, slots := s.slots.set i none })

def access (s : Spaces) (i : Nat) (request : Memory.Request) : Outcome Spaces Reply :=
  match s.space? i with
  | none => ⟨.ok .absent, s⟩
  | some space =>
    match (Memory.mk space s.pool).serve request with
    | ⟨result, m⟩ => ⟨result.map .access, s.put i m⟩

def serve (s : Spaces) : Request → Outcome Spaces Reply
  | .create size =>
    let (i, s) := s.create size
    ⟨.ok (.created i), s⟩
  | .fork i => s.fork i
  | .drop i =>
    let (reply, s) := s.drop i
    ⟨.ok reply, s⟩
  | .access i request => s.access i request

/-- Serves requests in turn and returns the results in the same order. -/
def serveAll (s : Spaces) : List Request → List (Except KernelError Reply) × Spaces
  | [] => ([], s)
  | request :: rest =>
    match s.serve request with
    | ⟨result, s⟩ =>
      let (results, s) := s.serveAll rest
      (result :: results, s)

end Spaces

end Kernelet
