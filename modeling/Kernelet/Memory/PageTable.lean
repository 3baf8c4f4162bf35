import Std.Data.ExtTreeMap
import Kernelet.Error
import Kernelet.Memory.PageEntry

/-!
The page table of one address space: a directory of leaves, each leaf holding
the entries of 1024 consecutive pages. A leaf comes into being with the first
mapping in its range, so that the size of a table is that of what is mapped
and not that of the address space.

Everything that a table answers goes through `PageTable.lookup`, the finite
map from page numbers to present entries. A table is pure data. It never
touches frames or their reference counts.
-/

namespace Kernelet

/-- Entries in a leaf. -/
def leafSize : Nat := 1024

theorem leafSize_pos : 0 < leafSize := by decide

/-- The entries of `leafSize` consecutive pages. -/
abbrev Leaf := Vector PageEntry leafSize

def Leaf.empty : Leaf :=
  Vector.replicate leafSize PageEntry.empty

/-- The place in the directory of the leaf of page `p`. -/
def leafPlace (p : Nat) : Nat :=
  p / leafSize

/-- The position of page `p` within its leaf. -/
def leafIndex (p : Nat) : Fin leafSize :=
  ⟨p % leafSize, Nat.mod_lt _ leafSize_pos⟩

/-- The leaf with `entry` at the position of page `p`. -/
def Leaf.put (leaf : Leaf) (p : Nat) (entry : PageEntry) : Leaf :=
  leaf.set (leafIndex p) entry

structure PageTable where
  /-- The leaves that have come into being, by place. -/
  directory : Std.ExtTreeMap Nat Leaf
  /-- Pages from this number on cannot be mapped. -/
  maxPages : Nat
  mappedCount : Nat

namespace PageTable

def new (maxPages : Nat) : PageTable where
  directory := ∅
  maxPages := maxPages
  mappedCount := 0

/-- A table for an address space of `size` bytes. -/
def ofSize (size : Nat) : PageTable :=
  new (size / pageSize)

/-- The leaf at place `d`. One that has not come into being is empty. -/
def leaf (table : PageTable) (d : Nat) : Leaf :=
  table.directory[d]?.getD Leaf.empty

/-- What is stored for page `p`, be it mapped or not. -/
def slot (table : PageTable) (p : Nat) : PageEntry :=
  (table.leaf (leafPlace p))[leafIndex p]

/-- The table with `entry` stored for page `p`. -/
def store (table : PageTable) (p : Nat) (entry : PageEntry) : PageTable :=
  { table with
    directory := table.directory.insert (leafPlace p) ((table.leaf (leafPlace p)).put p entry) }

/-- The entry of page `p`, if the page is mapped. -/
def lookup (table : PageTable) (p : Nat) : Option PageEntry :=
  if (table.slot p).flags.present then some (table.slot p) else none

def isMapped (table : PageTable) (p : Nat) : Bool :=
  (table.lookup p).isSome

def frame? (table : PageTable) (p : Nat) : Option FrameId :=
  (table.lookup p).map PageEntry.frame

def flags? (table : PageTable) (p : Nat) : Option PageFlags :=
  (table.lookup p).map PageEntry.flags

/-- Whether page `p` is mapped with every flag of `required`. -/
def permits (table : PageTable) (p : Nat) (required : PageFlags) : Bool :=
  match table.flags? p with
  | some flags => flags.contains required
  | none => false

/-- Maps page `p` to `frame`, in place of any earlier mapping. -/
def map (table : PageTable) (p : Nat) (frame : FrameId) (flags : PageFlags) :
    Except KernelError PageTable :=
  if p < table.maxPages then
    let count := if table.isMapped p then table.mappedCount else table.mappedCount + 1
    .ok { table.store p (PageEntry.new frame flags) with mappedCount := count }
  else
    .error (.addressOutOfRange (VirtAddr.ofPage p))

/-- Removes the mapping of page `p`, if there is one, and returns it. -/
def unmap (table : PageTable) (p : Nat) : Option PageEntry × PageTable :=
  match table.lookup p with
  | some entry =>
    (some entry,
      { table.store p PageEntry.empty with mappedCount := table.mappedCount - 1 })
  | none => (none, table)

/-- Replaces the flags of page `p` and tells whether it is mapped at all. -/
def setFlags (table : PageTable) (p : Nat) (flags : PageFlags) : Bool × PageTable :=
  match table.lookup p with
  | some entry => (true, table.store p { entry with flags := flags.normalized })
  | none => (false, table)

def translate (table : PageTable) (a : VirtAddr) : Option PhysAddr :=
  (table.frame? a.page).map fun frame => (FrameId.base frame).add a.offset

/-- The mapped pages of the leaf at place `d`, in ascending order. -/
def leafEntries (table : PageTable) (d : Nat) : List (Nat × PageEntry) :=
  (List.range leafSize).filterMap fun i =>
    let p := d * leafSize + i
    (table.lookup p).map fun entry => (p, entry)

/-- The mapped pages with their entries, in ascending order of page number. -/
def entries (table : PageTable) : List (Nat × PageEntry) :=
  table.directory.keys.flatMap table.leafEntries

def clear (table : PageTable) : PageTable :=
  { table with
    directory := ∅
    mappedCount := 0 }

/-- The frames behind the mapped pages, in order of page number. -/
def frames (table : PageTable) : List FrameId :=
  table.entries.map fun (_, entry) => entry.frame

end PageTable

end Kernelet
