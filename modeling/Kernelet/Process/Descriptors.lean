import Kernelet.Limits

/-!
The descriptors of a task: a fixed number of slots, each empty or holding a
handle of the file layer. What a handle means is not known here.
-/

namespace Kernelet

/-- An open file, named by the file layer. -/
abbrev FileHandle := Nat

/-- The descriptor slots of a task. -/
abbrev Descriptors := Vector (Option FileHandle) descriptorSlots

namespace Descriptors

def empty : Descriptors :=
  Vector.replicate descriptorSlots none

/-- Puts a handle into the lowest empty slot and returns its number. -/
def install (d : Descriptors) (handle : FileHandle) : Option Nat × Descriptors :=
  match d.toList.findIdx? Option.isNone with
  | none => (none, d)
  | some fd => (some fd, d.setIfInBounds fd (some handle))

/-- The handle in slot `fd`. -/
def handle? (d : Descriptors) (fd : Nat) : Option FileHandle :=
  (d[fd]?).join

/-- Empties slot `fd` and returns what it held. -/
def close (d : Descriptors) (fd : Nat) : Option FileHandle × Descriptors :=
  (d.handle? fd, d.setIfInBounds fd none)

/-- Empties every slot from `first` on. -/
def closeFrom (d : Descriptors) (first : Nat) : Descriptors :=
  d.mapIdx fun fd handle => if first ≤ fd then none else handle

def closeAll (d : Descriptors) : Descriptors :=
  d.closeFrom 0

def openCount (d : Descriptors) : Nat :=
  d.toList.countP Option.isSome

end Descriptors

end Kernelet
