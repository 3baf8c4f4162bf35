import Kernelet.Memory.Address

/-!
Page flags and page table entries. An entry that is stored is always present
and is never both writable and copy-on-write: `PageFlags.normalized` restores
that rule wherever flags enter a table.
-/

namespace Kernelet

/-- What may be done with a page. -/
structure PageFlags where
  present : Bool := false
  /-- The page may be written directly. -/
  writable : Bool := false
  /-- The page is accessible from user mode. -/
  user : Bool := false
  /-- The page is shared; a write takes a private copy first. -/
  copyOnWrite : Bool := false
deriving DecidableEq, Repr

namespace PageFlags

def userCode : PageFlags :=
  { present := true, user := true }

def userData : PageFlags :=
  { present := true, writable := true, user := true }

/-- The flags as a word: 1 for present, 2 for writable, 4 for user and 8 for
copy-on-write. -/
def toBits (flags : PageFlags) : Nat :=
  flags.present.toNat + 2 * flags.writable.toNat + 4 * flags.user.toNat +
    8 * flags.copyOnWrite.toNat

/-- The flags that a word stands for. Its other digits are dropped. -/
def ofBits (bits : Nat) : PageFlags where
  present := bits.testBit 0
  writable := bits.testBit 1
  user := bits.testBit 2
  copyOnWrite := bits.testBit 3

def contains (flags required : PageFlags) : Bool :=
  (!required.present || flags.present) && (!required.writable || flags.writable) &&
    (!required.user || flags.user) && (!required.copyOnWrite || flags.copyOnWrite)

/-- The flags as a table stores them: present, and not writable where the page
is copy-on-write. -/
def normalized (flags : PageFlags) : PageFlags :=
  { flags with present := true, writable := flags.writable && !flags.copyOnWrite }

/-- The flags of a page that a second space has come to share: a page that
could be written becomes copy-on-write, and any other stays as it is. -/
def shared (flags : PageFlags) : PageFlags :=
  if flags.writable || flags.copyOnWrite then
    { flags with writable := false, copyOnWrite := true }
  else
    flags

/-- The flags of a copy-on-write page once it is private again. -/
def owned (flags : PageFlags) : PageFlags :=
  { flags with writable := true, copyOnWrite := false }

/-- Whether a process may write the page, directly or after taking a copy. -/
def mayWrite (flags : PageFlags) : Bool :=
  flags.writable || flags.copyOnWrite

theorem normalized_present (flags : PageFlags) : flags.normalized.present = true := rfl

theorem not_writable_of_copyOnWrite (flags : PageFlags)
    (h : flags.normalized.copyOnWrite = true) : flags.normalized.writable = false := by
  have hc : flags.copyOnWrite = true := h
  simp [normalized, hc]

end PageFlags

/-- An entry of a page table: the frame behind a page, and what may be done
with the page. -/
structure PageEntry where
  frame : FrameId
  flags : PageFlags
deriving DecidableEq, Repr

namespace PageEntry

def empty : PageEntry :=
  ⟨0, {}⟩

/-- The entry of a page mapped to `frame`. -/
def new (frame : FrameId) (flags : PageFlags) : PageEntry :=
  ⟨frame, flags.normalized⟩

end PageEntry

end Kernelet
