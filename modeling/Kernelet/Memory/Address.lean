import Kernelet.Limits
import Kernelet.Text.Hex

/-!
Virtual and physical addresses. A virtual address is a 64-bit word: stepping
past the top is either refused (`add?`, `alignUp?`) or wraps (`ofPage`,
`wrappingAdd`), and each operation says which. A physical address is a
position in memory, and whether memory reaches that far is the frame pool's
business.
-/

namespace Kernelet

/-- A position in an address space, one of 2^64. -/
structure VirtAddr where
  toNat : Nat
  isLt : toNat < UInt64.size
deriving DecidableEq

/-- A position in physical memory. -/
structure PhysAddr where
  toNat : Nat
deriving DecidableEq

/-- The number of a physical frame. -/
abbrev FrameId := Nat

/-- The address of the first byte of a frame. -/
def FrameId.base (f : FrameId) : PhysAddr :=
  ⟨f * pageSize⟩

/-- How a frame is named to people. -/
def FrameId.text (f : FrameId) : String :=
  "#" ++ toString f

namespace PhysAddr

def frame (a : PhysAddr) : FrameId :=
  a.toNat / pageSize

def offset (a : PhysAddr) : Fin pageSize :=
  ⟨a.toNat % pageSize, Nat.mod_lt _ pageSize_pos⟩

/-- The address `n` bytes further on. -/
def add (a : PhysAddr) (n : Nat) : PhysAddr :=
  ⟨a.toNat + n⟩

end PhysAddr

namespace VirtAddr

/-- The address whose value is `n` taken modulo 2^64. -/
def wrap (n : Nat) : VirtAddr :=
  ⟨n % UInt64.size, Nat.mod_lt _ (by decide)⟩

/-- The address whose value is `n`, if there is one. -/
def ofNat? (n : Nat) : Option VirtAddr :=
  if h : n < UInt64.size then some ⟨n, h⟩ else none

/-- The first address of virtual page `p`. The high digits of a page number
beyond the top of the address range are lost. -/
def ofPage (p : Nat) : VirtAddr :=
  wrap (p * pageSize)

def page (a : VirtAddr) : Nat :=
  a.toNat / pageSize

def offset (a : VirtAddr) : Nat :=
  a.toNat % pageSize

theorem offset_lt (a : VirtAddr) : a.offset < pageSize :=
  Nat.mod_lt _ pageSize_pos

/-- The first address of the page. -/
def alignDown (a : VirtAddr) : VirtAddr :=
  ⟨a.toNat - a.offset, Nat.lt_of_le_of_lt (Nat.sub_le _ _) a.isLt⟩

/-- The first page boundary at or after the address, unless that lies past
the top of the address range. -/
def alignUp? (a : VirtAddr) : Option VirtAddr :=
  (ofNat? (a.toNat + (pageSize - 1))).map alignDown

def isAligned (a : VirtAddr) : Bool :=
  a.offset == 0

/-- The address `n` bytes further on, unless that wraps. -/
def add? (a : VirtAddr) (n : Nat) : Option VirtAddr :=
  ofNat? (a.toNat + n)

/-- The address `n` bytes further on, starting again from 0 past the top. -/
def wrappingAdd (a : VirtAddr) (n : Nat) : VirtAddr :=
  wrap (a.toNat + n)

def text (a : VirtAddr) : String :=
  Text.hexAddress a.toNat

@[ext] theorem ext {a b : VirtAddr} (h : a.toNat = b.toNat) : a = b := by
  cases a
  cases b
  cases h
  rfl

@[simp] theorem toNat_wrap (n : Nat) : (wrap n).toNat = n % UInt64.size := rfl

theorem ofNat?_eq_some {n : Nat} {a : VirtAddr} : ofNat? n = some a ↔ a.toNat = n := by
  unfold ofNat?
  constructor
  · intro h
    split at h
    · cases h
      rfl
    · cases h
  · intro h
    have hlt : n < UInt64.size := h ▸ a.isLt
    rw [dif_pos hlt]
    exact congrArg some (ext h.symm)

theorem ofNat?_eq_none {n : Nat} : ofNat? n = none ↔ UInt64.size ≤ n := by
  unfold ofNat?
  by_cases h : n < UInt64.size
  · rw [dif_pos h]
    constructor
    · intro hsome
      cases hsome
    · intro hle
      exact absurd h (Nat.not_lt_of_le hle)
  · rw [dif_neg h]
    exact ⟨fun _ => Nat.le_of_not_lt h, fun _ => rfl⟩

/-- An address is its page boundary and its offset. -/
theorem page_mul_add_offset (a : VirtAddr) : a.page * pageSize + a.offset = a.toNat :=
  Nat.div_add_mod' a.toNat pageSize

end VirtAddr

end Kernelet
