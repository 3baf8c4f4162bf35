import Kernelet.Memory.FramePool
import Kernelet.Memory.PageTable

/-!
The address space of one process: its page table, the bounds of its segments,
and the end of its heap.

```text
size        +------------------+
            |  guard page      |
stackTop    +------------------+
            |  stack, growing  |
            |  down            |
            |                  |
            |  heap, growing   |
            |  up to brk       |
dataEnd     +------------------+
            |  data            |
dataStart   +------------------+
            |  code            |
codeStart   +------------------+
```

A space does not own physical memory. `Memory` pairs it with the pool that
backs it, and the operations that touch frames are operations on that pair.
-/

namespace Kernelet

/-- The address space of one process. -/
structure AddressSpace where
  table : PageTable
  size : Nat
  codeStart : Nat
  codeEnd : Nat
  dataStart : Nat
  dataEnd : Nat
  /-- The end of the heap. -/
  brk : Nat
  /-- The end of the stack, one guard page below the end of the space. -/
  stackTop : Nat

/-- The segment that an address belongs to. -/
inductive RegionKind where
  | code
  | data
  /-- From the end of the data up to `brk`. -/
  | heap
  /-- A mapped page between `brk` and the top of the stack. -/
  | stack
deriving DecidableEq, Repr

namespace AddressSpace

def new (size : Nat) : AddressSpace where
  table := PageTable.ofSize size
  size := size
  codeStart := 0
  codeEnd := 0
  dataStart := 0
  dataEnd := 0
  brk := 0
  stackTop := size - pageSize

def default : AddressSpace :=
  new defaultTaskSize

def mappedPages (space : AddressSpace) : Nat :=
  space.table.mappedCount

/-- Sets the bounds of the code segment. -/
def setCode (space : AddressSpace) (start stop : Nat) : AddressSpace :=
  { space with codeStart := start, codeEnd := stop }

/-- Sets the bounds of the data segment. The heap starts over at its end. -/
def setData (space : AddressSpace) (start stop : Nat) : AddressSpace :=
  { space with dataStart := start, dataEnd := stop, brk := stop }

/-- The segment that address `a` belongs to. Where segments overlap, code goes
before data, data before heap, and heap before stack. -/
def regionKind? (space : AddressSpace) (a : VirtAddr) : Option RegionKind :=
  let within (start stop : Nat) : Bool := start ≤ a.toNat && a.toNat < stop
  if within space.codeStart space.codeEnd then some .code
  else if within space.dataStart space.dataEnd then some .data
  else if within space.dataEnd space.brk then some .heap
  else if within space.brk space.stackTop && space.table.isMapped a.page then some .stack
  else none

/-- The pool once the space has given back every frame that it refers to. -/
def releaseFrames (space : AddressSpace) (pool : FramePool) : FramePool :=
  pool.freeAll space.table.frames

end AddressSpace

/-- An address space together with the physical memory that backs it. -/
structure Memory where
  space : AddressSpace
  pool : FramePool

end Kernelet
