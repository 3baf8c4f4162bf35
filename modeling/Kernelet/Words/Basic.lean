import Kernelet.Config.Basic
import Kernelet.Memory.FramePool
import Kernelet.Memory.PageTable

/-!
Memory whose sizes and addresses are 64-bit words. The operations are those of the machine,
except that a calculation whose result no word can hold, or that divides by zero, stops the
machine: the answer is then `none`. What an operation does apart from its calculations is not
said twice; it is taken from the operation itself.

The calculations are those that are written out with `Word` here and in the modules on top of
this one: of sizes and addresses, of what is left when a frame is taken or a page is unmapped,
and of the length of a tick. One more on a count, of references, ticks, selections or numbers of
processes, is not among them.
-/

namespace Kernelet

namespace Word

def add? (a b : Nat) : Option Nat :=
  if a + b < UInt64.size then some (a + b) else none

def mul? (a b : Nat) : Option Nat :=
  if a * b < UInt64.size then some (a * b) else none

def sub? (a b : Nat) : Option Nat :=
  if b ≤ a then some (a - b) else none

def div? (a b : Nat) : Option Nat :=
  if b = 0 then none else some (a / b)

end Word

/-- The address of the first byte of a frame. -/
def FrameId.base? (f : FrameId) : Option PhysAddr :=
  (Word.mul? f pageSize).map PhysAddr.mk

/-- Milliseconds in a timer tick. -/
def Config.tickMs? (config : Config) : Option Nat :=
  Word.div? 1000 config.hz.toNat

namespace FramePool

/-- Memory of `total` frames takes an array of that many pages of bytes. -/
def new? (total reserved : Nat) : Option FramePool := do
  let _ ← Word.mul? total pageSize
  let freeCount ← Word.sub? total (min reserved total)
  pure { new total reserved with freeCount }

/-- One frame less is free, and the bytes of the frame are zeroed from its base on. -/
def allocate? (pool : FramePool) : Option (Except KernelError (FrameId × FramePool)) :=
  match pool.allocate with
  | .error e => some (.error e)
  | .ok (f, after) => do
    let freeCount ← Word.sub? pool.freeCount 1
    let _ ← f.base?
    pure (.ok (f, { after with freeCount }))

/-- The base of the target is worked out once the source is known to lie in memory. -/
def copyFrame? (pool : FramePool) (source target : FrameId) :
    Option (Except KernelError FramePool) := do
  let start ← source.base?
  if pool.inRange start pageSize then
    let _ ← target.base?
    pure (pool.copyFrame source target)
  else
    pure (.error (.hostFault start))

def stats? (pool : FramePool) : Option MemoryStats := do
  let usedFrames ← Word.sub? pool.total pool.freeCount
  let usedBytes ← Word.mul? usedFrames pageSize
  let freeBytes ← Word.mul? pool.freeCount pageSize
  pure { totalFrames := pool.total, freeFrames := pool.freeCount, usedFrames, usedBytes, freeBytes }

end FramePool

namespace PageTable

/-- The entry that is removed is one entry less. -/
def unmap? (table : PageTable) (p : Nat) : Option (Option PageEntry × PageTable) :=
  match table.unmap p with
  | (none, after) => some (none, after)
  | (some entry, after) => do
    let mappedCount ← Word.sub? table.mappedCount 1
    pure (some entry, { after with mappedCount })

def translate? (table : PageTable) (a : VirtAddr) : Option (Option PhysAddr) :=
  match table.frame? a.page with
  | none => some none
  | some f => do
    let start ← f.base?
    let address ← Word.add? start.toNat a.offset
    pure (some ⟨address⟩)

end PageTable

end Kernelet
