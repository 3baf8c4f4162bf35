import Kernelet.Error

/-!
Physical memory: an array of frames, each with its bytes and the number of
references to it. A frame is free exactly when that number is zero. Frames are
handed out first fit and zeroed as they are handed out, so that a reader never
meets what a former owner left.

The number of free frames is kept beside the array and moves with the counts.
-/

namespace Kernelet

/-- The bytes of one frame. -/
abbrev PageBytes := Vector UInt8 pageSize

def PageBytes.zero : PageBytes :=
  Vector.replicate pageSize 0

structure Frame where
  /-- How many owners refer to the frame. -/
  refs : Nat
  bytes : PageBytes

structure FramePool where
  frames : Array Frame
  /-- How many frames have no owner. -/
  freeCount : Nat

namespace FramePool

/-- Zeroed memory of `total` frames, of which the first `reserved` belong to
the kernel for ever. -/
def new (total reserved : Nat) : FramePool :=
  let kept := min reserved total
  { frames := Array.replicate kept ⟨1, PageBytes.zero⟩ ++
      Array.replicate (total - kept) ⟨0, PageBytes.zero⟩
    freeCount := total - kept }

def total (pool : FramePool) : Nat :=
  pool.frames.size

def byteSize (pool : FramePool) : Nat :=
  pool.total * pageSize

/-- The number of frames in use. A shared frame counts once. -/
def usedCount (pool : FramePool) : Nat :=
  pool.total - pool.freeCount

/-- How many owners refer to frame `f`: none if it is free or does not exist. -/
def refCount (pool : FramePool) (f : FrameId) : Nat :=
  match pool.frames[f]? with
  | some frame => frame.refs
  | none => 0

def isAllocated (pool : FramePool) (f : FrameId) : Bool :=
  0 < pool.refCount f

/-- Hands out the lowest free frame, zeroed and with one reference. -/
def allocate (pool : FramePool) : Except KernelError (FrameId × FramePool) :=
  match pool.frames.findIdx? (fun frame => frame.refs == 0) with
  | none => .error .outOfMemory
  | some f =>
    .ok (f,
      { frames := pool.frames.setIfInBounds f ⟨1, PageBytes.zero⟩
        freeCount := pool.freeCount - 1 })

/-- Drops one reference to frame `f`, which is free again once none is left.
A frame that is free already or does not exist is left alone. -/
def free (pool : FramePool) (f : FrameId) : FramePool :=
  match pool.refCount f with
  | 0 => pool
  | refs + 1 =>
    { frames := pool.frames.modify f (fun frame => { frame with refs := refs })
      freeCount := if refs = 0 then pool.freeCount + 1 else pool.freeCount }

/-- Adds a reference to a frame that is in use. -/
def share (pool : FramePool) (f : FrameId) : Except KernelError FramePool :=
  match pool.refCount f with
  | 0 => .error (.frameNotAllocated f)
  | refs + 1 =>
    .ok { pool with
      frames := pool.frames.modify f (fun frame => { frame with refs := refs + 2 }) }

/-- The byte at `a`; zero beyond the end of memory, which callers rule out. -/
def byteAt (pool : FramePool) (a : PhysAddr) : UInt8 :=
  match pool.frames[a.frame]? with
  | some frame => frame.bytes[a.offset]
  | none => 0

def setByte (pool : FramePool) (a : PhysAddr) (byte : UInt8) : FramePool :=
  { pool with
    frames := pool.frames.modify a.frame fun frame =>
      { frame with bytes := frame.bytes.set a.offset byte } }

def setBytes (pool : FramePool) (a : PhysAddr) : List UInt8 → FramePool
  | [] => pool
  | byte :: rest => (pool.setByte a byte).setBytes (a.add 1) rest

/-- Whether `length` bytes from `a` on all lie in memory. An empty range may
also start at the very end. -/
def inRange (pool : FramePool) (a : PhysAddr) (length : Nat) : Bool :=
  a.toNat + length ≤ pool.byteSize

/-- Reads `length` bytes from `a` on. -/
def readRange (pool : FramePool) (a : PhysAddr) (length : Nat) :
    Except KernelError (List UInt8) :=
  if pool.inRange a length then
    .ok ((List.range length).map fun i => pool.byteAt (a.add i))
  else
    .error (.hostFault a)

/-- Writes `bytes` from `a` on, or nothing at all. -/
def writeRange (pool : FramePool) (a : PhysAddr) (bytes : List UInt8) :
    Except KernelError FramePool :=
  if pool.inRange a bytes.length then .ok (pool.setBytes a bytes) else .error (.hostFault a)

def readByte (pool : FramePool) (a : PhysAddr) : Except KernelError UInt8 :=
  if pool.inRange a 1 then .ok (pool.byteAt a) else .error (.hostFault a)

def writeByte (pool : FramePool) (a : PhysAddr) (byte : UInt8) :
    Except KernelError FramePool :=
  if pool.inRange a 1 then .ok (pool.setByte a byte) else .error (.hostFault a)

/-- Copies the bytes of frame `source` into frame `target`. -/
def copyFrame (pool : FramePool) (source target : FrameId) : Except KernelError FramePool :=
  if pool.inRange source.base pageSize then
    if pool.inRange target.base pageSize then
      match pool.frames[source]? with
      | some frame =>
        .ok { pool with
          frames := pool.frames.modify target fun old => { old with bytes := frame.bytes } }
      | none => .error (.hostFault source.base)
    else
      .error (.hostFault target.base)
  else
    .error (.hostFault source.base)

/-- Drops one reference to each frame of a list. -/
def freeAll (pool : FramePool) (frames : List FrameId) : FramePool :=
  frames.foldl free pool

end FramePool

structure MemoryStats where
  totalFrames : Nat
  freeFrames : Nat
  usedFrames : Nat
  usedBytes : Nat
  freeBytes : Nat
deriving DecidableEq, Repr

def FramePool.stats (pool : FramePool) : MemoryStats where
  totalFrames := pool.total
  freeFrames := pool.freeCount
  usedFrames := pool.usedCount
  usedBytes := pool.usedCount * pageSize
  freeBytes := pool.freeCount * pageSize

def MemoryStats.text (stats : MemoryStats) : String :=
  toString stats.usedFrames ++ "/" ++ toString stats.totalFrames ++ " frames used, " ++
    toString (stats.freeBytes / 1024) ++ " KB free"

end Kernelet
