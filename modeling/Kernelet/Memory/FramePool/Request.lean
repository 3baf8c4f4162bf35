import Kernelet.Memory.FramePool

/-!
What may be asked of a frame pool, as data. A history of a pool is a list of
these requests. Nothing is asked of the frames they name: a request may free a
frame twice, or share one that does not exist.
-/

namespace Kernelet.FramePool

/-- A request to a frame pool. -/
inductive Request where
  | allocate
  | free (f : FrameId)
  | share (f : FrameId)
  | copyFrame (source target : FrameId)
  | writeRange (a : PhysAddr) (bytes : List UInt8)
deriving DecidableEq

/-- The answer to a request that succeeds. -/
inductive Reply where
  | done
  /-- The frame that was handed out. -/
  | frame (f : FrameId)
deriving DecidableEq

/-- An operation that fails leaves the pool alone. -/
def commit (pool : FramePool) : Except KernelError FramePool → Outcome FramePool Reply
  | .ok after => ⟨.ok .done, after⟩
  | .error e => ⟨.error e, pool⟩

def serve (pool : FramePool) : Request → Outcome FramePool Reply
  | .allocate =>
    match pool.allocate with
    | .ok (f, after) => ⟨.ok (.frame f), after⟩
    | .error e => ⟨.error e, pool⟩
  | .free f => ⟨.ok .done, pool.free f⟩
  | .share f => pool.commit (pool.share f)
  | .copyFrame source target => pool.commit (pool.copyFrame source target)
  | .writeRange a bytes => pool.commit (pool.writeRange a bytes)

/-- The pool after requests that were served in turn. -/
def serveAll (pool : FramePool) (requests : List Request) : FramePool :=
  requests.foldl (fun pool request => (pool.serve request).state) pool

end Kernelet.FramePool
