import Kernelet.Memory.FramePool.Lemmas

/-!
The bytes of a whole frame, and what each operation of the pool does to them.
Only a hand-out, a write and a copy change the bytes of a frame, and each of
these changes one frame alone.
-/

namespace Kernelet.FramePool

/-- What frame `f` holds. -/
def bytesOf (pool : FramePool) (f : FrameId) : PageBytes :=
  Vector.ofFn fun i => pool.byteAt ((FrameId.base f).add i)

theorem getElem_bytesOf (pool : FramePool) (f : FrameId) {i : Nat} (hi : i < pageSize) :
    (pool.bytesOf f)[i] = pool.byteAt ((FrameId.base f).add i) := by
  simp [bytesOf]

theorem bytesOf_ext {pool after : FramePool} {f g : FrameId}
    (h : ∀ i : Fin pageSize,
      after.byteAt ((FrameId.base f).add i) = pool.byteAt ((FrameId.base g).add i)) :
    after.bytesOf f = pool.bytesOf g :=
  congrArg Vector.ofFn (funext h)

theorem bytesOf_allocate {pool after : FramePool} {f : FrameId}
    (h : pool.allocate = .ok (f, after)) (g : FrameId) :
    after.bytesOf g = if f = g then PageBytes.zero else pool.bytesOf g := by
  by_cases hfg : f = g
  · rw [if_pos hfg]
    apply Vector.ext
    intro i hi
    have hbyte := byteAt_allocate h ((FrameId.base g).add i)
    rw [frame_add_base g ⟨i, hi⟩, if_pos hfg] at hbyte
    simpa [bytesOf, PageBytes.zero] using hbyte
  · rw [if_neg hfg]
    apply bytesOf_ext
    intro i
    rw [byteAt_allocate h, frame_add_base, if_neg hfg]

@[simp] theorem bytesOf_free (pool : FramePool) (f g : FrameId) :
    (pool.free f).bytesOf g = pool.bytesOf g :=
  bytesOf_ext fun _ => byteAt_free pool f _

@[simp] theorem bytesOf_freeAll (pool : FramePool) (gone : List FrameId) (g : FrameId) :
    (pool.freeAll gone).bytesOf g = pool.bytesOf g := by
  induction gone generalizing pool with
  | nil => rfl
  | cons f rest ih => exact (ih (pool.free f)).trans (bytesOf_free pool f g)

theorem bytesOf_share {pool after : FramePool} {f : FrameId} (h : pool.share f = .ok after)
    (g : FrameId) : after.bytesOf g = pool.bytesOf g :=
  bytesOf_ext fun _ => byteAt_share h _

theorem bytesOf_copyFrame {pool after : FramePool} {source target : FrameId}
    (h : pool.copyFrame source target = .ok after) (g : FrameId) :
    after.bytesOf g = if target = g then pool.bytesOf source else pool.bytesOf g := by
  by_cases htg : target = g
  · rw [if_pos htg]
    apply bytesOf_ext
    intro i
    rw [byteAt_copyFrame h, frame_add_base, offset_add_base, if_pos htg]
  · rw [if_neg htg]
    apply bytesOf_ext
    intro i
    rw [byteAt_copyFrame h, frame_add_base, if_neg htg]

/-- A byte that is written is one byte of one frame. -/
theorem bytesOf_setByte {pool : FramePool} {a : PhysAddr} (hlt : a.frame < pool.total)
    (byte : UInt8) (g : FrameId) :
    (pool.setByte a byte).bytesOf g =
      if a.frame = g then (pool.bytesOf g).set a.offset byte a.offset.isLt
      else pool.bytesOf g := by
  by_cases hag : a.frame = g
  · rw [if_pos hag]
    apply Vector.ext
    intro i hi
    have hat : a = (FrameId.base g).add i ↔ a.offset.val = i := by
      have hoffset := offset_add_base g ⟨i, hi⟩
      constructor
      · intro heq
        rw [heq]
        exact congrArg Fin.val hoffset
      · intro heq
        apply PhysAddr.ext_frame_offset
        · rw [hag, frame_add_base g ⟨i, hi⟩]
        · rw [hoffset]
          exact Fin.ext heq
    simp only [bytesOf, Vector.getElem_ofFn, Vector.getElem_set, byteAt_setByte, hat]
    simp [hlt]
  · rw [if_neg hag]
    apply bytesOf_ext
    intro i
    rw [byteAt_setByte, if_neg]
    rintro ⟨heq, -⟩
    rw [heq, frame_add_base] at hag
    exact hag rfl

end Kernelet.FramePool
