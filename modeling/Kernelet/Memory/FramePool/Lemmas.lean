import Kernelet.Memory.FramePool

/-!
What the operations of the frame pool do to the two things that can be seen of
it: the number of references to each frame, and the byte at each address. An
allocation finds the lowest free frame (`first_free_of_allocate`), and
`allocate`, `free` and `share` change the count of one frame; only a hand-out,
a write and a copy change bytes.
-/

namespace Kernelet

/-- An address is determined by its frame and its offset there. -/
theorem PhysAddr.frame_mul_add_offset (a : PhysAddr) :
    a.frame * pageSize + a.offset.val = a.toNat :=
  Nat.div_add_mod' a.toNat pageSize

theorem PhysAddr.ext_frame_offset {a b : PhysAddr} (hframe : a.frame = b.frame)
    (hoffset : a.offset = b.offset) : a = b := by
  have h : a.toNat = b.toNat := by
    rw [← a.frame_mul_add_offset, hframe, hoffset, b.frame_mul_add_offset]
  cases a
  cases b
  cases h
  rfl

namespace FramePool

theorem refCount_of_lt {pool : FramePool} {f : FrameId} (h : f < pool.frames.size) :
    pool.refCount f = pool.frames[f].refs := by
  unfold refCount
  rw [Array.getElem?_eq_getElem h]

theorem refCount_of_total_le {pool : FramePool} {f : FrameId} (h : pool.total ≤ f) :
    pool.refCount f = 0 := by
  unfold refCount
  rw [Array.getElem?_eq_none h]

theorem lt_total_of_refCount_ne_zero {pool : FramePool} {f : FrameId}
    (h : pool.refCount f ≠ 0) : f < pool.total :=
  Nat.lt_of_not_le fun hle => h (refCount_of_total_le hle)

@[simp] theorem total_new (total reserved : Nat) : (new total reserved).total = total := by
  simp only [FramePool.total, new, Array.size_append, Array.size_replicate]
  omega

/-- At the start exactly the kernel's frames are in use. -/
theorem refCount_new (total reserved : Nat) (f : FrameId) :
    (new total reserved).refCount f = if f < min reserved total then 1 else 0 := by
  simp only [refCount, new, Array.getElem?_append, Array.size_replicate,
    Array.getElem?_replicate]
  by_cases hkept : f < min reserved total
  · simp only [if_pos hkept]
  · simp only [if_neg hkept]
    by_cases hrest : f - min reserved total < total - min reserved total
    · simp only [if_pos hrest]
    · simp only [if_neg hrest]

@[simp] theorem freeCount_new (total reserved : Nat) :
    (new total reserved).freeCount = total - min reserved total := rfl

/-! ### Handing out -/

/-- The frame that is handed out is the lowest one without an owner. -/
theorem first_free_of_allocate {pool after : FramePool} {f : FrameId}
    (h : pool.allocate = .ok (f, after)) :
    f < pool.total ∧ pool.refCount f = 0 ∧ ∀ g, g < f → pool.refCount g ≠ 0 := by
  unfold allocate at h
  split at h
  · cases h
  · rename_i found hfound
    cases h
    obtain ⟨hlt, hfree, hbelow⟩ := Array.findIdx?_eq_some_iff_getElem.1 hfound
    refine ⟨hlt, (refCount_of_lt hlt).trans (beq_iff_eq.1 hfree), ?_⟩
    intro g hg hzero
    rw [refCount_of_lt (Nat.lt_trans hg hlt)] at hzero
    exact hbelow g hg (beq_iff_eq.2 hzero)

/-- No frame can be handed out exactly when all have owners. -/
theorem allocate_eq_error_iff {pool : FramePool} {e : KernelError} :
    pool.allocate = .error e ↔
      e = .outOfMemory ∧ ∀ f, f < pool.total → pool.refCount f ≠ 0 := by
  unfold allocate
  split
  · rename_i hnone
    rw [Array.findIdx?_eq_none_iff] at hnone
    constructor
    · intro h
      cases h
      refine ⟨rfl, fun f hf => ?_⟩
      rw [refCount_of_lt hf]
      exact beq_eq_false_iff_ne.1 (hnone _ (Array.getElem_mem hf))
    · rintro ⟨rfl, -⟩
      rfl
  · rename_i f hfound
    constructor
    · intro h
      cases h
    · rintro ⟨-, hbusy⟩
      obtain ⟨hlt, hfree, -⟩ := Array.findIdx?_eq_some_iff_getElem.1 hfound
      exact absurd ((refCount_of_lt hlt).trans (beq_iff_eq.1 hfree)) (hbusy f hlt)

theorem allocate_eq_ok {pool after : FramePool} {f : FrameId}
    (h : pool.allocate = .ok (f, after)) :
    after =
      { frames := pool.frames.setIfInBounds f ⟨1, PageBytes.zero⟩
        freeCount := pool.freeCount - 1 } := by
  unfold allocate at h
  split at h
  · cases h
  · cases h
    rfl

theorem total_allocate {pool after : FramePool} {f : FrameId}
    (h : pool.allocate = .ok (f, after)) : after.total = pool.total := by
  rw [allocate_eq_ok h]
  exact Array.size_setIfInBounds

theorem freeCount_allocate {pool after : FramePool} {f : FrameId}
    (h : pool.allocate = .ok (f, after)) : after.freeCount = pool.freeCount - 1 := by
  rw [allocate_eq_ok h]

theorem refCount_allocate {pool after : FramePool} {f : FrameId}
    (h : pool.allocate = .ok (f, after)) (g : FrameId) :
    after.refCount g = if f = g then 1 else pool.refCount g := by
  have hlt := (first_free_of_allocate h).1
  rw [allocate_eq_ok h]
  unfold refCount
  by_cases hfg : f = g
  · subst hfg
    rw [if_pos rfl, Array.getElem?_setIfInBounds_self_of_lt hlt]
  · rw [if_neg hfg, Array.getElem?_setIfInBounds_ne hfg]

/-- The frame that is handed out reads as zeros, whatever it held before. -/
theorem byteAt_allocate {pool after : FramePool} {f : FrameId}
    (h : pool.allocate = .ok (f, after)) (a : PhysAddr) :
    after.byteAt a = if f = a.frame then 0 else pool.byteAt a := by
  have hlt := (first_free_of_allocate h).1
  rw [allocate_eq_ok h]
  unfold byteAt
  by_cases hfa : f = a.frame
  · subst hfa
    rw [if_pos rfl, Array.getElem?_setIfInBounds_self_of_lt hlt]
    exact Vector.getElem_replicate _
  · rw [if_neg hfa, Array.getElem?_setIfInBounds_ne hfa]

/-! ### Counting references -/

theorem refCount_modify (pool : FramePool) (f g : FrameId) (refs count : Nat)
    (h : pool.refCount f ≠ 0) :
    (FramePool.mk (pool.frames.modify f fun frame => { frame with refs := refs }) count).refCount
        g = if f = g then refs else pool.refCount g := by
  have hlt : f < pool.frames.size := lt_total_of_refCount_ne_zero h
  unfold refCount
  rw [Array.getElem?_modify]
  by_cases hfg : f = g
  · subst hfg
    rw [if_pos rfl, if_pos rfl, Array.getElem?_eq_getElem hlt]
    rfl
  · rw [if_neg hfg, if_neg hfg]

theorem byteAt_modify (pool : FramePool) (f : FrameId) (refs count : Nat) (a : PhysAddr) :
    (FramePool.mk (pool.frames.modify f fun frame => { frame with refs := refs }) count).byteAt
        a = pool.byteAt a := by
  unfold byteAt
  rw [Array.getElem?_modify]
  by_cases hfa : f = a.frame
  · rw [if_pos hfa]
    cases pool.frames[a.frame]? with
    | none => rfl
    | some frame => rfl
  · rw [if_neg hfa]

theorem refCount_free (pool : FramePool) (f g : FrameId) :
    (pool.free f).refCount g = if f = g then pool.refCount g - 1 else pool.refCount g := by
  unfold free
  split
  · rename_i hzero
    split
    · rename_i hfg
      rw [← hfg, hzero]
    · rfl
  · rename_i refs hrefs
    rw [refCount_modify _ _ _ _ _ (by rw [hrefs]; exact Nat.succ_ne_zero refs)]
    split
    · rename_i hfg
      rw [← hfg, hrefs]
      rfl
    · rfl

@[simp] theorem byteAt_free (pool : FramePool) (f : FrameId) (a : PhysAddr) :
    (pool.free f).byteAt a = pool.byteAt a := by
  unfold free
  split
  · rfl
  · exact byteAt_modify pool f _ _ a

@[simp] theorem total_free (pool : FramePool) (f : FrameId) :
    (pool.free f).total = pool.total := by
  unfold free
  split
  · rfl
  · exact Array.size_modify

/-- The count of free frames grows when the last reference goes. -/
theorem freeCount_free (pool : FramePool) (f : FrameId) :
    (pool.free f).freeCount =
      if pool.refCount f = 1 then pool.freeCount + 1 else pool.freeCount := by
  unfold free
  split
  · rename_i hzero
    rw [hzero]
    rfl
  · rename_i refs hrefs
    simp only [hrefs, Nat.succ.injEq]

/-- A frame can be shared exactly when it is in use. -/
theorem share_eq_error_iff {pool : FramePool} {f : FrameId} {e : KernelError} :
    pool.share f = .error e ↔ e = .frameNotAllocated f ∧ pool.refCount f = 0 := by
  unfold share
  split
  · rename_i hzero
    constructor
    · intro h
      cases h
      exact ⟨rfl, hzero⟩
    · rintro ⟨rfl, -⟩
      rfl
  · rename_i refs hrefs
    constructor
    · intro h
      cases h
    · rintro ⟨-, hzero⟩
      rw [hzero] at hrefs
      cases hrefs

theorem refCount_share {pool after : FramePool} {f : FrameId} (h : pool.share f = .ok after)
    (g : FrameId) :
    after.refCount g = if f = g then pool.refCount g + 1 else pool.refCount g := by
  unfold share at h
  split at h
  · cases h
  · rename_i refs hrefs
    cases h
    rw [refCount_modify _ _ _ _ _ (by rw [hrefs]; exact Nat.succ_ne_zero refs)]
    split
    · rename_i hfg
      rw [← hfg, hrefs]
    · rfl

theorem byteAt_share {pool after : FramePool} {f : FrameId} (h : pool.share f = .ok after)
    (a : PhysAddr) : after.byteAt a = pool.byteAt a := by
  unfold share at h
  split at h
  · cases h
  · cases h
    exact byteAt_modify pool f _ _ a

theorem freeCount_share {pool after : FramePool} {f : FrameId} (h : pool.share f = .ok after) :
    after.freeCount = pool.freeCount := by
  unfold share at h
  split at h
  · cases h
  · cases h
    rfl

theorem total_share {pool after : FramePool} {f : FrameId} (h : pool.share f = .ok after) :
    after.total = pool.total := by
  unfold share at h
  split at h
  · cases h
  · cases h
    exact Array.size_modify

/-! ### Bytes -/

/-- A byte that is written is read back, and every other byte stays. -/
theorem byteAt_setByte (pool : FramePool) (a b : PhysAddr) (byte : UInt8) :
    (pool.setByte a byte).byteAt b =
      if a = b ∧ a.frame < pool.total then byte else pool.byteAt b := by
  unfold setByte byteAt
  rw [Array.getElem?_modify]
  by_cases hframe : a.frame = b.frame
  · rw [if_pos hframe]
    by_cases hlt : a.frame < pool.total
    · have hlt' : b.frame < pool.frames.size := hframe ▸ hlt
      rw [Array.getElem?_eq_getElem hlt']
      simp only [Option.map_some, Fin.getElem_fin, Vector.getElem_set]
      by_cases hoffset : a.offset = b.offset
      · have hab : a = b := PhysAddr.ext_frame_offset hframe hoffset
        rw [if_pos (congrArg Fin.val hoffset), if_pos ⟨hab, hlt⟩]
      · have hab : a ≠ b := fun h => hoffset (congrArg PhysAddr.offset h)
        rw [if_neg (fun h => hoffset (Fin.ext h)), if_neg (fun h => hab h.1)]
    · have hle : pool.frames.size ≤ b.frame := hframe ▸ Nat.le_of_not_lt hlt
      rw [Array.getElem?_eq_none hle, if_neg (fun h => hlt h.2)]
      rfl
  · have hab : a ≠ b := fun h => hframe (congrArg PhysAddr.frame h)
    rw [if_neg hframe, if_neg (fun h => hab h.1)]

@[simp] theorem refCount_setByte (pool : FramePool) (a : PhysAddr) (byte : UInt8) (f : FrameId) :
    (pool.setByte a byte).refCount f = pool.refCount f := by
  unfold setByte refCount
  rw [Array.getElem?_modify]
  by_cases hframe : a.frame = f
  · rw [if_pos hframe]
    cases pool.frames[f]? with
    | none => rfl
    | some frame => rfl
  · rw [if_neg hframe]

@[simp] theorem total_setByte (pool : FramePool) (a : PhysAddr) (byte : UInt8) :
    (pool.setByte a byte).total = pool.total :=
  Array.size_modify

@[simp] theorem freeCount_setByte (pool : FramePool) (a : PhysAddr) (byte : UInt8) :
    (pool.setByte a byte).freeCount = pool.freeCount := rfl

theorem frame_add_base (f : FrameId) (i : Fin pageSize) : ((FrameId.base f).add i).frame = f := by
  show (f * pageSize + i.val) / pageSize = f
  rw [Nat.mul_comm, Nat.mul_add_div pageSize_pos, Nat.div_eq_of_lt i.isLt, Nat.add_zero]

theorem offset_add_base (f : FrameId) (i : Fin pageSize) :
    ((FrameId.base f).add i).offset = i := by
  refine Fin.ext ?_
  show (f * pageSize + i.val) % pageSize = i.val
  rw [Nat.mul_comm, Nat.mul_add_mod, Nat.mod_eq_of_lt i.isLt]

theorem byteAt_base_add {pool : FramePool} {f : FrameId} {frame : Frame}
    (h : pool.frames[f]? = some frame) (i : Fin pageSize) :
    pool.byteAt ((FrameId.base f).add i) = frame.bytes[i] := by
  unfold byteAt
  simp only [frame_add_base, offset_add_base, h]

theorem inRange_base_iff (pool : FramePool) (f : FrameId) :
    pool.inRange (FrameId.base f) pageSize = true ↔ f < pool.total := by
  unfold inRange byteSize FrameId.base
  rw [decide_eq_true_iff, ← Nat.succ_mul]
  exact ⟨fun h => Nat.le_of_mul_le_mul_right h pageSize_pos, fun h => Nat.mul_le_mul_right _ h⟩

/-- A copy goes through exactly when memory reaches as far as both frames. -/
theorem exists_copyFrame {pool : FramePool} {source target : FrameId}
    (hsource : source < pool.total) (htarget : target < pool.total) :
    ∃ after, pool.copyFrame source target = .ok after := by
  unfold copyFrame
  rw [if_pos ((inRange_base_iff pool source).2 hsource),
    if_pos ((inRange_base_iff pool target).2 htarget),
    Array.getElem?_eq_getElem (show source < pool.frames.size from hsource)]
  exact ⟨_, rfl⟩

/-- All that a copy does is to replace the bytes of the target. -/
theorem copyFrame_eq_ok {pool after : FramePool} {source target : FrameId}
    (h : pool.copyFrame source target = .ok after) :
    target < pool.total ∧ ∃ frame, pool.frames[source]? = some frame ∧
      after = { pool with
        frames := pool.frames.modify target fun old => { old with bytes := frame.bytes } } := by
  unfold copyFrame at h
  split at h
  · split at h
    · rename_i htarget
      split at h
      · rename_i frame hframe
        cases h
        exact ⟨(inRange_base_iff pool target).1 htarget, frame, hframe, rfl⟩
      · cases h
    · cases h
  · cases h

theorem total_copyFrame {pool after : FramePool} {source target : FrameId}
    (h : pool.copyFrame source target = .ok after) : after.total = pool.total := by
  obtain ⟨-, frame, -, rfl⟩ := copyFrame_eq_ok h
  exact Array.size_modify

theorem freeCount_copyFrame {pool after : FramePool} {source target : FrameId}
    (h : pool.copyFrame source target = .ok after) : after.freeCount = pool.freeCount := by
  obtain ⟨-, frame, -, rfl⟩ := copyFrame_eq_ok h
  rfl

theorem refCount_copyFrame {pool after : FramePool} {source target : FrameId}
    (h : pool.copyFrame source target = .ok after) (f : FrameId) :
    after.refCount f = pool.refCount f := by
  obtain ⟨-, frame, -, rfl⟩ := copyFrame_eq_ok h
  unfold refCount
  rw [Array.getElem?_modify]
  by_cases hf : target = f
  · rw [if_pos hf]
    cases pool.frames[f]? with
    | none => rfl
    | some frame => rfl
  · rw [if_neg hf]

/-- After a copy the target reads as the source did, and the rest as before. -/
theorem byteAt_copyFrame {pool after : FramePool} {source target : FrameId}
    (h : pool.copyFrame source target = .ok after) (a : PhysAddr) :
    after.byteAt a =
      if target = a.frame then pool.byteAt ((FrameId.base source).add a.offset)
      else pool.byteAt a := by
  obtain ⟨htarget, frame, hframe, rfl⟩ := copyFrame_eq_ok h
  rw [byteAt_base_add hframe]
  unfold byteAt
  rw [Array.getElem?_modify]
  by_cases hta : target = a.frame
  · subst hta
    have hlt : a.frame < pool.frames.size := htarget
    rw [if_pos rfl, if_pos rfl, Array.getElem?_eq_getElem hlt]
    rfl
  · rw [if_neg hta, if_neg hta]

end FramePool

end Kernelet
