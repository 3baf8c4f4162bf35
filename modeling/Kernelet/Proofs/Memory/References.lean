import Mathlib.Data.Finset.Card
import Mathlib.Data.Finset.Range
import Kernelet.Proofs.Memory.FrameBytes

/-!
The books of a frame pool. `Backs` says that a pool backs exactly the
references in a list: besides the one reference by which the kernel keeps each
of its frames, a frame is referred to as often as the list names it. Handing
out, sharing and giving back a frame then are adding a name to the list and
striking one out, and nothing else about the list matters than how often it
names each frame.
-/

namespace Kernelet.FramePool

/-- The frames without an owner. -/
def freeFrames (pool : FramePool) : Finset FrameId :=
  (Finset.range pool.total).filter fun f => pool.refCount f = 0

/-- The pool has `total` frames, the kernel keeps the first `reserved` of them,
and `named` lists all references to the others. -/
structure Backs (pool : FramePool) (total reserved : Nat) (named : List FrameId) : Prop where
  total_eq : pool.total = total
  reserved_le : reserved ≤ total
  freeCount_eq : pool.freeCount = pool.freeFrames.card
  refCount_eq : ∀ f, pool.refCount f = (if f < reserved then 1 else 0) + named.count f
  reserved_le_of_mem : ∀ f ∈ named, reserved ≤ f

theorem mem_freeFrames {pool : FramePool} {f : FrameId} :
    f ∈ pool.freeFrames ↔ f < pool.total ∧ pool.refCount f = 0 := by
  simp [freeFrames]

/-- Equal counts on equally many frames leave the same frames free. -/
theorem freeFrames_congr {pool after : FramePool} (htotal : after.total = pool.total)
    (hcount : ∀ f, after.refCount f = pool.refCount f) :
    after.freeFrames = pool.freeFrames := by
  ext f
  rw [mem_freeFrames, mem_freeFrames, htotal, hcount]

namespace Backs

variable {pool after : FramePool} {total reserved : Nat} {named other : List FrameId}
  {f : FrameId}

theorem refCount_of_mem (h : pool.Backs total reserved named) (hf : f ∈ named) :
    pool.refCount f = named.count f := by
  have hle := h.reserved_le_of_mem f hf
  rw [h.refCount_eq, if_neg (Nat.not_lt_of_le hle), Nat.zero_add]

/-- Nothing but the kernel refers to a frame that the kernel keeps. -/
theorem count_of_lt_reserved (h : pool.Backs total reserved named) (hf : f < reserved) :
    named.count f = 0 := by
  rw [List.count_eq_zero]
  intro hmem
  exact absurd (h.reserved_le_of_mem f hmem) (Nat.not_le_of_lt hf)

theorem refCount_pos (h : pool.Backs total reserved named) (hf : f ∈ named) :
    pool.refCount f ≠ 0 := by
  have hpos := List.count_pos_iff.mpr hf
  rw [h.refCount_of_mem hf]
  omega

theorem lt_total (h : pool.Backs total reserved named) (hf : f ∈ named) : f < total := by
  rw [← h.total_eq]
  exact lt_total_of_refCount_ne_zero (h.refCount_pos hf)

/-- A frame with a single reference has no other name in the list. -/
theorem not_mem_of_refCount_eq_one (h : pool.Backs total reserved (f :: named))
    (hone : pool.refCount f = 1) : f ∉ named := by
  intro hmem
  have hpos := List.count_pos_iff.mpr hmem
  have hcount := h.refCount_of_mem (List.mem_cons_self (a := f) (l := named))
  rw [hone, List.count_cons_self] at hcount
  omega

/-- A frame in use that has not just one reference has another name in the list. -/
theorem mem_of_refCount_ne_one (h : pool.Backs total reserved (f :: named))
    (hmany : pool.refCount f ≠ 1) : f ∈ named := by
  have hcount := h.refCount_of_mem (List.mem_cons_self (a := f) (l := named))
  rw [List.count_cons_self] at hcount
  exact List.count_pos_iff.mp (by omega)

/-- The order of the list does not matter. -/
theorem perm (h : pool.Backs total reserved named) (hperm : named.Perm other) :
    pool.Backs total reserved other where
  total_eq := h.total_eq
  reserved_le := h.reserved_le
  freeCount_eq := h.freeCount_eq
  refCount_eq := by
    intro g
    rw [h.refCount_eq, hperm.count_eq]
  reserved_le_of_mem := by
    intro g hg
    exact h.reserved_le_of_mem g (hperm.mem_iff.mpr hg)

/-- A pool with the same counts backs the same references. -/
theorem congr (h : pool.Backs total reserved named) (htotal : after.total = pool.total)
    (hfree : after.freeCount = pool.freeCount)
    (hcount : ∀ g, after.refCount g = pool.refCount g) :
    after.Backs total reserved named where
  total_eq := htotal.trans h.total_eq
  reserved_le := h.reserved_le
  freeCount_eq := by
    rw [hfree, freeFrames_congr htotal hcount]
    exact h.freeCount_eq
  refCount_eq := by
    intro g
    rw [hcount, h.refCount_eq]
  reserved_le_of_mem := h.reserved_le_of_mem

/-- At the start there is no reference but the kernel's. -/
theorem of_new (total reserved : Nat) :
    (new total reserved).Backs total (min reserved total) [] where
  total_eq := total_new total reserved
  reserved_le := Nat.min_le_right reserved total
  freeCount_eq := by
    have hfree : (new total reserved).freeFrames =
        Finset.range total \ Finset.range (min reserved total) := by
      ext f
      simp only [mem_freeFrames, total_new, refCount_new, Finset.mem_sdiff, Finset.mem_range]
      split <;> simp_all
    rw [hfree, Finset.card_sdiff_of_subset (by simp), Finset.card_range, Finset.card_range,
      freeCount_new]
  refCount_eq := by
    intro f
    rw [refCount_new, List.count_nil, Nat.add_zero]
  reserved_le_of_mem := by
    intro f hf
    cases hf

/-- A frame that is handed out had no name before, and has one now. -/
theorem allocate (h : pool.Backs total reserved named) (hrun : pool.allocate = .ok (f, after)) :
    f ∉ named ∧ after.Backs total reserved (f :: named) := by
  obtain ⟨hlt, hfree, -⟩ := first_free_of_allocate hrun
  have hzero := h.refCount_eq f
  rw [hfree] at hzero
  have hcount : named.count f = 0 := by omega
  have hkept : ¬ f < reserved := by
    intro hlow
    rw [if_pos hlow] at hzero
    omega
  refine ⟨List.count_eq_zero.mp hcount, ?_⟩
  have hfrees : after.freeFrames = pool.freeFrames.erase f := by
    ext g
    rw [Finset.mem_erase, mem_freeFrames, mem_freeFrames, total_allocate hrun,
      refCount_allocate hrun]
    by_cases hfg : f = g
    · simp [hfg]
    · simp [hfg, Ne.symm hfg]
  constructor
  · exact (total_allocate hrun).trans h.total_eq
  · exact h.reserved_le
  · rw [freeCount_allocate hrun, h.freeCount_eq, hfrees,
      Finset.card_erase_of_mem (mem_freeFrames.mpr ⟨hlt, hfree⟩)]
  · intro g
    rw [refCount_allocate hrun, h.refCount_eq g, List.count_cons]
    by_cases hfg : f = g
    · subst hfg
      simp [hcount, hkept]
    · simp [hfg]
  · intro g hg
    rcases List.mem_cons.mp hg with rfl | hold
    · exact Nat.le_of_not_lt hkept
    · exact h.reserved_le_of_mem g hold

/-- No frame is handed out only when none is free. -/
theorem allocate_error {e : KernelError} (h : pool.Backs total reserved named)
    (hrun : pool.allocate = .error e) : e = .outOfMemory ∧ pool.freeCount = 0 := by
  obtain ⟨rfl, hbusy⟩ := allocate_eq_error_iff.mp hrun
  refine ⟨rfl, ?_⟩
  rw [h.freeCount_eq, Finset.card_eq_zero, Finset.eq_empty_iff_forall_notMem]
  intro f hf
  obtain ⟨hlt, hzero⟩ := mem_freeFrames.mp hf
  exact hbusy f hlt hzero

/-- Giving a frame back strikes out one of its names. -/
theorem free (h : pool.Backs total reserved (f :: named)) :
    (pool.free f).Backs total reserved named := by
  have hmem : f ∈ f :: named := List.mem_cons_self
  have hcount := h.refCount_of_mem hmem
  rw [List.count_cons_self] at hcount
  constructor
  · rw [total_free]
    exact h.total_eq
  · exact h.reserved_le
  · rw [freeCount_free, h.freeCount_eq]
    by_cases hone : pool.refCount f = 1
    · have hlt : f < pool.total := h.total_eq ▸ h.lt_total hmem
      have hfrees : (pool.free f).freeFrames = insert f pool.freeFrames := by
        ext g
        rw [Finset.mem_insert, mem_freeFrames, mem_freeFrames, total_free, refCount_free]
        by_cases hfg : f = g
        · subst hfg
          simp [hone, hlt]
        · simp [hfg, Ne.symm hfg]
      have hbusy : f ∉ pool.freeFrames := by
        rw [mem_freeFrames, hone]
        simp
      rw [if_pos hone, hfrees, Finset.card_insert_of_notMem hbusy]
    · rw [if_neg hone]
      congr 1
      ext g
      rw [mem_freeFrames, mem_freeFrames, total_free, refCount_free]
      by_cases hfg : f = g
      · subst hfg
        rw [if_pos rfl]
        omega
      · rw [if_neg hfg]
  · intro g
    rw [refCount_free, h.refCount_eq g, List.count_cons]
    by_cases hfg : f = g
    · subst hfg
      simp
    · simp [hfg]
  · intro g hg
    exact h.reserved_le_of_mem g (List.mem_cons_of_mem f hg)

/-- Giving back all frames of a list strikes that list out. -/
theorem freeAll {gone : List FrameId} (h : pool.Backs total reserved (gone ++ named)) :
    (pool.freeAll gone).Backs total reserved named := by
  induction gone generalizing pool with
  | nil => exact h
  | cons f rest ih => exact ih h.free

/-- A frame that has a name can be shared, and then has one more. -/
theorem share (h : pool.Backs total reserved named) (hf : f ∈ named) :
    ∃ after, pool.share f = .ok after ∧ after.Backs total reserved (f :: named) := by
  cases hrun : pool.share f with
  | error e => exact absurd (share_eq_error_iff.mp hrun).2 (h.refCount_pos hf)
  | ok after =>
      refine ⟨after, rfl, ?_⟩
      have hfrees : after.freeFrames = pool.freeFrames := by
        ext g
        rw [mem_freeFrames, mem_freeFrames, total_share hrun, refCount_share hrun]
        by_cases hfg : f = g
        · have hpos := h.refCount_pos hf
          subst hfg
          rw [if_pos rfl]
          omega
        · rw [if_neg hfg]
      constructor
      · exact (total_share hrun).trans h.total_eq
      · exact h.reserved_le
      · rw [freeCount_share hrun, hfrees]
        exact h.freeCount_eq
      · intro g
        rw [refCount_share hrun, h.refCount_eq g, List.count_cons]
        by_cases hfg : f = g
        · subst hfg
          simp
          omega
        · simp [hfg]
      · intro g hg
        rcases List.mem_cons.mp hg with rfl | hold
        · exact h.reserved_le_of_mem g hf
        · exact h.reserved_le_of_mem g hold

theorem setByte (h : pool.Backs total reserved named) (a : PhysAddr) (byte : UInt8) :
    (pool.setByte a byte).Backs total reserved named :=
  h.congr (total_setByte pool a byte) (freeCount_setByte pool a byte)
    (refCount_setByte pool a byte)

theorem copyFrame {source target : FrameId} (h : pool.Backs total reserved named)
    (hrun : pool.copyFrame source target = .ok after) : after.Backs total reserved named :=
  h.congr (total_copyFrame hrun) (freeCount_copyFrame hrun) (refCount_copyFrame hrun)

/-- A frame is exchanged for a copy of it. The copy gets a frame that had no
name, and only that frame is written. -/
theorem exchange {copy : FrameId} (h : pool.Backs total reserved (f :: named))
    (hrun : pool.allocate = .ok (copy, after)) :
    copy ∉ f :: named ∧ ∃ copied, after.copyFrame f copy = .ok copied ∧
      (copied.free f).Backs total reserved (copy :: named) ∧
      ∀ g, (copied.free f).bytesOf g = if copy = g then pool.bytesOf f else pool.bytesOf g := by
  obtain ⟨hfresh, hnamed⟩ := h.allocate hrun
  have hcopy : copy < after.total := by
    rw [hnamed.total_eq]
    exact hnamed.lt_total List.mem_cons_self
  have hold : f < after.total := by
    rw [hnamed.total_eq]
    exact hnamed.lt_total (List.mem_cons_of_mem _ List.mem_cons_self)
  obtain ⟨copied, hcopied⟩ := FramePool.exists_copyFrame hold hcopy
  refine ⟨hfresh, copied, hcopied, ?_, ?_⟩
  · exact ((hnamed.copyFrame hcopied).perm (List.Perm.swap _ _ _)).free
  · intro g
    have hne : copy ≠ f := fun heq => hfresh (heq ▸ List.mem_cons_self)
    rw [bytesOf_free, bytesOf_copyFrame hcopied, bytesOf_allocate hrun, bytesOf_allocate hrun,
      if_neg hne]
    split
    · rfl
    · rfl

/-- A frame is free, kept by the kernel or named by the list. -/
theorem freeCount_add_reserved_add_card (h : pool.Backs total reserved named) :
    pool.freeCount + reserved + named.toFinset.card = total := by
  have hbusy : Finset.range total \ pool.freeFrames = Finset.range reserved ∪ named.toFinset := by
    ext f
    simp only [Finset.mem_sdiff, Finset.mem_range, Finset.mem_union, List.mem_toFinset,
      mem_freeFrames, h.total_eq, h.refCount_eq]
    constructor
    · rintro ⟨hlt, hbusy⟩
      by_cases hkept : f < reserved
      · exact Or.inl hkept
      · right
        rw [if_neg hkept, Nat.zero_add, List.count_eq_zero] at hbusy
        by_contra hnot
        exact hbusy ⟨hlt, hnot⟩
    · rintro (hkept | hmem)
      · have hle := h.reserved_le
        refine ⟨by omega, ?_⟩
        simp [hkept]
      · refine ⟨h.lt_total hmem, ?_⟩
        rintro ⟨-, hzero⟩
        have hpos := List.count_pos_iff.mpr hmem
        omega
  have hdisjoint : Disjoint (Finset.range reserved) named.toFinset := by
    rw [Finset.disjoint_left]
    intro f hkept hmem
    have hle := h.reserved_le_of_mem f (List.mem_toFinset.mp hmem)
    have hlt := Finset.mem_range.mp hkept
    omega
  have hsub : pool.freeFrames ⊆ Finset.range total := by
    intro f hf
    rw [Finset.mem_range, ← h.total_eq]
    exact (mem_freeFrames.mp hf).1
  have hcard := congrArg Finset.card hbusy
  rw [Finset.card_sdiff_of_subset hsub, Finset.card_union_of_disjoint hdisjoint,
    Finset.card_range, Finset.card_range] at hcard
  have hle := Finset.card_le_card hsub
  rw [Finset.card_range] at hle
  have hfree := h.freeCount_eq
  omega

/-- A frame that was free has taken the place of a name whose frame keeps another. -/
theorem freeCount_of_exchange {copy : FrameId} (h : pool.Backs total reserved (f :: named))
    (hmany : f ∈ named) (hafter : after.Backs total reserved (copy :: named))
    (hfresh : copy ∉ named) : after.freeCount + 1 = pool.freeCount := by
  have hold := h.freeCount_add_reserved_add_card
  rw [List.toFinset_cons, Finset.insert_eq_of_mem (List.mem_toFinset.mpr hmany)] at hold
  have hnew := hafter.freeCount_add_reserved_add_card
  rw [List.toFinset_cons,
    Finset.card_insert_of_notMem (fun hmem => hfresh (List.mem_toFinset.mp hmem))] at hnew
  omega

end Backs

end Kernelet.FramePool
