import Kernelet.Memory.FramePool.Request
import Kernelet.Proofs.Memory.CleanFailure

/-!
The frame pool under any use, also a wrong one: frames freed twice, frames freed that the kernel
keeps, frames shared that nobody owns. The count of free frames never drifts from the counts of
references (`Conserves`), an allocation finds the lowest frame that has no owner (`FirstFit`), and
a frame comes back exactly when as many references were given back as were taken (`Returns`).
-/

namespace Kernelet.FramePool

variable {pool after : FramePool} {f : FrameId}

/-! ### One step -/

/-- A pool counts its free frames right, and they and the used ones are all there are. -/
structure Conserves (pool : FramePool) (total : Nat) : Prop where
  total_eq : pool.total = total
  freeCount_eq : pool.freeCount = pool.freeFrames.card
  free_add_used : pool.freeCount + pool.usedCount = pool.total

/-- The frame that is handed out is the lowest one without an owner. It is zeroed, it has one
owner now, and no other frame is touched. -/
structure HandsOut (pool : FramePool) (f : FrameId) (after : FramePool) : Prop where
  lt_total : f < pool.total
  free : pool.refCount f = 0
  lowest : ∀ g, g < f → pool.refCount g ≠ 0
  total_eq : after.total = pool.total
  freeCount_eq : after.freeCount + 1 = pool.freeCount
  refCount_eq : ∀ g, after.refCount g = if f = g then 1 else pool.refCount g
  bytesOf_eq : ∀ g, after.bytesOf g = if f = g then PageBytes.zero else pool.bytesOf g

/-- Frames are handed out first fit, and refused only when there is none. -/
structure FirstFit (pool : FramePool) : Prop where
  error_iff : ∀ e, pool.allocate = .error e ↔
    e = .outOfMemory ∧ ∀ f, f < pool.total → pool.refCount f ≠ 0
  handsOut : ∀ f after, pool.allocate = .ok (f, after) → pool.HandsOut f after

theorem freeCount_le_total (hcount : pool.freeCount = pool.freeFrames.card) :
    pool.freeCount ≤ pool.total := by
  rw [hcount]
  have hle := Finset.card_filter_le (Finset.range pool.total) fun f => pool.refCount f = 0
  rwa [Finset.card_range] at hle

theorem conserves_of_count {total : Nat} (htotal : pool.total = total)
    (hcount : pool.freeCount = pool.freeFrames.card) : pool.Conserves total where
  total_eq := htotal
  freeCount_eq := hcount
  free_add_used := Nat.add_sub_cancel' (freeCount_le_total hcount)

theorem handsOut_of_allocate (hcount : pool.freeCount = pool.freeFrames.card)
    (hrun : pool.allocate = .ok (f, after)) : pool.HandsOut f after := by
  obtain ⟨hlt, hfree, hlowest⟩ := first_free_of_allocate hrun
  have hpos := Finset.card_pos.mpr ⟨f, mem_freeFrames.mpr ⟨hlt, hfree⟩⟩
  exact {
    lt_total := hlt
    free := hfree
    lowest := hlowest
    total_eq := total_allocate hrun
    freeCount_eq := by
      rw [freeCount_allocate hrun]
      omega
    refCount_eq := refCount_allocate hrun
    bytesOf_eq := bytesOf_allocate hrun }

theorem firstFit_of_count (hcount : pool.freeCount = pool.freeFrames.card) : pool.FirstFit where
  error_iff := fun _ => allocate_eq_error_iff
  handsOut := fun _ _ => handsOut_of_allocate hcount

@[simp] theorem refCount_setBytes (pool : FramePool) (a : PhysAddr) (bytes : List UInt8)
    (f : FrameId) : (pool.setBytes a bytes).refCount f = pool.refCount f := by
  induction bytes generalizing pool a with
  | nil => rfl
  | cons byte rest ih =>
      exact (ih (pool.setByte a byte) (a.add 1)).trans (refCount_setByte pool a byte f)

@[simp] theorem total_setBytes (pool : FramePool) (a : PhysAddr) (bytes : List UInt8) :
    (pool.setBytes a bytes).total = pool.total := by
  induction bytes generalizing pool a with
  | nil => rfl
  | cons byte rest ih =>
      exact (ih (pool.setByte a byte) (a.add 1)).trans (total_setByte pool a byte)

@[simp] theorem freeCount_setBytes (pool : FramePool) (a : PhysAddr) (bytes : List UInt8) :
    (pool.setBytes a bytes).freeCount = pool.freeCount := by
  induction bytes generalizing pool a with
  | nil => rfl
  | cons byte rest ih => exact ih (pool.setByte a byte) (a.add 1)

/-- What one request does to the counts: nothing, or it hands one frame out, shares one that has
an owner, or takes a reference from one that has. -/
inductive CountStep (pool : FramePool) : Request → FramePool → Prop
  | kept {request : Request} {after : FramePool} (htotal : after.total = pool.total)
      (hfree : after.freeCount = pool.freeCount)
      (hcount : ∀ f, after.refCount f = pool.refCount f)
      (hidle : ∀ f, request = .free f ∨ request = .share f → pool.refCount f = 0) :
      CountStep pool request after
  | allocated {f : FrameId} {after : FramePool} (hrun : pool.allocate = .ok (f, after)) :
      CountStep pool .allocate after
  | shared {f : FrameId} {after : FramePool} (howned : pool.refCount f ≠ 0)
      (hrun : pool.share f = .ok after) : CountStep pool (.share f) after
  | freed {f : FrameId} (howned : pool.refCount f ≠ 0) : CountStep pool (.free f) (pool.free f)

/-- To give back what nobody owns changes nothing. -/
theorem free_of_refCount_eq_zero (h : pool.refCount f = 0) : pool.free f = pool := by
  unfold free
  rw [h]

theorem serve_countStep (pool : FramePool) (request : Request) :
    pool.CountStep request (pool.serve request).state := by
  cases request with
  | allocate =>
      rw [serve]
      cases hrun : pool.allocate with
      | ok handed => exact .allocated hrun
      | error e => exact .kept rfl rfl (fun _ => rfl) (by simp)
  | free f =>
      rw [serve]
      by_cases hfree : pool.refCount f = 0
      · rw [free_of_refCount_eq_zero hfree]
        refine .kept rfl rfl (fun _ => rfl) ?_
        rintro g (hg | hg)
        · cases hg
          exact hfree
        · cases hg
      · exact .freed hfree
  | share f =>
      rw [serve]
      by_cases hfree : pool.refCount f = 0
      · rw [share_eq_error_iff.mpr ⟨rfl, hfree⟩]
        refine .kept rfl rfl (fun _ => rfl) ?_
        rintro g (hg | hg)
        · cases hg
        · cases hg
          exact hfree
      · cases hrun : pool.share f with
        | ok after => exact .shared hfree hrun
        | error e => exact absurd (share_eq_error_iff.mp hrun).2 hfree
  | copyFrame source target =>
      rw [serve]
      cases hrun : pool.copyFrame source target with
      | ok after =>
          exact .kept (total_copyFrame hrun) (freeCount_copyFrame hrun) (refCount_copyFrame hrun)
            (by simp)
      | error e => exact .kept rfl rfl (fun _ => rfl) (by simp)
  | writeRange a bytes =>
      rw [serve, writeRange]
      split
      · exact .kept (total_setBytes pool a bytes) (freeCount_setBytes pool a bytes)
          (refCount_setBytes pool a bytes) (by simp)
      · exact .kept rfl rfl (fun _ => rfl) (by simp)

/-! ### The books of any pool -/

/-- A frame that has an owner is named, where the kernel's own references are named too. -/
theorem Backs.mem_of_refCount_ne_zero {total : Nat} {named : List FrameId}
    (h : pool.Backs total 0 named) (howned : pool.refCount f ≠ 0) : f ∈ named := by
  have hcount := h.refCount_eq f
  rw [if_neg (Nat.not_lt_zero f), Nat.zero_add] at hcount
  exact List.count_pos_iff.mp (by omega)

/-- At the start each frame of the kernel has one name. -/
theorem backs_new (total reserved : Nat) :
    (new total reserved).Backs total 0 (List.range (min reserved total)) where
  total_eq := total_new total reserved
  reserved_le := Nat.zero_le total
  freeCount_eq := (Backs.of_new total reserved).freeCount_eq
  refCount_eq := by
    intro f
    rw [refCount_new, if_neg (Nat.not_lt_zero f), Nat.zero_add, List.nodup_range.count]
    simp
  reserved_le_of_mem := fun f _ => Nat.zero_le f

/-- One request changes the list of references along with the counts. -/
theorem CountStep.backs {total : Nat} {named : List FrameId} {request : Request}
    (h : pool.CountStep request after) (hbacks : pool.Backs total 0 named) :
    ∃ named', after.Backs total 0 named' := by
  cases h with
  | kept htotal hfree hcount => exact ⟨named, hbacks.congr htotal hfree hcount⟩
  | @allocated f after hrun => exact ⟨f :: named, (hbacks.allocate hrun).2⟩
  | @shared f after howned hrun =>
      obtain ⟨after', hrun', hbacks'⟩ := hbacks.share (hbacks.mem_of_refCount_ne_zero howned)
      rw [hrun] at hrun'
      cases hrun'
      exact ⟨f :: named, hbacks'⟩
  | @freed f howned =>
      have hperm := List.perm_cons_erase (hbacks.mem_of_refCount_ne_zero howned)
      exact ⟨named.erase f, (hbacks.perm hperm).free⟩

theorem serveAll_concat (pool : FramePool) (requests : List Request) (request : Request) :
    pool.serveAll (requests ++ [request]) = ((pool.serveAll requests).serve request).state := by
  rw [serveAll, List.foldl_append]
  rfl

/-- The books are kept whatever is asked. -/
theorem Backs.exists_serveAll {total : Nat} {named : List FrameId} (h : pool.Backs total 0 named)
    (requests : List Request) : ∃ named', (pool.serveAll requests).Backs total 0 named' := by
  induction requests using List.reverseRecOn with
  | nil => exact ⟨named, h⟩
  | append_singleton requests request ih =>
      obtain ⟨named', hbacks⟩ := ih
      rw [serveAll_concat]
      exact (serve_countStep _ request).backs hbacks

/-! ### The life of a frame -/

/-- Frame `f` can be had: some number of allocations from here on hands it out. -/
def Allocatable (pool : FramePool) (f : FrameId) : Prop :=
  ∃ n, ((pool.serveAll (List.replicate n .allocate)).serve .allocate).result = .ok (.frame f)

theorem allocate_of_serve (h : (pool.serve .allocate).result = .ok (.frame f)) :
    ∃ after, pool.allocate = .ok (f, after) := by
  rw [serve] at h
  cases hrun : pool.allocate with
  | error e =>
      rw [hrun] at h
      cases h
  | ok handed =>
      rw [hrun] at h
      cases h
      exact ⟨handed.2, rfl⟩

theorem Allocatable.free (h : pool.Allocatable f) : f < pool.total ∧ pool.refCount f = 0 := by
  obtain ⟨n, hn⟩ := h
  induction n generalizing pool with
  | zero =>
      obtain ⟨after, hrun⟩ := allocate_of_serve hn
      exact ⟨(first_free_of_allocate hrun).1, (first_free_of_allocate hrun).2.1⟩
  | succ n ih =>
      obtain ⟨hlt, hfree⟩ := @ih (pool.serve .allocate).state hn
      cases hrun : pool.allocate with
      | error e =>
          rw [serve, hrun] at hlt hfree
          exact ⟨hlt, hfree⟩
      | ok handed =>
          obtain ⟨g, after⟩ := handed
          rw [serve, hrun] at hlt hfree
          rw [refCount_allocate hrun] at hfree
          split at hfree
          · cases hfree
          · exact ⟨total_allocate hrun ▸ hlt, hfree⟩

/-- The frames below a free one are handed out before it, and then it is its turn. -/
theorem Backs.allocatable {total : Nat} {named : List FrameId} (h : pool.Backs total 0 named)
    (hlt : f < pool.total) (hfree : pool.refCount f = 0) : pool.Allocatable f := by
  induction hn : pool.freeCount generalizing pool named with
  | zero =>
      rw [h.freeCount_eq, Finset.card_eq_zero] at hn
      have hmem := mem_freeFrames.mpr ⟨hlt, hfree⟩
      rw [hn] at hmem
      exact absurd hmem (Finset.notMem_empty f)
  | succ n ih =>
      cases hrun : pool.allocate with
      | error e => exact absurd hfree ((allocate_eq_error_iff.mp hrun).2 f hlt)
      | ok handed =>
          obtain ⟨g, after⟩ := handed
          have hserve : pool.serve .allocate = ⟨.ok (.frame g), after⟩ := by
            rw [serve, hrun]
          by_cases hgf : g = f
          · exact ⟨0, by rw [← hgf]; exact congrArg Outcome.result hserve⟩
          · obtain ⟨k, hk⟩ := ih (h.allocate hrun).2 (total_allocate hrun ▸ hlt)
              ((refCount_allocate hrun f).trans ((if_neg hgf).trans hfree))
              (by rw [freeCount_allocate hrun, hn]; rfl)
            refine ⟨k + 1, ?_⟩
            rw [← hk, List.replicate_succ]
            show ((serveAll (pool.serve .allocate).state _).serve .allocate).result = _
            rw [hserve]

theorem Backs.allocatable_iff {total : Nat} {named : List FrameId}
    (h : pool.Backs total 0 named) :
    pool.Allocatable f ↔ f < pool.total ∧ pool.refCount f = 0 :=
  ⟨Allocatable.free, fun hf => h.allocatable hf.1 hf.2⟩

/-- At no time are as many references to `f` given back as there were taken, `taken` of them
before the history. -/
def Holds (f : FrameId) (taken : Nat) (history : List Request) : Prop :=
  ∀ done, done <+: history → done.count (.free f) < taken + done.count (.share f)

theorem Holds.of_concat {taken : Nat} {history : List Request} {request : Request}
    (h : Holds f taken (history ++ [request])) : Holds f taken history :=
  fun done hdone => h done (hdone.trans (List.prefix_append history [request]))

/-- While a frame is held, its count is what was taken less what was given back. -/
theorem refCount_serveAll {taken : Nat} {history : List Request}
    (htaken : pool.refCount f = taken) (h : Holds f taken history) :
    (pool.serveAll history).refCount f + history.count (.free f) =
      taken + history.count (.share f) := by
  induction history using List.reverseRecOn with
  | nil => exact htaken
  | append_singleton history request ih =>
      have hcount := ih h.of_concat
      have hheld := h history (List.prefix_append history [request])
      have howned : (pool.serveAll history).refCount f ≠ 0 := by omega
      rw [serveAll_concat, List.count_append, List.count_append]
      generalize hnext : ((pool.serveAll history).serve request).state = next
      have hstep := serve_countStep (pool.serveAll history) request
      rw [hnext] at hstep
      cases hstep with
      | kept _ _ hsame hidle =>
          have hfree : request ≠ .free f := fun heq => howned (hidle f (.inl heq))
          have hshare : request ≠ .share f := fun heq => howned (hidle f (.inr heq))
          rw [hsame, List.count_singleton, List.count_singleton]
          simp only [beq_iff_eq, hfree, hshare, if_false]
          omega
      | @allocated g _ hrun =>
          have hgf : g ≠ f := by
            rintro rfl
            exact howned (first_free_of_allocate hrun).2.1
          rw [refCount_allocate hrun, if_neg hgf]
          simp
          omega
      | @shared g _ _ hrun =>
          rw [refCount_share hrun]
          by_cases hgf : g = f
          · simp [hgf]
            omega
          · simp [hgf]
            omega
      | @freed g _ =>
          rw [refCount_free]
          by_cases hgf : g = f
          · simp [hgf]
            omega
          · simp [hgf]
            omega

/-- A frame that was handed out comes back exactly when as many references were given back as
were taken, one by the allocation and one by each request that shared it since. -/
structure Returns (pool : FramePool) : Prop where
  /-- As long as references are left, the frame has that many and cannot be had. -/
  held : ∀ f after history, pool.allocate = .ok (f, after) → Holds f 1 history →
    (after.serveAll history).refCount f + history.count (.free f) =
      1 + history.count (.share f) ∧ ¬ (after.serveAll history).Allocatable f
  /-- The next one to be given back sets it free exactly if it is the last. -/
  returned : ∀ f after history, pool.allocate = .ok (f, after) → Holds f 1 history →
    ((after.serveAll (history ++ [Request.free f])).Allocatable f ↔
      (history ++ [Request.free f]).count (Request.free f) = 1 + history.count (.share f))

theorem Backs.returns {total : Nat} {named : List FrameId} (h : pool.Backs total 0 named) :
    pool.Returns where
  held := by
    intro f after history hrun hholds
    have hone : after.refCount f = 1 := (refCount_allocate hrun f).trans (if_pos rfl)
    have hcount := refCount_serveAll hone hholds
    have hheld := hholds history List.prefix_rfl
    refine ⟨hcount, ?_⟩
    intro hhad
    have hfree := hhad.free.2
    omega
  returned := by
    intro f after history hrun hholds
    have hone : after.refCount f = 1 := (refCount_allocate hrun f).trans (if_pos rfl)
    have hcount := refCount_serveAll hone hholds
    have hheld := hholds history List.prefix_rfl
    have howned : (after.serveAll history).refCount f ≠ 0 := by omega
    have hlt := lt_total_of_refCount_ne_zero howned
    obtain ⟨named', hbacks⟩ := (h.allocate hrun).2.exists_serveAll (history ++ [Request.free f])
    have hlast : after.serveAll (history ++ [Request.free f]) = (after.serveAll history).free f :=
      serveAll_concat after history _
    rw [hbacks.allocatable_iff, hlast, total_free, refCount_free, if_pos rfl,
      List.count_append, List.count_singleton_self]
    constructor
    · rintro ⟨-, hlast⟩
      omega
    · intro hcounts
      exact ⟨hlt, by omega⟩

/-! ### Any use of a pool -/

/-- What holds of a pool of `total` frames whatever was asked of it. -/
structure Kept (pool : FramePool) (total : Nat) : Prop where
  conserves : pool.Conserves total
  firstFit : pool.FirstFit
  returns : pool.Returns
  /-- A frame that nobody owns, or that does not exist, cannot be shared. -/
  share_idle : ∀ f, pool.refCount f = 0 →
    pool.serve (.share f) = ⟨.error (.frameNotAllocated f), pool⟩
  /-- To give back such a frame changes nothing. -/
  free_idle : ∀ f, pool.refCount f = 0 → pool.serve (.free f) = ⟨.ok .done, pool⟩

/-- Whatever is asked of a pool, it counts its free frames right, hands frames out first fit and
zeroed, and gets each of them back with its last reference. -/
theorem serveAll_kept (total reserved : Nat) (requests : List Request) :
    ((new total reserved).serveAll requests).Kept total := by
  obtain ⟨named, hbacks⟩ := (backs_new total reserved).exists_serveAll requests
  have hcount := hbacks.freeCount_eq
  constructor
  · exact conserves_of_count hbacks.total_eq hcount
  · exact firstFit_of_count hcount
  · exact hbacks.returns
  · intro f hfree
    rw [serve, share_eq_error_iff.mpr ⟨rfl, hfree⟩]
    rfl
  · intro f hfree
    rw [serve, free_of_refCount_eq_zero hfree]

end Kernelet.FramePool
