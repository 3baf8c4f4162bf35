import Kernelet.Memory.Access
import Kernelet.Proofs.Memory.Forking

/-!
What an operation leaves behind when it fails, on memory that may be damaged: a mapped frame
may have been freed meanwhile, may be mapped more often than it has references, or may lie
outside of memory. Nothing is asked of a pool but that it counts its free frames right, and
nothing of a table but that it was made by the operations on tables.

A mapping and a write then change nothing at all. Pages that are mapped in a row until one
cannot be take frames that were not in use (`mapPages_keepsBusy`). A fork stops at the first
page whose frame is not in use. The pages before it are shared in the parent, and the
references that were taken for the child (`FramePool.Lends`) are given back (`Lends.takeBack`).
-/

namespace Kernelet

namespace PageTable

/-- The tables that the operations on tables make. -/
inductive Built : PageTable → Prop
  | new (maxPages : Nat) : Built (new maxPages)
  | map {table after : PageTable} {p : Nat} {frame : FrameId} {flags : PageFlags}
      (h : Built table) (hmap : table.map p frame flags = .ok after) : Built after
  | unmap {table : PageTable} (h : Built table) (p : Nat) : Built (table.unmap p).2
  | setFlags {table : PageTable} (h : Built table) (p : Nat) (flags : PageFlags) :
      Built (table.setFlags p flags).2
  | clear {table : PageTable} (h : Built table) : Built table.clear

/-- No page beyond the limit is mapped. -/
theorem Built.lt_maxPages {table : PageTable} (h : table.Built) {p : Nat} {entry : PageEntry}
    (hlookup : table.lookup p = some entry) : p < table.maxPages := by
  induction h generalizing p entry with
  | new maxPages =>
      rw [lookup_new] at hlookup
      cases hlookup
  | @map table after q frame flags _ hmap ih =>
      rw [maxPages_map hmap]
      by_cases hqp : q = p
      · subst hqp
        refine Nat.lt_of_not_le fun hle => ?_
        rw [map_eq_error_iff.mpr ⟨hle, rfl⟩] at hmap
        cases hmap
      · rw [lookup_map hmap, if_neg hqp] at hlookup
        exact ih hlookup
  | @unmap table _ q ih =>
      rw [maxPages_unmap]
      rw [lookup_unmap] at hlookup
      split at hlookup
      · cases hlookup
      · exact ih hlookup
  | @setFlags table _ q flags ih =>
      rw [maxPages_setFlags]
      rw [lookup_setFlags] at hlookup
      split at hlookup
      · rename_i hqp
        subst hqp
        obtain ⟨old, hold, -⟩ := Option.map_eq_some_iff.mp hlookup
        exact ih hold
      · exact ih hlookup
  | clear =>
      rw [lookup_clear] at hlookup
      cases hlookup

/-- The table without the pages of a list. -/
def without (table : PageTable) (pages : List (Nat × PageEntry)) : PageTable :=
  pages.foldl (fun table (p, _) => (table.unmap p).2) table

theorem lookup_without (table : PageTable) (pages : List (Nat × PageEntry)) (q : Nat) :
    (table.without pages).lookup q =
      if q ∈ pages.map Prod.fst then none else table.lookup q := by
  induction pages generalizing table with
  | nil => rfl
  | cons x rest ih =>
      obtain ⟨p, entry⟩ := x
      refine (ih (table.unmap p).2).trans ?_
      rw [lookup_unmap, List.map_cons]
      by_cases hmem : q ∈ rest.map Prod.fst
      · rw [if_pos hmem, if_pos (List.mem_cons_of_mem p hmem)]
      · rw [if_neg hmem]
        by_cases hpq : p = q
        · rw [if_pos hpq, if_pos (by simp [hpq])]
        · rw [if_neg hpq, if_neg]
          rw [List.mem_cons]
          rintro (heq | hin)
          · exact hpq heq.symm
          · exact hmem hin

end PageTable

namespace FramePool

variable {pool after last : FramePool} {f : FrameId} {lent : List FrameId}

/-- Pool `after` counts as `pool` does, and holds the same in all frames that are in use. -/
structure Unchanged (pool after : FramePool) : Prop where
  total_eq : after.total = pool.total
  freeCount_eq : after.freeCount = pool.freeCount
  refCount_eq : ∀ f, after.refCount f = pool.refCount f
  bytesOf_eq : ∀ f, pool.refCount f ≠ 0 → after.bytesOf f = pool.bytesOf f

theorem Unchanged.refl (pool : FramePool) : pool.Unchanged pool :=
  ⟨rfl, rfl, fun _ => rfl, fun _ _ => rfl⟩

/-- A frame that was handed out, and perhaps written to, goes back as if nothing had been. -/
theorem unchanged_of_allocate_free (hcount : pool.freeCount = pool.freeFrames.card)
    (hrun : pool.allocate = .ok (f, after)) : pool.Unchanged (after.free f) := by
  obtain ⟨hlt, hfree, -⟩ := first_free_of_allocate hrun
  have hone : after.refCount f = 1 := (refCount_allocate hrun f).trans (if_pos rfl)
  constructor
  · rw [total_free, total_allocate hrun]
  · have hpos := Finset.card_pos.mpr ⟨f, mem_freeFrames.mpr ⟨hlt, hfree⟩⟩
    rw [freeCount_free, if_pos hone, freeCount_allocate hrun]
    omega
  · intro g
    rw [refCount_free]
    by_cases hfg : f = g
    · rw [if_pos hfg, ← hfg, hone, hfree]
    · rw [if_neg hfg, refCount_allocate hrun, if_neg hfg]
  · intro g hbusy
    have hfg : f ≠ g := by
      rintro rfl
      exact hbusy hfree
    rw [bytesOf_free, bytesOf_allocate hrun, if_neg hfg]

@[simp] theorem total_freeAll (pool : FramePool) (gone : List FrameId) :
    (pool.freeAll gone).total = pool.total := by
  induction gone generalizing pool with
  | nil => rfl
  | cons f rest ih => exact (ih (pool.free f)).trans (total_free pool f)

theorem refCount_freeAll (pool : FramePool) (gone : List FrameId) (g : FrameId) :
    (pool.freeAll gone).refCount g = pool.refCount g - gone.count g := by
  induction gone generalizing pool with
  | nil => rfl
  | cons f rest ih =>
      refine (ih (pool.free f)).trans ?_
      rw [refCount_free, List.count_cons]
      by_cases hfg : f = g
      · rw [if_pos hfg, if_pos (beq_iff_eq.mpr hfg)]
        omega
      · rw [if_neg hfg, if_neg (by simp [hfg]), Nat.add_zero]

/-- No frame is freed whose last reference stays. -/
theorem freeCount_freeAll {gone : List FrameId}
    (h : ∀ f ∈ gone, gone.count f < pool.refCount f) :
    (pool.freeAll gone).freeCount = pool.freeCount := by
  induction gone generalizing pool with
  | nil => rfl
  | cons f rest ih =>
      have hfirst := h f List.mem_cons_self
      rw [List.count_cons_self] at hfirst
      have hmany : pool.refCount f ≠ 1 := by omega
      refine (ih ?_).trans ((freeCount_free pool f).trans (if_neg hmany))
      intro g hg
      have hrest := h g (List.mem_cons_of_mem f hg)
      rw [List.count_cons] at hrest
      rw [refCount_free]
      by_cases hfg : f = g
      · rw [if_pos (beq_iff_eq.mpr hfg)] at hrest
        rw [if_pos hfg]
        omega
      · rw [if_neg (by simp [hfg]), Nat.add_zero] at hrest
        rw [if_neg hfg]
        exact hrest

/-- Each frame of a list was in use, and has one reference more for each time that the list
names it. -/
structure Lends (pool after : FramePool) (lent : List FrameId) : Prop where
  total_eq : after.total = pool.total
  freeCount_eq : after.freeCount = pool.freeCount
  refCount_eq : ∀ f, after.refCount f = pool.refCount f + lent.count f
  bytesOf_eq : ∀ f, after.bytesOf f = pool.bytesOf f
  busy : ∀ f ∈ lent, pool.refCount f ≠ 0

theorem Lends.nil (pool : FramePool) : pool.Lends pool [] :=
  ⟨rfl, rfl, fun _ => rfl, fun _ => rfl, fun _ hf => by cases hf⟩

theorem Lends.cons (hshare : pool.share f = .ok after) (h : after.Lends last lent) :
    pool.Lends last (f :: lent) where
  total_eq := h.total_eq.trans (total_share hshare)
  freeCount_eq := h.freeCount_eq.trans (freeCount_share hshare)
  refCount_eq := by
    intro g
    rw [h.refCount_eq, refCount_share hshare, List.count_cons]
    by_cases hfg : f = g
    · rw [if_pos hfg, if_pos (beq_iff_eq.mpr hfg)]
      omega
    · rw [if_neg hfg, if_neg (by simp [hfg]), Nat.add_zero]
  bytesOf_eq := fun g => (h.bytesOf_eq g).trans (bytesOf_share hshare g)
  busy := by
    have hbusy : pool.refCount f ≠ 0 := by
      intro hzero
      rw [share_eq_error_iff.mpr ⟨rfl, hzero⟩] at hshare
      cases hshare
    intro g hg
    rcases List.mem_cons.mp hg with rfl | hlent
    · exact hbusy
    · have hlast := h.busy g hlent
      rw [refCount_share hshare] at hlast
      split at hlast
      · rename_i hfg
        exact hfg ▸ hbusy
      · exact hlast

/-- What was lent is given back, in whatever order, and no frame is freed over it. -/
theorem Lends.takeBack (h : pool.Lends after lent) {gone : List FrameId}
    (hgone : gone.Perm lent) : pool.Unchanged (after.freeAll gone) where
  total_eq := (total_freeAll after gone).trans h.total_eq
  freeCount_eq := by
    refine (freeCount_freeAll ?_).trans h.freeCount_eq
    intro f hf
    have hbusy := h.busy f (hgone.mem_iff.mp hf)
    rw [h.refCount_eq, hgone.count_eq]
    omega
  refCount_eq := by
    intro f
    rw [refCount_freeAll, h.refCount_eq, hgone.count_eq]
    omega
  bytesOf_eq := fun f _ => (bytesOf_freeAll after gone f).trans (h.bytesOf_eq f)

/-- Frames that are in use stay so, and hold what they held. -/
def KeepsBusy (pool after : FramePool) : Prop :=
  ∀ f, pool.refCount f ≠ 0 → after.refCount f ≠ 0 ∧ after.bytesOf f = pool.bytesOf f

theorem KeepsBusy.refl (pool : FramePool) : pool.KeepsBusy pool :=
  fun _ hbusy => ⟨hbusy, rfl⟩

theorem KeepsBusy.trans (h : pool.KeepsBusy after) (hnext : after.KeepsBusy last) :
    pool.KeepsBusy last := by
  intro f hbusy
  obtain ⟨hmid, hbytes⟩ := h f hbusy
  obtain ⟨hend, hbytes'⟩ := hnext f hmid
  exact ⟨hend, hbytes'.trans hbytes⟩

/-- A frame that is handed out was not in use. -/
theorem keepsBusy_of_allocate {f : FrameId} (hrun : pool.allocate = .ok (f, after)) :
    pool.KeepsBusy after := by
  obtain ⟨-, hfree, -⟩ := first_free_of_allocate hrun
  intro g hbusy
  have hne : f ≠ g := by
    rintro rfl
    exact hbusy hfree
  rw [refCount_allocate hrun, bytesOf_allocate hrun, if_neg hne, if_neg hne]
  exact ⟨hbusy, rfl⟩

/-- Pools that back the same names count alike. -/
theorem Backs.unchanged {total reserved : Nat} {named named' : List FrameId}
    (h : pool.Backs total reserved named) (hafter : after.Backs total reserved named')
    (hperm : named'.Perm named) (hbytes : ∀ f, pool.refCount f ≠ 0 →
      after.bytesOf f = pool.bytesOf f) : pool.Unchanged after := by
  have htotal : after.total = pool.total := hafter.total_eq.trans h.total_eq.symm
  have hcount : ∀ f, after.refCount f = pool.refCount f := by
    intro f
    rw [hafter.refCount_eq, h.refCount_eq, hperm.count_eq]
  refine ⟨htotal, ?_, hcount, hbytes⟩
  rw [hafter.freeCount_eq, h.freeCount_eq, freeFrames_congr htotal hcount]

end FramePool

namespace Memory

variable {m after : Memory} {a : VirtAddr} {p : Nat} {entry : PageEntry} {e : KernelError}

/-! ### Mapping and writing -/

/-- Nothing that can be observed has changed. -/
def Untouched (m after : Memory) : Prop :=
  after.space = m.space ∧ m.pool.Unchanged after.pool

theorem Untouched.refl (m : Memory) : m.Untouched m :=
  ⟨rfl, FramePool.Unchanged.refl m.pool⟩

/-- A mapping that is refused takes no frame. -/
theorem mapPage_failed {flags : PageFlags} (hrun : m.mapPage a flags = ⟨.error e, after⟩) :
    after = m := by
  unfold mapPage at hrun
  split at hrun
  · cases hrun
  · split at hrun
    · rename_i hlt
      split at hrun
      · cases hrun
        rfl
      · rename_i frame pool _
        obtain ⟨table, hmap, -⟩ := PageTable.exists_map hlt frame flags
        rw [hmap] at hrun
        cases hrun
    · cases hrun
      rfl

/-- A page that cannot be made private is left as it is, and a copy that was begun is
given up. -/
theorem makePrivate_failed (hcount : m.pool.freeCount = m.pool.freeFrames.card)
    (hp : p < m.space.table.maxPages) (hrun : m.makePrivate p entry = ⟨.error e, after⟩) :
    m.Untouched after := by
  unfold makePrivate at hrun
  split at hrun
  · cases hrun
  · split at hrun
    · cases hrun
      exact Untouched.refl m
    · rename_i copy pool hallocate
      split at hrun
      · cases hrun
        exact ⟨rfl, FramePool.unchanged_of_allocate_free hcount hallocate⟩
      · obtain ⟨table, hmap, -⟩ := PageTable.exists_map hp copy entry.flags.owned
        dsimp only at hrun
        rw [hmap] at hrun
        cases hrun

/-- A page that was made private has a frame in memory, even if the frame that it had was
free. -/
theorem exists_frame_of_makePrivate (hlookup : m.space.table.lookup p = some entry)
    (hrun : m.makePrivate p entry = ⟨.ok (), after⟩) :
    ∃ now, after.space.table.lookup p = some now ∧ now.frame < after.pool.total := by
  unfold makePrivate at hrun
  split at hrun
  · rename_i hone
    cases hrun
    refine ⟨{ entry with flags := entry.flags.owned.normalized }, ?_, ?_⟩
    · refine (m.space.table.lookup_setFlags p p entry.flags.owned).trans ?_
      rw [if_pos rfl, hlookup, Option.map_some]
    · exact FramePool.lt_total_of_refCount_ne_zero (hone ▸ Nat.one_ne_zero)
  · split at hrun
    · cases hrun
    · rename_i copy pool hallocate
      split at hrun
      · cases hrun
      · rename_i copied hcopied
        dsimp only at hrun
        split at hrun
        · cases hrun
        · rename_i table hmap
          cases hrun
          refine ⟨PageEntry.new copy entry.flags.owned, ?_, ?_⟩
          · exact (PageTable.lookup_map hmap p).trans (if_pos rfl)
          · dsimp only
            rw [FramePool.total_free, FramePool.total_copyFrame hcopied,
              FramePool.total_allocate hallocate]
            exact (FramePool.first_free_of_allocate hallocate).1

theorem storeByte_failed {byte : UInt8} (hrun : m.storeByte a byte = ⟨.error e, after⟩) :
    after = m := by
  unfold storeByte at hrun
  split at hrun
  · cases hrun
    rfl
  · split at hrun
    · cases hrun
      rfl
    · cases hrun

/-- A store into a frame of the memory goes through. -/
theorem storeByte_of_lt (hlookup : m.space.table.lookup a.page = some entry)
    (hlt : entry.frame < m.pool.total) (byte : UInt8) :
    ∃ next, m.storeByte a byte = ⟨.ok (), next⟩ := by
  unfold storeByte
  rw [translate_of_lookup hlookup]
  dsimp only [FramePool.writeByte]
  rw [if_pos (inRange_of_lt hlt _)]
  exact ⟨_, rfl⟩

/-- A write that fails, before its page is private or over the copy, changes nothing. -/
theorem writeByte_failed (hbuilt : m.space.table.Built)
    (hcount : m.pool.freeCount = m.pool.freeFrames.card) {byte : UInt8}
    (hrun : m.writeByte a byte = ⟨.error e, after⟩) : m.Untouched after := by
  unfold writeByte at hrun
  split at hrun
  · cases hrun
    exact Untouched.refl m
  · rename_i entry hlookup
    split at hrun
    · split at hrun
      · rename_i hprivate
        cases hrun
        exact makePrivate_failed hcount (hbuilt.lt_maxPages hlookup) hprivate
      · rename_i hprivate
        obtain ⟨now, hnow, hlt⟩ := exists_frame_of_makePrivate hlookup hprivate
        obtain ⟨next, hstore⟩ := storeByte_of_lt hnow hlt byte
        rw [hstore] at hrun
        cases hrun
    · split at hrun
      · rw [storeByte_failed hrun]
        exact Untouched.refl m
      · cases hrun
        exact Untouched.refl m

theorem mapPage_keepsBusy (m : Memory) (a : VirtAddr) (flags : PageFlags) :
    m.pool.KeepsBusy (m.mapPage a flags).state.pool := by
  unfold mapPage
  split
  · exact FramePool.KeepsBusy.refl m.pool
  · split
    · split
      · exact FramePool.KeepsBusy.refl m.pool
      · rename_i hrun
        split
        · exact FramePool.keepsBusy_of_allocate hrun
        · exact FramePool.keepsBusy_of_allocate hrun
    · exact FramePool.KeepsBusy.refl m.pool

/-- Pages are mapped to frames that were not in use, however far that goes. -/
theorem mapPages_keepsBusy (m : Memory) (first : Nat) (flags : PageFlags) (count : Nat) :
    m.pool.KeepsBusy (m.mapPages first flags count).state.pool := by
  induction count generalizing m first with
  | zero => exact FramePool.KeepsBusy.refl m.pool
  | succ count ih =>
      have hpage := m.mapPage_keepsBusy (VirtAddr.ofPage first) flags
      unfold mapPages
      rcases hrun : m.mapPage (VirtAddr.ofPage first) flags with ⟨_ | _, after⟩
      · rw [hrun] at hpage
        exact hpage
      · rw [hrun] at hpage
        exact hpage.trans (ih after (first + 1))

/-! ### Forking -/

/-- Pages are shared in turn, all of them or up to the first whose frame is not in use. -/
theorem Sharing.pages_cases (s : Sharing) (pages : List (Nat × PageEntry)) :
    (∃ pool, s.pages pages =
        ⟨.ok (), s.parent.shareFlags pages, s.child.shareFlags pages, pool⟩ ∧
      s.pool.Lends pool (pages.map fun (_, entry) => entry.frame)) ∨
    ∃ before p entry rest pool, pages = before ++ (p, entry) :: rest ∧
      s.pool.refCount entry.frame = 0 ∧
      s.pages pages = ⟨.error (.frameNotAllocated entry.frame), s.parent.shareFlags before,
        (s.child.shareFlags before).without ((p, entry) :: rest), pool⟩ ∧
      s.pool.Lends pool (before.map fun (_, entry) => entry.frame) := by
  induction pages generalizing s with
  | nil => exact Or.inl ⟨s.pool, rfl, FramePool.Lends.nil s.pool⟩
  | cons x rest ih =>
      obtain ⟨p, entry⟩ := x
      unfold pages page
      cases hshare : s.pool.share entry.frame with
      | error e =>
          obtain ⟨rfl, hfree⟩ := FramePool.share_eq_error_iff.mp hshare
          exact Or.inr ⟨[], p, entry, rest, s.pool, rfl, hfree, rfl, FramePool.Lends.nil s.pool⟩
      | ok pool =>
          rcases ih ⟨(s.parent.setFlags p entry.flags.shared).2,
              (s.child.setFlags p entry.flags.shared).2, pool⟩ with
            ⟨last, hrun, hlends⟩ | ⟨before, q, other, tail, last, rfl, hfree, hrun, hlends⟩
          · exact Or.inl ⟨last, hrun, hlends.cons hshare⟩
          · refine Or.inr ⟨(p, entry) :: before, q, other, tail, last, rfl, ?_, hrun,
              hlends.cons hshare⟩
            have hlater := FramePool.refCount_share hshare other.frame
            dsimp only at hfree
            rw [hfree] at hlater
            split at hlater
            · omega
            · exact hlater.symm

end Memory

namespace PageTable

variable {table : PageTable} {before rest : List (Nat × PageEntry)} {p q : Nat}
  {entry other : PageEntry}

/-! The listing of a table is cut at page `p`. -/

theorem mem_before_iff (hcut : table.entries = before ++ (p, entry) :: rest) :
    (q, other) ∈ before ↔ table.lookup q = some other ∧ q < p := by
  have hsorted := table.entries_pairwise
  rw [hcut, List.pairwise_append] at hsorted
  obtain ⟨-, htail, hacross⟩ := hsorted
  rw [← mem_entries, hcut, List.mem_append]
  constructor
  · intro hmem
    exact ⟨Or.inl hmem, hacross (q, other) hmem (p, entry) List.mem_cons_self⟩
  · rintro ⟨hmem | hmem, hlt⟩
    · exact hmem
    · rcases List.mem_cons.mp hmem with heq | hrest
      · cases heq
        exact absurd hlt (Nat.lt_irrefl p)
      · have hgt := (List.pairwise_cons.mp htail).1 (q, other) hrest
        exact absurd hlt (Nat.lt_asymm hgt)

theorem mem_tail_iff (hcut : table.entries = before ++ (p, entry) :: rest) :
    (q, other) ∈ (p, entry) :: rest ↔ table.lookup q = some other ∧ p ≤ q := by
  have hbefore : (q, other) ∈ before ↔ table.lookup q = some other ∧ q < p :=
    mem_before_iff hcut
  have hall : (q, other) ∈ before ∨ (q, other) ∈ (p, entry) :: rest ↔
      table.lookup q = some other := by
    rw [← mem_entries, hcut, List.mem_append]
  have hsorted := table.entries_pairwise
  rw [hcut, List.pairwise_append] at hsorted
  constructor
  · intro hmem
    refine ⟨hall.mp (Or.inr hmem), ?_⟩
    rcases List.mem_cons.mp hmem with heq | hrest
    · cases heq
      exact Nat.le_refl p
    · exact Nat.le_of_lt ((List.pairwise_cons.mp hsorted.2.1).1 (q, other) hrest)
  · rintro ⟨hlookup, hle⟩
    rcases hall.mpr hlookup with hmem | hmem
    · exact absurd (hbefore.mp hmem).2 (Nat.not_lt_of_le hle)
    · exact hmem

theorem lookup_shareFlags_before (hcut : table.entries = before ++ (p, entry) :: rest)
    (q : Nat) :
    (table.shareFlags before).lookup q =
      if q < p then (table.lookup q).map PageEntry.shared else table.lookup q := by
  have hsorted := table.entries_pairwise
  rw [hcut, List.pairwise_append] at hsorted
  rw [lookup_shareFlags hsorted.1 fun x hx => ((mem_before_iff hcut).mp hx).1]
  by_cases hlt : q < p
  · rw [if_pos hlt]
    split
    · rfl
    · rename_i hout
      cases hlookup : table.lookup q with
      | none => rfl
      | some other =>
          exact absurd (List.mem_map_of_mem ((mem_before_iff hcut).mpr ⟨hlookup, hlt⟩)) hout
  · rw [if_neg hlt, if_neg]
    intro hmem
    obtain ⟨⟨_, other⟩, hbefore, rfl⟩ := List.mem_map.mp hmem
    exact hlt ((mem_before_iff hcut).mp hbefore).2

/-- Without page `p` and all after it, a child has what was shared. -/
theorem lookup_kept (hcut : table.entries = before ++ (p, entry) :: rest) (q : Nat) :
    ((table.shareFlags before).without ((p, entry) :: rest)).lookup q =
      if q < p then (table.lookup q).map PageEntry.shared else none := by
  rw [lookup_without, lookup_shareFlags_before hcut]
  split
  · rename_i hmem
    obtain ⟨⟨_, other⟩, htail, rfl⟩ := List.mem_map.mp hmem
    exact (if_neg (Nat.not_lt_of_le ((mem_tail_iff hcut).mp htail).2)).symm
  · rename_i hout
    split
    · rfl
    · rename_i hlt
      cases hlookup : table.lookup q with
      | none => rfl
      | some other =>
          have htail := (mem_tail_iff hcut).mpr ⟨hlookup, Nat.le_of_not_lt hlt⟩
          exact absurd (List.mem_map_of_mem htail) hout

theorem frames_kept_perm (hcut : table.entries = before ++ (p, entry) :: rest) :
    ((table.shareFlags before).without ((p, entry) :: rest)).frames.Perm
      (before.map fun (_, entry) => entry.frame) := by
  have hsorted := table.entries_pairwise
  rw [hcut, List.pairwise_append] at hsorted
  have hperm : ((table.shareFlags before).without ((p, entry) :: rest)).entries.Perm
      (before.map fun (q, entry) => (q, entry.shared)) := by
    refine entries_perm (List.pairwise_map.mpr hsorted.1) ?_
    intro q other
    rw [lookup_kept hcut, List.mem_map]
    constructor
    · intro hlookup
      split at hlookup
      · rename_i hlt
        obtain ⟨old, hold, rfl⟩ := Option.map_eq_some_iff.mp hlookup
        exact ⟨(q, old), (mem_before_iff hcut).mpr ⟨hold, hlt⟩, rfl⟩
      · cases hlookup
    · rintro ⟨⟨q', old⟩, hmem, heq⟩
      cases heq
      obtain ⟨hold, hlt⟩ := (mem_before_iff hcut).mp hmem
      rw [if_pos hlt, hold, Option.map_some]
  have hframes := hperm.map fun (_, entry) => entry.frame
  rw [List.map_map] at hframes
  exact hframes

end PageTable

namespace Memory

variable {m after : Memory} {e : KernelError}

/-- A fork has failed at the first page, of those in order, whose frame is not in use. The
pages before it are shared, and nothing else is to be seen of the fork. -/
structure HalfForked (m : Memory) (e : KernelError) (after : Memory) : Prop where
  space_eq : after.space = { m.space with table := after.space.table }
  maxPages_eq : after.space.table.maxPages = m.space.table.maxPages
  mappedCount_eq : after.space.table.mappedCount = m.space.table.mappedCount
  pages : ∃ p entry, m.space.table.lookup p = some entry ∧ m.pool.refCount entry.frame = 0 ∧
    e = .frameNotAllocated entry.frame ∧
    (∀ q, q < p → m.space.table.SharesPage after.space.table q) ∧
    ∀ q, p ≤ q → after.space.table.lookup q = m.space.table.lookup q
  unchanged : m.pool.Unchanged after.pool

theorem fork_failed (hrun : m.fork = ⟨.error e, after⟩) : m.HalfForked e after := by
  rcases Sharing.pages_cases ⟨m.space.table, m.space.table, m.pool⟩ m.space.table.entries with
    ⟨pool, hpages, -⟩ | ⟨before, p, entry, rest, pool, hcut, hfree, hpages, hlends⟩
  · unfold fork at hrun
    dsimp only at hrun
    rw [hpages] at hrun
    cases hrun
  · unfold fork at hrun
    dsimp only at hrun
    rw [hpages] at hrun
    cases hrun
    have hpage := PageTable.lookup_shareFlags_before hcut
    refine ⟨rfl, PageTable.maxPages_shareFlags _ _, PageTable.mappedCount_shareFlags _ _,
      ⟨p, entry, ?_, hfree, rfl, ?_, ?_⟩, hlends.takeBack (PageTable.frames_kept_perm hcut)⟩
    · exact ((PageTable.mem_tail_iff hcut).mp List.mem_cons_self).1
    · intro q hlt
      exact PageTable.sharesPage_of_lookup ((hpage q).trans (if_pos hlt))
    · intro q hle
      exact (hpage q).trans (if_neg (Nat.not_lt_of_le hle))

/-- A fork goes through exactly when every mapped frame is in use. -/
theorem exists_fork_error_iff :
    (∃ e, m.fork.result = .error e) ↔
      ∃ p entry, m.space.table.lookup p = some entry ∧ m.pool.refCount entry.frame = 0 := by
  constructor
  · rintro ⟨e, herror⟩
    rcases hrun : m.fork with ⟨result, after⟩
    rw [hrun] at herror
    cases herror
    obtain ⟨p, entry, hlookup, hfree, -⟩ := (fork_failed hrun).pages
    exact ⟨p, entry, hlookup, hfree⟩
  · rintro ⟨p, entry, hlookup, hfree⟩
    unfold fork
    dsimp only
    rcases Sharing.pages_cases ⟨m.space.table, m.space.table, m.pool⟩ m.space.table.entries with
      ⟨pool, -, hlends⟩ | ⟨before, p, entry, rest, pool, -, -, hpages, -⟩
    · exact absurd hfree (hlends.busy _ (PageTable.frame_mem_frames hlookup))
    · rw [hpages]
      exact ⟨_, rfl⟩

/-- What fails leaves the pool as it was, and the space as well unless it is a fork. -/
structure FailsCleanly (m : Memory) : Prop where
  mapPage : ∀ a flags e after, m.mapPage a flags = ⟨.error e, after⟩ → m.Untouched after
  writeByte : ∀ a byte e after, m.writeByte a byte = ⟨.error e, after⟩ → m.Untouched after
  fork : ∀ e after, m.fork = ⟨.error e, after⟩ → m.HalfForked e after

/-- Whatever the pool refers to and the table maps, an operation that fails leaves nothing
half done. -/
theorem failsCleanly (m : Memory) (hbuilt : m.space.table.Built)
    (hcount : m.pool.freeCount = m.pool.freeFrames.card) : m.FailsCleanly where
  mapPage := by
    intro a flags e after hrun
    rw [mapPage_failed hrun]
    exact Untouched.refl m
  writeByte := fun a byte e after hrun => writeByte_failed hbuilt hcount hrun
  fork := fun e after hrun => fork_failed hrun

/-- Two pages on one frame of the kernel, and a third on a frame outside of memory. -/
theorem failsCleanly_damaged :
    ∃ m : Memory, m.space.table.Built ∧ m.pool.freeCount = m.pool.freeFrames.card ∧
      (∃ e, m.fork.result = .error e) ∧ m.FailsCleanly := by
  have hnew : 0 < (PageTable.new 4).maxPages := by decide
  obtain ⟨first, hfirst, hmax, -⟩ := PageTable.exists_map hnew 1 .userData
  have hlt : 1 < first.maxPages := by rw [hmax]; decide
  obtain ⟨second, hsecond, hmax', -⟩ := PageTable.exists_map hlt 1 .userData
  have hlt' : 2 < second.maxPages := by rw [hmax', hmax]; decide
  obtain ⟨third, hthird, -, hlookup, -⟩ := PageTable.exists_map hlt' 9 .userData
  let m : Memory := ⟨{ AddressSpace.new 16384 with table := third }, FramePool.new 4 2⟩
  have hbuilt : m.space.table.Built := (((PageTable.Built.new 4).map hfirst).map hsecond).map hthird
  have hcount := (FramePool.Backs.of_new 4 2).freeCount_eq
  have houtside : m.pool.refCount 9 = 0 :=
    FramePool.refCount_of_total_le (by rw [FramePool.total_new]; decide)
  exact ⟨m, hbuilt, hcount, exists_fork_error_iff.mpr ⟨2, _, hlookup, houtside⟩,
    failsCleanly m hbuilt hcount⟩

end Memory

end Kernelet
