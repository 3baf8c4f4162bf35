import Mathlib.Data.List.Forall2
import Kernelet.Proofs.Memory.Alike
import Kernelet.Proofs.Memory.CleanFailure

/-!
Tables of pages that differ in marks. A page that could be written directly in one may be
copy-on-write in the other (`PageEntry.Marks`), as it is when a fork has come and gone. Whatever
is done to both leaves tables that differ in marks at most (`PageTable.Marked`), and a page of
which both are given the same flags does not differ any more.

Beside them stand pools that count alike and hold the same in all frames that are in use
(`FramePool.Unchanged`), whatever they hold in the others. They hand out the same frames and go on
to be such pools.
-/

namespace Kernelet

/-- Both are there and related, or neither is there. -/
theorem option_cases {α β : Type} {R : α → β → Prop} {x : Option α} {y : Option β}
    (h : Option.Rel R x y) :
    (x = none ∧ y = none) ∨ ∃ a b, x = some a ∧ y = some b ∧ R a b := by
  cases h with
  | none => exact Or.inl ⟨rfl, rfl⟩
  | some hab => exact Or.inr ⟨_, _, rfl, rfl, hab⟩

namespace FramePool

variable {pool other after : FramePool} {f : FrameId}

theorem unchanged_iff_alike :
    pool.Unchanged other ↔ pool.Alike (fun f => pool.refCount f ≠ 0) other := by
  constructor
  · intro h
    exact ⟨h.total_eq, h.freeCount_eq, h.refCount_eq, h.bytesOf_eq⟩
  · intro h
    exact ⟨h.total_eq, h.freeCount_eq, h.refCount_eq, h.bytes_eq⟩

namespace Unchanged

theorem alike (h : pool.Unchanged other) : pool.Alike (fun f => pool.refCount f ≠ 0) other :=
  unchanged_iff_alike.mp h

theorem allocate_error {e : KernelError} (h : pool.Unchanged other)
    (hrun : pool.allocate = .error e) : other.allocate = .error e :=
  h.alike.allocate_error hrun

theorem allocate (h : pool.Unchanged other) (hrun : pool.allocate = .ok (f, after)) :
    ∃ next, other.allocate = .ok (f, next) ∧ after.Unchanged next := by
  obtain ⟨next, hnext, halike⟩ := h.alike.allocate hrun
  refine ⟨next, hnext, unchanged_iff_alike.mpr (halike.mono ?_)⟩
  intro g hbusy
  rw [refCount_allocate hrun] at hbusy
  split at hbusy
  · rename_i hself
    exact Or.inl hself
  · exact Or.inr hbusy

theorem share_error {e : KernelError} (h : pool.Unchanged other) (hrun : pool.share f = .error e) :
    other.share f = .error e :=
  h.alike.share_error hrun

theorem share (h : pool.Unchanged other) (hrun : pool.share f = .ok after) :
    ∃ next, other.share f = .ok next ∧ after.Unchanged next := by
  obtain ⟨next, hnext, halike⟩ := h.alike.share hrun
  refine ⟨next, hnext, unchanged_iff_alike.mpr (halike.mono ?_)⟩
  intro g hbusy
  rw [refCount_share hrun] at hbusy
  split at hbusy
  · rename_i hself
    intro hzero
    rw [← hself] at hzero
    rw [share_eq_error_iff.mpr ⟨rfl, hzero⟩] at hrun
    cases hrun
  · exact hbusy

theorem free (h : pool.Unchanged other) (f : FrameId) : (pool.free f).Unchanged (other.free f) := by
  refine unchanged_iff_alike.mpr ((h.alike.free f).mono ?_)
  intro g hbusy
  rw [refCount_free] at hbusy
  split at hbusy
  · omega
  · exact hbusy

theorem freeAll (h : pool.Unchanged other) (gone : List FrameId) :
    (pool.freeAll gone).Unchanged (other.freeAll gone) := by
  induction gone generalizing pool other with
  | nil => exact h
  | cons f rest ih => exact ih (h.free f)

theorem copyFrame_error {source target : FrameId} {e : KernelError} (h : pool.Unchanged other)
    (hrun : pool.copyFrame source target = .error e) :
    other.copyFrame source target = .error e :=
  h.alike.copyFrame_error hrun

/-- A copy of a frame that is in use holds the same in both. -/
theorem copyFrame {source target : FrameId} (h : pool.Unchanged other)
    (hsource : pool.refCount source ≠ 0) (hrun : pool.copyFrame source target = .ok after) :
    ∃ next, other.copyFrame source target = .ok next ∧ after.Unchanged next := by
  obtain ⟨next, hnext, halike⟩ := h.alike.copyFrame hrun
  refine ⟨next, hnext, unchanged_iff_alike.mpr (halike.mono ?_)⟩
  intro g hbusy
  rw [refCount_copyFrame hrun] at hbusy
  split
  · exact hsource
  · exact hbusy

theorem setByte (h : pool.Unchanged other) (a : PhysAddr) (byte : UInt8) :
    (pool.setByte a byte).Unchanged (other.setByte a byte) := by
  refine unchanged_iff_alike.mpr ((h.alike.setByte a fun _ => rfl).mono ?_)
  intro g hbusy
  rw [refCount_setByte] at hbusy
  exact hbusy

end Unchanged

end FramePool

/-! ### Entries and tables -/

namespace PageEntry

/-- The entry of a page that is copy-on-write, and cannot be written directly. -/
def marked (entry : PageEntry) : PageEntry :=
  { entry with flags := { entry.flags with writable := false, copyOnWrite := true } }

theorem frame_marked (entry : PageEntry) : entry.marked.frame = entry.frame := rfl

/-- The entry of a page, and the entry that it may have in the other memory: the same, or the one
with the mark if the page could be written directly. -/
inductive Marks (entry : PageEntry) : PageEntry → Prop
  | same : Marks entry entry
  | marked (hwritable : entry.flags.writable = true) : Marks entry entry.marked

variable {entry other : PageEntry}

theorem Marks.frame_eq (h : entry.Marks other) : other.frame = entry.frame := by
  cases h with
  | same => rfl
  | marked hwritable => rfl

/-- Once both pages are shared the difference is gone. -/
theorem Marks.shared_eq (h : entry.Marks other) :
    other.flags.shared.normalized = entry.flags.shared.normalized := by
  cases h with
  | same => rfl
  | marked hwritable =>
      obtain ⟨f, p, w, u, c⟩ := entry
      cases hwritable
      rfl

/-- Once both pages are private the difference is gone. -/
theorem Marks.owned_eq (h : entry.Marks other) :
    other.flags.owned.normalized = entry.flags.owned.normalized := by
  cases h with
  | same => rfl
  | marked hwritable => rfl

/-- A page that could be written directly is again as it was once its mark is taken off. -/
theorem owned_eq_self (hpresent : entry.flags.present = true)
    (hwritable : entry.flags.writable = true) (hcopy : entry.flags.copyOnWrite = false) :
    (⟨entry.frame, entry.flags.owned.normalized⟩ : PageEntry) = entry := by
  obtain ⟨f, p, w, u, c⟩ := entry
  cases hpresent
  cases hwritable
  cases hcopy
  rfl

/-- A fork leaves a page as it was, or marks it. -/
theorem marks_shared (hpresent : entry.flags.present = true) : entry.Marks entry.shared := by
  cases hwritable : entry.flags.writable with
  | true =>
      rw [shared_of_mayWrite hpresent (Or.inl hwritable)]
      exact Marks.marked hwritable
  | false =>
      have hsame : entry.shared = entry := by
        obtain ⟨f, p, w, u, c⟩ := entry
        cases hpresent
        cases hwritable
        cases c <;> rfl
      rw [hsame]
      exact Marks.same

end PageEntry

namespace PageTable

/-- The tables map the same pages to the same frames, and differ in marks at most. -/
structure Marked (table other : PageTable) : Prop where
  maxPages_eq : other.maxPages = table.maxPages
  lookup : ∀ p, Option.Rel PageEntry.Marks (table.lookup p) (other.lookup p)

namespace Marked

variable {table other after : PageTable} {p : Nat}

theorem refl (table : PageTable) : table.Marked table where
  maxPages_eq := rfl
  lookup := by
    intro p
    cases table.lookup p with
    | none => exact Option.Rel.none
    | some entry => exact Option.Rel.some PageEntry.Marks.same

/-- A page is mapped in both tables or in none. -/
theorem cases (h : table.Marked other) (p : Nat) :
    (table.lookup p = none ∧ other.lookup p = none) ∨
    ∃ entry entry', table.lookup p = some entry ∧ other.lookup p = some entry' ∧
      entry.Marks entry' :=
  option_cases (h.lookup p)

theorem isMapped_eq (h : table.Marked other) (p : Nat) : other.isMapped p = table.isMapped p := by
  unfold isMapped
  rcases h.cases p with ⟨hlookup, hother⟩ | ⟨entry, entry', hlookup, hother, -⟩
  · rw [hlookup, hother]
  · rw [hlookup, hother]
    rfl

theorem translate_eq (h : table.Marked other) (a : VirtAddr) :
    other.translate a = table.translate a := by
  unfold translate frame?
  rcases h.cases a.page with ⟨hlookup, hother⟩ | ⟨entry, entry', hlookup, hother, hmarks⟩
  · rw [hlookup, hother]
  · rw [hlookup, hother, Option.map_some, Option.map_some, hmarks.frame_eq]
    rfl

/-- The same page is mapped to the same frame with the same flags in both. -/
theorem map {frame : FrameId} {flags flags' : PageFlags} (h : table.Marked other)
    (hflags : flags'.normalized = flags.normalized) (hrun : table.map p frame flags = .ok after) :
    ∃ next, other.map p frame flags' = .ok next ∧ after.Marked next := by
  have hp : p < other.maxPages := by
    rw [h.maxPages_eq]
    refine Nat.lt_of_not_le fun hle => ?_
    rw [map_eq_error_iff.mpr ⟨hle, rfl⟩] at hrun
    cases hrun
  obtain ⟨next, hnext, hmax, -⟩ := exists_map hp frame flags'
  refine ⟨next, hnext, ?_, ?_⟩
  · rw [hmax, maxPages_map hrun, h.maxPages_eq]
  · intro q
    rw [lookup_map hrun, lookup_map hnext, PageEntry.new, PageEntry.new, hflags]
    split
    · exact Option.Rel.some PageEntry.Marks.same
    · exact h.lookup q

theorem map_error {frame : FrameId} {flags flags' : PageFlags} {e : KernelError}
    (h : table.Marked other) (hrun : table.map p frame flags = .error e) :
    other.map p frame flags' = .error e := by
  obtain ⟨hle, rfl⟩ := map_eq_error_iff.mp hrun
  exact map_eq_error_iff.mpr ⟨h.maxPages_eq.symm ▸ hle, rfl⟩

/-- A page of which both tables are given the same flags has the same entry in both. -/
theorem setFlags {flags flags' : PageFlags} (h : table.Marked other)
    (hflags : flags'.normalized = flags.normalized) :
    (table.setFlags p flags).2.Marked (other.setFlags p flags').2 where
  maxPages_eq := by
    rw [maxPages_setFlags, maxPages_setFlags, h.maxPages_eq]
  lookup := by
    intro q
    rw [lookup_setFlags, lookup_setFlags, hflags]
    split
    · rcases h.cases p with ⟨hlookup, hother⟩ | ⟨entry, entry', hlookup, hother, hmarks⟩
      · rw [hlookup, hother]
        exact Option.Rel.none
      · rw [hlookup, hother, Option.map_some, Option.map_some, hmarks.frame_eq]
        exact Option.Rel.some PageEntry.Marks.same
    · exact h.lookup q

theorem unmap (h : table.Marked other) (p : Nat) : (table.unmap p).2.Marked (other.unmap p).2 where
  maxPages_eq := by
    rw [maxPages_unmap, maxPages_unmap, h.maxPages_eq]
  lookup := by
    intro q
    rw [lookup_unmap, lookup_unmap]
    split
    · exact Option.Rel.none
    · exact h.lookup q

theorem clear (h : table.Marked other) : table.clear.Marked other.clear where
  maxPages_eq := h.maxPages_eq
  lookup := by
    intro q
    rw [lookup_clear, lookup_clear]
    exact Option.Rel.none

/-- The listings go side by side. -/
theorem entries (h : table.Marked other) :
    List.Forall₂ (fun x y => y.1 = x.1 ∧ PageEntry.Marks x.2 y.2) table.entries other.entries := by
  have hlisting : other.entries =
      table.entries.map fun x => (x.1, (other.lookup x.1).getD x.2) := by
    have hpages : (table.entries.map fun x => (x.1, (other.lookup x.1).getD x.2)).Pairwise
        fun a b => a.1 < b.1 := List.pairwise_map.mpr table.entries_pairwise
    refine (entries_perm hpages ?_).eq_of_pairwise ?_ other.entries_pairwise hpages
    · intro q entry'
      rw [List.mem_map]
      constructor
      · intro hother
        rcases h.cases q with ⟨-, hnone⟩ | ⟨entry, found, hlookup, hfound, -⟩
        · rw [hnone] at hother
          cases hother
        · refine ⟨(q, entry), mem_entries.mpr hlookup, ?_⟩
          rw [hother]
          rfl
      · rintro ⟨⟨p, entry⟩, hmem, heq⟩
        have hlookup := mem_entries.mp hmem
        rcases h.cases p with ⟨hnone, -⟩ | ⟨_, found, -, hfound, -⟩
        · rw [hnone] at hlookup
          cases hlookup
        · rw [hfound] at heq
          cases heq
          exact hfound
    · intro a b _ _ hab hba
      omega
  rw [hlisting, List.forall₂_map_right_iff, List.forall₂_same]
  rintro ⟨p, entry⟩ hmem
  refine ⟨rfl, ?_⟩
  have hlookup := mem_entries.mp hmem
  rcases h.cases p with ⟨hnone, -⟩ | ⟨found, entry', hfound, hother, hmarks⟩
  · rw [hnone] at hlookup
    cases hlookup
  · rw [hfound] at hlookup
    cases hlookup
    rw [hother]
    exact hmarks

theorem frames_eq (h : table.Marked other) : other.frames = table.frames := by
  unfold frames
  have hentries := h.entries
  generalize table.entries = pages at hentries
  generalize other.entries = pages' at hentries
  induction hentries with
  | nil => rfl
  | cons hfirst _ ih => exact congrArg₂ List.cons hfirst.2.frame_eq ih

end Marked

/-- A fork leaves a table as it was but for marks. -/
theorem marked_of_lookup {table after : PageTable} (hmax : after.maxPages = table.maxPages)
    (h : ∀ p, after.lookup p = (table.lookup p).map PageEntry.shared) : table.Marked after where
  maxPages_eq := hmax
  lookup := by
    intro p
    rw [h]
    cases hlookup : table.lookup p with
    | none => exact Option.Rel.none
    | some entry => exact Option.Rel.some (PageEntry.marks_shared (present_of_lookup hlookup))

end PageTable

end Kernelet
