import Mathlib.Data.List.Sigma
import Kernelet.Proofs.Memory.Places
import Kernelet.Proofs.Spaces.Balance

/-!
Exact accounts of a pool that several spaces share: a frame is referred to by
the kernel, or by as many pages of living spaces as its count says, and it is
free otherwise. Nothing leaks and nothing is freed too early, whatever the
history of the spaces was.
-/

namespace Kernelet.Spaces

/-- Page `p` of space `i` is mapped by `entry`. -/
def Maps (s : Spaces) (i p : Nat) (entry : PageEntry) : Prop :=
  ∃ space, s.space? i = some space ∧ space.table.lookup p = some entry

/-- The pages of living spaces that frame `f` is behind. -/
def placesOf (s : Spaces) (f : FrameId) : Set (Nat × Nat) :=
  {x | ∃ entry, s.Maps x.1 x.2 entry ∧ entry.frame = f}

/-- How many spaces live. -/
def liveCount (s : Spaces) : Nat :=
  s.slots.countP Option.isSome

/-- The pool and the tables of the living spaces agree. -/
structure Accounted (total reserved : Nat) (s : Spaces) : Prop where
  finite_placesOf : ∀ f, (s.placesOf f).Finite
  /-- A frame has one reference from the kernel, or one from each page. -/
  refCount_eq : ∀ f, s.pool.refCount f = if f < reserved then 1 else (s.placesOf f).ncard
  refCount_le : ∀ f, s.pool.refCount f ≤ max 1 s.liveCount
  frame_mem : ∀ i p entry, s.Maps i p entry → reserved ≤ entry.frame ∧ entry.frame < total
  page_unique : ∀ i p q entry other, s.Maps i p entry → s.Maps i q other →
    entry.frame = other.frame → p = q
  alone : ∀ i p entry, s.Maps i p entry → entry.flags.writable = true →
    s.pool.refCount entry.frame = 1
  freeCount_eq : s.pool.freeCount = total - reserved - {f | (s.placesOf f).Nonempty}.ncard

/-- The tables of the living spaces, each under the number of its space. -/
def keyedTables (s : Spaces) : List (Nat × PageTable) :=
  s.slots.zipIdx.filterMap fun (slot, i) => slot.map fun space => (i, space.table)

section Keyed

variable {s : Spaces} {i p : Nat} {entry : PageEntry} {table : PageTable}

theorem mem_keyedTables :
    (i, table) ∈ s.keyedTables ↔ ∃ space, s.space? i = some space ∧ space.table = table := by
  unfold keyedTables
  simp only [List.mem_filterMap, Option.map_eq_some_iff, Prod.mk.injEq, Prod.exists,
    List.mem_zipIdx_iff_getElem?, space?_eq_some_iff]
  constructor
  · rintro ⟨slot, j, hslot, space, rfl, rfl, rfl⟩
    exact ⟨space, hslot, rfl⟩
  · rintro ⟨space, hspace, rfl⟩
    exact ⟨some space, i, hspace, space, rfl, rfl, rfl⟩

theorem map_fst_keyedTables_nodup (s : Spaces) : (s.keyedTables.map Prod.fst).Nodup := by
  have hnumbers := List.pairwise_map.mp (List.nodup_zipIdx_map_snd s.slots)
  unfold keyedTables
  refine List.pairwise_map.mpr (List.Pairwise.filterMap _ ?_ hnumbers)
  rintro ⟨slot, j⟩ ⟨other, k⟩ hne x hx y hy
  obtain ⟨space, -, rfl⟩ := Option.map_eq_some_iff.mp hx
  obtain ⟨space, -, rfl⟩ := Option.map_eq_some_iff.mp hy
  exact hne

theorem map_snd_keyedTables (s : Spaces) : s.keyedTables.map Prod.snd = tablesIn s.slots := by
  have hslots := List.zipIdx_map_fst 0 s.slots
  unfold keyedTables tablesIn
  rw [List.map_filterMap]
  conv => rhs; rw [← hslots]
  rw [List.filterMap_map]
  congr 1
  funext x
  obtain ⟨slot, j⟩ := x
  cases slot with
  | none => rfl
  | some space => rfl

theorem placesOf_eq (s : Spaces) (f : FrameId) :
    s.placesOf f = Kernelet.placesOf s.keyedTables f := by
  ext ⟨j, q⟩
  constructor
  · rintro ⟨entry, ⟨space, hspace, hlookup⟩, hframe⟩
    exact ⟨space.table, mem_keyedTables.mpr ⟨space, hspace, rfl⟩, entry, hlookup, hframe⟩
  · rintro ⟨table, hmem, entry, hlookup, hframe⟩
    obtain ⟨space, hspace, rfl⟩ := mem_keyedTables.mp hmem
    exact ⟨entry, ⟨space, hspace, hlookup⟩, hframe⟩

theorem ncard_placesOf (s : Spaces) (f : FrameId) :
    (s.placesOf f).ncard = (namedFrames (tablesIn s.slots)).count f := by
  rw [placesOf_eq, Kernelet.ncard_placesOf s.map_fst_keyedTables_nodup, map_snd_keyedTables]

theorem ncard_placed (s : Spaces) :
    {f | (s.placesOf f).Nonempty}.ncard = (namedFrames (tablesIn s.slots)).toFinset.card := by
  simp only [placesOf_eq]
  rw [Kernelet.ncard_placed, map_snd_keyedTables]

theorem Maps.table_mem (h : s.Maps i p entry) :
    ∃ space, space.table ∈ tablesIn s.slots ∧ space.table.lookup p = some entry ∧
      s.space? i = some space := by
  obtain ⟨space, hspace, hlookup⟩ := h
  exact ⟨space, mem_tablesIn.mpr ⟨i, space, space?_eq_some_iff.mp hspace, rfl⟩, hlookup, hspace⟩

end Keyed

variable {total reserved : Nat} {s : Spaces}

/-- Each table names a frame at most once. -/
theorem count_le_length {tables : List PageTable} (h : Tidy tables) (f : FrameId) :
    (namedFrames tables).count f ≤ tables.length := by
  induction tables with
  | nil => simp
  | cons table rest ih =>
      have hrest := ih h.of_cons
      have hone := List.nodup_iff_count_le_one.mp (h.nodup table List.mem_cons_self) f
      rw [namedFrames_cons, List.count_append, List.length_cons]
      omega

theorem length_tablesIn (slots : List (Option AddressSpace)) :
    (tablesIn slots).length = slots.countP Option.isSome := by
  unfold tablesIn
  rw [List.length_filterMap_eq_countP]
  simp only [Option.isSome_map]

/-- Spaces in balance keep exact accounts. -/
theorem Fits.accounted (h : Fits total reserved s) : s.Accounted total reserved where
  finite_placesOf := by
    intro f
    rw [placesOf_eq]
    exact finite_placesOf s.keyedTables f
  refCount_eq := by
    intro f
    rw [h.backs.refCount_eq f, ncard_placesOf]
    by_cases hkept : f < reserved
    · rw [if_pos hkept, if_pos hkept, h.backs.count_of_lt_reserved hkept]
    · rw [if_neg hkept, if_neg hkept, Nat.zero_add]
  refCount_le := by
    intro f
    have hcount := count_le_length h.tidy f
    rw [length_tablesIn] at hcount
    rw [h.backs.refCount_eq f]
    by_cases hkept : f < reserved
    · rw [if_pos hkept, h.backs.count_of_lt_reserved hkept]
      exact Nat.le_max_left 1 _
    · rw [if_neg hkept, Nat.zero_add]
      exact Nat.le_trans hcount (Nat.le_max_right 1 _)
  frame_mem := by
    intro i p entry hmaps
    obtain ⟨space, hmem, hlookup, -⟩ := hmaps.table_mem
    have hnamed := frame_mem_namedFrames hmem hlookup
    exact ⟨h.backs.reserved_le_of_mem _ hnamed, h.backs.lt_total hnamed⟩
  page_unique := by
    intro i p q entry other hentry hother hframe
    obtain ⟨space, hmem, hp, hspace⟩ := hentry.table_mem
    obtain ⟨again, -, hq, hagain⟩ := hother.table_mem
    rw [hspace] at hagain
    cases hagain
    exact (PageTable.page_unique (h.tidy.nodup space.table hmem) hp hq hframe.symm).symm
  alone := by
    intro i p entry hmaps hwritable
    obtain ⟨space, hmem, hlookup, -⟩ := hmaps.table_mem
    exact h.refCount_of_writable hmem hlookup hwritable
  freeCount_eq := by
    have hall := h.backs.freeCount_add_reserved_add_card
    rw [ncard_placed]
    omega

/-- With no space left, only what the kernel keeps is in use. -/
theorem Fits.only_reserved (h : Fits total reserved s) (hnone : ∀ i, s.space? i = none) :
    s.pool.usedCount = reserved ∧ ∀ f, s.pool.isAllocated f = true ↔ f < reserved := by
  have hempty : tablesIn s.slots = [] := by
    rw [List.eq_nil_iff_forall_not_mem]
    intro table hmem
    obtain ⟨i, space, hi, -⟩ := mem_tablesIn.mp hmem
    have hspace := space?_eq_some_iff.mpr hi
    rw [hnone i] at hspace
    cases hspace
  have hbacks := h.backs
  rw [hempty, namedFrames_nil] at hbacks
  have hall := hbacks.freeCount_add_reserved_add_card
  rw [List.toFinset_nil, Finset.card_empty] at hall
  constructor
  · unfold FramePool.usedCount
    rw [hbacks.total_eq]
    omega
  · intro f
    have hcount := hbacks.refCount_eq f
    rw [List.count_nil] at hcount
    unfold FramePool.isAllocated
    rw [decide_eq_true_iff, hcount]
    by_cases hkept : f < reserved
    · simp [hkept]
    · simp [hkept]

theorem space?_drop {i j : Nat} {space : AddressSpace}
    (h : (s.drop i).2.space? j = some space) : j ≠ i ∧ s.space? j = some space := by
  unfold drop at h
  cases hspace : s.space? i with
  | none =>
      rw [hspace] at h
      refine ⟨?_, h⟩
      rintro rfl
      rw [hspace] at h
      cases h
  | some found =>
      rw [hspace] at h
      rw [space?_eq_some_iff] at h ⊢
      simp only [List.getElem?_set] at h
      by_cases hij : i = j
      · rw [if_pos hij] at h
        split at h <;> cases h
      · rw [if_neg hij] at h
        exact ⟨Ne.symm hij, h⟩

/-- Dropping every space that lives leaves none. -/
theorem space?_drops (order : List Nat)
    (h : ∀ i space, s.space? i = some space → i ∈ order) (i : Nat) :
    (s.serveAll (order.map .drop)).2.space? i = none := by
  induction order generalizing s with
  | nil =>
      cases hspace : s.space? i with
      | none => exact hspace
      | some space => cases h i space hspace
  | cons first rest ih =>
      apply ih
      intro j space hspace
      obtain ⟨hne, hold⟩ := space?_drop hspace
      exact (List.mem_cons.mp (h j space hold)).resolve_left hne

/-- After any history the accounts are exact, and letting all spaces go, in any
order, gives back everything but the frames of the kernel. -/
theorem accounted_serveAll {total reserved : Nat} (h : reserved ≤ total)
    (requests : List Request) :
    let s := ((boot total reserved).serveAll requests).2
    s.Accounted total reserved ∧
      ∀ order : List Nat, (∀ i space, s.space? i = some space → i ∈ order) →
        let after := (s.serveAll (order.map .drop)).2
        after.pool.usedCount = reserved ∧
          ∀ f, after.pool.isAllocated f = true ↔ f < reserved := by
  have hboot := boot_fits total reserved
  rw [Nat.min_eq_left h] at hboot
  have hfits := serveAll_fits hboot requests
  refine ⟨hfits.accounted, ?_⟩
  intro order horder
  exact (serveAll_fits hfits (order.map .drop)).only_reserved (space?_drops order horder)

/-- A parent that forks, a child that writes, and a parent that goes first. -/
theorem accounted_fork_write_drop :
    (1 ≤ 4) ∧
    let s := ((boot 4 1).serveAll [.create 8192, .access 0 (.map (VirtAddr.ofPage 0) .userData),
      .fork 0, .access 1 (.writeByte (VirtAddr.ofPage 0) 7), .drop 0]).2
    s.Accounted 4 1 ∧
      ∀ order : List Nat, (∀ i space, s.space? i = some space → i ∈ order) →
        let after := (s.serveAll (order.map .drop)).2
        after.pool.usedCount = 1 ∧ ∀ f, after.pool.isAllocated f = true ↔ f < 1 :=
  ⟨by decide, accounted_serveAll (by decide) _⟩

end Kernelet.Spaces
