import Mathlib.Data.Set.Card
import Kernelet.Proofs.Memory.NamedFrames

/-!
The same books kept in two ways. `namedFrames` lists a frame once for each
entry that names it; here the entries are counted as places, that is as pairs of
a page and the key of the table that maps it. Where each table has a key of its
own, both give the same number.
-/

namespace Kernelet

/-- The pages that a table backs with frame `f`. -/
def PageTable.pagesOf (table : PageTable) (f : FrameId) : Set Nat :=
  {p | ∃ entry, table.lookup p = some entry ∧ entry.frame = f}

theorem PageTable.finite_pagesOf (table : PageTable) (f : FrameId) : (table.pagesOf f).Finite := by
  apply (table.entries.map Prod.fst).finite_toSet.subset
  rintro p ⟨entry, hlookup, -⟩
  exact List.mem_map.mpr ⟨(p, entry), mem_entries.mpr hlookup, rfl⟩

theorem PageTable.ncard_pagesOf (table : PageTable) (f : FrameId) :
    (table.pagesOf f).ncard = table.frames.count f := by
  have hnodup : ((table.entries.filter fun x => x.2.frame == f).map Prod.fst).Nodup := by
    have hpages : (table.entries.map Prod.fst).Nodup := by
      refine (List.pairwise_map.mpr table.entries_pairwise).imp ?_
      intro a b hlt
      exact Nat.ne_of_lt hlt
    exact hpages.sublist (List.filter_sublist.map _)
  have hset : table.pagesOf f =
      ((table.entries.filter fun x => x.2.frame == f).map Prod.fst).toFinset := by
    ext p
    simp only [pagesOf, Set.mem_ofPred_eq, List.coe_toFinset, List.mem_map, List.mem_filter,
      beq_iff_eq]
    constructor
    · rintro ⟨entry, hlookup, hframe⟩
      exact ⟨(p, entry), ⟨mem_entries.mpr hlookup, hframe⟩, rfl⟩
    · rintro ⟨⟨q, entry⟩, ⟨hmem, hframe⟩, rfl⟩
      exact ⟨entry, mem_entries.mp hmem, hframe⟩
  rw [hset, Set.ncard_coe_finset, List.toFinset_card_of_nodup hnodup, List.length_map, frames,
    List.count, List.countP_map, List.countP_eq_length_filter]
  rfl

section Keyed

variable {κ : Type} {keyed : List (κ × PageTable)} {f : FrameId}

/-- The places at which tables, each under its key, name frame `f`. -/
def placesOf (keyed : List (κ × PageTable)) (f : FrameId) : Set (κ × Nat) :=
  {x | ∃ table, (x.1, table) ∈ keyed ∧ x.2 ∈ table.pagesOf f}

theorem placesOf_nil : placesOf ([] : List (κ × PageTable)) f = ∅ := by
  simp [placesOf]

theorem placesOf_cons (key : κ) (table : PageTable) :
    placesOf ((key, table) :: keyed) f = Prod.mk key '' table.pagesOf f ∪ placesOf keyed f := by
  ext ⟨k, p⟩
  simp only [placesOf, Set.mem_ofPred_eq, Set.mem_union, Set.mem_image, List.mem_cons,
    Prod.mk.injEq]
  constructor
  · rintro ⟨found, ⟨rfl, rfl⟩ | hold, hp⟩
    · exact Or.inl ⟨p, hp, rfl, rfl⟩
    · exact Or.inr ⟨found, hold, hp⟩
  · rintro (⟨q, hq, rfl, rfl⟩ | ⟨found, hold, hp⟩)
    · exact ⟨table, Or.inl ⟨rfl, rfl⟩, hq⟩
    · exact ⟨found, Or.inr hold, hp⟩

theorem finite_placesOf (keyed : List (κ × PageTable)) (f : FrameId) :
    (placesOf keyed f).Finite := by
  induction keyed with
  | nil =>
      rw [placesOf_nil]
      exact Set.finite_empty
  | cons x rest ih =>
      rw [placesOf_cons]
      exact ((x.2.finite_pagesOf f).image _).union ih

/-- As many places name a frame as the list of names counts. -/
theorem ncard_placesOf (hkeys : (keyed.map Prod.fst).Nodup) :
    (placesOf keyed f).ncard = (namedFrames (keyed.map Prod.snd)).count f := by
  induction keyed with
  | nil =>
      rw [placesOf_nil, Set.ncard_empty]
      rfl
  | cons x rest ih =>
      obtain ⟨key, table⟩ := x
      obtain ⟨hnew, hrest⟩ := List.nodup_cons.mp hkeys
      have hdisjoint : Disjoint (Prod.mk key '' table.pagesOf f) (placesOf rest f) := by
        rw [Set.disjoint_left]
        rintro _ ⟨p, -, rfl⟩ ⟨found, hmem, -⟩
        exact hnew (List.mem_map.mpr ⟨(key, found), hmem, rfl⟩)
      have himage := Set.ncard_image_of_injective (table.pagesOf f) (Prod.mk_right_injective key)
      rw [placesOf_cons, Set.ncard_union_eq hdisjoint ((table.finite_pagesOf f).image _)
        (finite_placesOf rest f), himage, table.ncard_pagesOf, ih hrest, List.map_cons,
        namedFrames_cons, List.count_append]

theorem mem_namedFrames_iff :
    f ∈ namedFrames (keyed.map Prod.snd) ↔ (placesOf keyed f).Nonempty := by
  unfold namedFrames
  rw [List.mem_flatMap]
  constructor
  · rintro ⟨table, hmem, hf⟩
    obtain ⟨⟨key, table⟩, hkeyed, rfl⟩ := List.mem_map.mp hmem
    obtain ⟨p, entry, hlookup, hframe⟩ := PageTable.mem_frames.mp hf
    exact ⟨(key, p), table, hkeyed, entry, hlookup, hframe⟩
  · rintro ⟨⟨key, p⟩, table, hkeyed, entry, hlookup, hframe⟩
    exact ⟨table, List.mem_map.mpr ⟨_, hkeyed, rfl⟩,
      PageTable.mem_frames.mpr ⟨p, entry, hlookup, hframe⟩⟩

/-- As many frames are named somewhere as the list of names has different
frames. -/
theorem ncard_placed : {f | (placesOf keyed f).Nonempty}.ncard =
    (namedFrames (keyed.map Prod.snd)).toFinset.card := by
  rw [← Set.ncard_coe_finset]
  congr 1
  ext f
  rw [List.coe_toFinset, Set.mem_ofPred_eq, Set.mem_ofPred_eq, mem_namedFrames_iff]

end Keyed

end Kernelet
