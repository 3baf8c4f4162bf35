import Kernelet.Memory.PageTable.Lemmas

/-!
The frames that page tables name. A table names one frame for each page that it
maps. Storing an entry replaces one name and keeps all others
(`frames_perm_cons`, `framesOff_perm`), so that what an operation on one page
does to the names can be said with that page taken out of the table.

`Tidy` is what a collection of tables keeps among itself: no page beyond the
limit of its table, no frame named twice by one table, and no second name
anywhere for a frame behind a page that may be written directly.
-/

namespace Kernelet

namespace PageTable

variable {table after : PageTable} {p : Nat} {entry : PageEntry} {f : FrameId}

theorem entries_nodup (table : PageTable) : table.entries.Nodup := by
  refine table.entries_pairwise.imp ?_
  intro a b hlt heq
  rw [heq] at hlt
  exact Nat.lt_irrefl _ hlt

theorem mem_frames :
    f ∈ table.frames ↔ ∃ p entry, table.lookup p = some entry ∧ entry.frame = f := by
  unfold frames
  rw [List.mem_map]
  constructor
  · rintro ⟨⟨p, entry⟩, hmem, rfl⟩
    exact ⟨p, entry, mem_entries.mp hmem, rfl⟩
  · rintro ⟨p, entry, hlookup, rfl⟩
    exact ⟨(p, entry), mem_entries.mpr hlookup, rfl⟩

theorem frame_mem_frames (h : table.lookup p = some entry) : entry.frame ∈ table.frames :=
  mem_frames.mpr ⟨p, entry, h, rfl⟩

theorem frames_eq_nil (h : ∀ p, table.lookup p = none) : table.frames = [] := by
  rw [List.eq_nil_iff_forall_not_mem]
  intro f hf
  obtain ⟨p, entry, hlookup, -⟩ := mem_frames.mp hf
  rw [h p] at hlookup
  cases hlookup

/-- The frames behind all pages but `p`. -/
def framesOff (table : PageTable) (p : Nat) : List FrameId :=
  (table.entries.filter fun (q, _) => q != p).map fun (_, entry) => entry.frame

theorem mem_framesOff :
    f ∈ table.framesOff p ↔
      ∃ q entry, q ≠ p ∧ table.lookup q = some entry ∧ entry.frame = f := by
  unfold framesOff
  rw [List.mem_map]
  constructor
  · rintro ⟨⟨q, entry⟩, hmem, rfl⟩
    obtain ⟨hentry, hne⟩ := List.mem_filter.mp hmem
    exact ⟨q, entry, bne_iff_ne.mp hne, mem_entries.mp hentry, rfl⟩
  · rintro ⟨q, entry, hne, hlookup, rfl⟩
    exact ⟨(q, entry), List.mem_filter.mpr ⟨mem_entries.mpr hlookup, bne_iff_ne.mpr hne⟩, rfl⟩

theorem frames_perm_cons (h : table.lookup p = some entry) :
    table.frames.Perm (entry.frame :: table.framesOff p) := by
  have hperm : table.entries.Perm ((p, entry) :: table.entries.filter fun (q, _) => q != p) := by
    rw [List.perm_ext_iff_of_nodup table.entries_nodup]
    · rintro ⟨q, other⟩
      simp only [List.mem_cons, List.mem_filter, mem_entries, Prod.mk.injEq, bne_iff_ne]
      constructor
      · intro hother
        by_cases hqp : q = p
        · subst hqp
          rw [h] at hother
          exact Or.inl ⟨rfl, (Option.some.inj hother).symm⟩
        · exact Or.inr ⟨hother, hqp⟩
      · rintro (⟨rfl, rfl⟩ | ⟨hother, -⟩)
        · exact h
        · exact hother
    · rw [List.nodup_cons]
      refine ⟨?_, table.entries_nodup.filter _⟩
      simp
  exact hperm.map fun (_, entry) => entry.frame

theorem frames_perm_framesOff (h : table.lookup p = none) :
    table.frames.Perm (table.framesOff p) := by
  have hkeep : table.entries.filter (fun (q, _) => q != p) = table.entries := by
    rw [List.filter_eq_self]
    rintro ⟨q, entry⟩ hmem
    rw [bne_iff_ne]
    rintro rfl
    rw [mem_entries.mp hmem] at h
    cases h
  unfold framesOff
  rw [hkeep]
  exact List.Perm.refl _

theorem framesOff_sublist (table : PageTable) (p : Nat) :
    (table.framesOff p).Sublist table.frames :=
  List.filter_sublist.map _

/-- Tables that agree on all pages but `p` name the same frames there. -/
theorem framesOff_perm (h : ∀ q, p ≠ q → after.lookup q = table.lookup q) :
    (after.framesOff p).Perm (table.framesOff p) := by
  refine List.Perm.map _ ?_
  rw [List.perm_ext_iff_of_nodup (after.entries_nodup.filter _) (table.entries_nodup.filter _)]
  rintro ⟨q, entry⟩
  simp only [List.mem_filter, mem_entries, bne_iff_ne]
  constructor
  · rintro ⟨hentry, hne⟩
    exact ⟨h q (Ne.symm hne) ▸ hentry, hne⟩
  · rintro ⟨hentry, hne⟩
    exact ⟨(h q (Ne.symm hne)).symm ▸ hentry, hne⟩

/-- A list of pages in order that holds what a table finds is the listing of that table. -/
theorem entries_perm {pages : List (Nat × PageEntry)}
    (hpages : pages.Pairwise fun a b => a.1 < b.1)
    (h : ∀ q other, table.lookup q = some other ↔ (q, other) ∈ pages) :
    table.entries.Perm pages := by
  rw [List.perm_ext_iff_of_nodup table.entries_nodup]
  · rintro ⟨q, other⟩
    rw [mem_entries, h]
  · refine hpages.imp ?_
    intro a b hlt heq
    rw [heq] at hlt
    exact Nat.lt_irrefl _ hlt

/-- Changing entries without changing their frames changes no name. -/
theorem frames_perm_of_lookup_map {change : PageEntry → PageEntry}
    (hchange : ∀ entry, (change entry).frame = entry.frame)
    (h : ∀ q, after.lookup q = (table.lookup q).map change) :
    after.frames.Perm table.frames := by
  have hperm : after.entries.Perm (table.entries.map fun (q, entry) => (q, change entry)) := by
    refine entries_perm (List.pairwise_map.mpr table.entries_pairwise) ?_
    intro q entry
    simp only [h, List.mem_map, Option.map_eq_some_iff, Prod.mk.injEq, Prod.exists, mem_entries]
    constructor
    · rintro ⟨old, hold, rfl⟩
      exact ⟨q, old, hold, rfl, rfl⟩
    · rintro ⟨q', old, hold, rfl, rfl⟩
      exact ⟨old, hold, rfl⟩
  have hframes := hperm.map fun (_, entry) => entry.frame
  rw [List.map_map] at hframes
  have hsame : (fun (_, entry) => entry.frame) ∘ (fun (q, entry) => (q, change entry)) =
      fun (x : Nat × PageEntry) => x.2.frame := by
    funext x
    exact hchange x.2
  rw [hsame] at hframes
  exact hframes

/-- In a table without double names a frame tells its page. -/
theorem page_unique (hnodup : table.frames.Nodup) {q : Nat} {other : PageEntry}
    (h : table.lookup p = some entry) (hother : table.lookup q = some other)
    (hframe : other.frame = entry.frame) : q = p := by
  have hsplit := (frames_perm_cons h).nodup_iff.mp hnodup
  rw [List.nodup_cons] at hsplit
  by_cases hqp : q = p
  · exact hqp
  · exact absurd (mem_framesOff.mpr ⟨q, other, hqp, hother, hframe⟩) hsplit.1

end PageTable

/-- The frames that some tables name, once for each page that names them. -/
def namedFrames (tables : List PageTable) : List FrameId :=
  tables.flatMap PageTable.frames

@[simp] theorem namedFrames_nil : namedFrames [] = [] := rfl

@[simp] theorem namedFrames_cons (table : PageTable) (tables : List PageTable) :
    namedFrames (table :: tables) = table.frames ++ namedFrames tables := rfl

theorem namedFrames_perm {tables other : List PageTable} (h : tables.Perm other) :
    (namedFrames tables).Perm (namedFrames other) :=
  h.flatMap_right _

theorem frame_mem_namedFrames {tables : List PageTable} {table : PageTable} {p : Nat}
    {entry : PageEntry} (hmem : table ∈ tables) (h : table.lookup p = some entry) :
    entry.frame ∈ namedFrames tables :=
  List.mem_flatMap.mpr ⟨table, hmem, PageTable.frame_mem_frames h⟩

/-- What the tables over one pool keep among themselves. -/
structure Tidy (tables : List PageTable) : Prop where
  lt_maxPages : ∀ table ∈ tables, ∀ p entry,
    table.lookup p = some entry → p < table.maxPages
  nodup : ∀ table ∈ tables, table.frames.Nodup
  alone : ∀ table ∈ tables, ∀ p entry, table.lookup p = some entry →
    entry.flags.writable = true → (namedFrames tables).count entry.frame = 1

namespace Tidy

variable {tables other : List PageTable} {table after : PageTable} {p : Nat}

theorem perm (h : Tidy tables) (hperm : tables.Perm other) : Tidy other where
  lt_maxPages := by
    intro table hmem
    exact h.lt_maxPages table (hperm.mem_iff.mpr hmem)
  nodup := by
    intro table hmem
    exact h.nodup table (hperm.mem_iff.mpr hmem)
  alone := by
    intro table hmem p entry hlookup hwritable
    rw [← (namedFrames_perm hperm).count_eq]
    exact h.alone table (hperm.mem_iff.mpr hmem) p entry hlookup hwritable

theorem nil : Tidy [] where
  lt_maxPages := by simp
  nodup := by simp
  alone := by simp

/-- An empty table neither names nor maps anything. -/
theorem cons_empty (h : Tidy tables) (hempty : ∀ p, table.lookup p = none) :
    Tidy (table :: tables) where
  lt_maxPages := by
    intro other hmem p entry hlookup
    rcases List.mem_cons.mp hmem with rfl | hold
    · rw [hempty p] at hlookup
      cases hlookup
    · exact h.lt_maxPages other hold p entry hlookup
  nodup := by
    intro other hmem
    rcases List.mem_cons.mp hmem with rfl | hold
    · rw [PageTable.frames_eq_nil hempty]
      exact List.nodup_nil
    · exact h.nodup other hold
  alone := by
    intro other hmem p entry hlookup hwritable
    rcases List.mem_cons.mp hmem with rfl | hold
    · rw [hempty p] at hlookup
      cases hlookup
    · rw [namedFrames_cons, PageTable.frames_eq_nil hempty, List.nil_append]
      exact h.alone other hold p entry hlookup hwritable

/-- Tables stay tidy when one of them goes. -/
theorem of_cons (h : Tidy (table :: tables)) : Tidy tables where
  lt_maxPages := by
    intro other hmem
    exact h.lt_maxPages other (List.mem_cons_of_mem table hmem)
  nodup := by
    intro other hmem
    exact h.nodup other (List.mem_cons_of_mem table hmem)
  alone := by
    intro other hmem p entry hlookup hwritable
    have hone := h.alone other (List.mem_cons_of_mem table hmem) p entry hlookup hwritable
    have hpos := List.count_pos_iff.mpr (frame_mem_namedFrames hmem hlookup)
    rw [namedFrames_cons, List.count_append] at hone
    omega

/-- One page of a table comes to name a frame that nothing else names. -/
theorem replace (h : Tidy (table :: tables)) {entry : PageEntry}
    (hmax : after.maxPages = table.maxPages) (hp : p < table.maxPages)
    (hpage : after.lookup p = some entry)
    (hrest : ∀ q, p ≠ q → after.lookup q = table.lookup q)
    (hfresh : entry.frame ∉ table.framesOff p ++ namedFrames tables) :
    Tidy (after :: tables) := by
  have hframes : after.frames.Perm (entry.frame :: table.framesOff p) :=
    (PageTable.frames_perm_cons hpage).trans ((PageTable.framesOff_perm hrest).cons _)
  -- A frame that stays was named once before, and the new name is not its own.
  have hstays : ∀ f, f ∈ table.framesOff p ++ namedFrames tables →
      (namedFrames (table :: tables)).count f = 1 →
      (namedFrames (after :: tables)).count f = 1 := by
    intro f hmem hone
    have hne : entry.frame ≠ f := fun heq => hfresh (heq ▸ hmem)
    have hpos := List.count_pos_iff.mpr hmem
    have hle := (table.framesOff_sublist p).count_le f
    rw [namedFrames_cons, List.count_append] at hone
    rw [List.count_append] at hpos
    rw [namedFrames_cons, List.count_append, hframes.count_eq, List.count_cons_of_ne hne]
    omega
  constructor
  · intro other hmem q found hlookup
    rcases List.mem_cons.mp hmem with rfl | hold
    · rw [hmax]
      by_cases hpq : p = q
      · exact hpq ▸ hp
      · rw [hrest q hpq] at hlookup
        exact h.lt_maxPages table List.mem_cons_self q found hlookup
    · exact h.lt_maxPages other (List.mem_cons_of_mem table hold) q found hlookup
  · intro other hmem
    rcases List.mem_cons.mp hmem with rfl | hold
    · rw [hframes.nodup_iff, List.nodup_cons]
      refine ⟨fun hoff => hfresh (List.mem_append_left _ hoff), ?_⟩
      exact (h.nodup table List.mem_cons_self).sublist (table.framesOff_sublist p)
    · exact h.nodup other (List.mem_cons_of_mem table hold)
  · intro other hmem q found hlookup hwritable
    rcases List.mem_cons.mp hmem with rfl | hold
    · by_cases hpq : p = q
      · subst hpq
        rw [hpage] at hlookup
        cases hlookup
        have hzero := List.count_eq_zero.mpr hfresh
        rw [List.count_append] at hzero
        rw [namedFrames_cons, List.count_append, hframes.count_eq, List.count_cons_self]
        omega
      · have hkept := hrest q hpq ▸ hlookup
        apply hstays
        · exact List.mem_append_left _
            (PageTable.mem_framesOff.mpr ⟨q, found, Ne.symm hpq, hkept, rfl⟩)
        · exact h.alone table List.mem_cons_self q found hkept hwritable
    · apply hstays
      · exact List.mem_append_right _ (frame_mem_namedFrames hold hlookup)
      · exact h.alone other (List.mem_cons_of_mem table hold) q found hlookup hwritable

/-- A second table comes to name what the first one names, and neither may
write any of it directly. -/
theorem share (h : Tidy (table :: tables)) {child : PageTable} {change : PageEntry → PageEntry}
    (hchange : ∀ entry, (change entry).frame = entry.frame)
    (hlocked : ∀ entry, (change entry).flags.writable = false)
    (hmax : after.maxPages = table.maxPages) (hmaxChild : child.maxPages = table.maxPages)
    (hafter : ∀ q, after.lookup q = (table.lookup q).map change)
    (hchild : ∀ q, child.lookup q = (table.lookup q).map change) :
    Tidy (after :: child :: tables) := by
  have hone : ∀ copy : PageTable, copy.maxPages = table.maxPages →
      (∀ q, copy.lookup q = (table.lookup q).map change) →
      (∀ q entry, copy.lookup q = some entry → q < copy.maxPages) ∧ copy.frames.Nodup ∧
        ∀ q entry, copy.lookup q = some entry → entry.flags.writable = false := by
    intro copy hcopyMax hcopy
    refine ⟨?_, ?_, ?_⟩
    · intro q entry hlookup
      rw [hcopy] at hlookup
      obtain ⟨old, hold, -⟩ := Option.map_eq_some_iff.mp hlookup
      rw [hcopyMax]
      exact h.lt_maxPages table List.mem_cons_self q old hold
    · rw [(PageTable.frames_perm_of_lookup_map hchange hcopy).nodup_iff]
      exact h.nodup table List.mem_cons_self
    · intro q entry hlookup
      rw [hcopy] at hlookup
      obtain ⟨old, -, rfl⟩ := Option.map_eq_some_iff.mp hlookup
      exact hlocked old
  obtain ⟨hafterMax, hafterNodup, hafterLocked⟩ := hone after hmax hafter
  obtain ⟨hchildMax, hchildNodup, hchildLocked⟩ := hone child hmaxChild hchild
  constructor
  · intro other hmem
    rcases List.mem_cons.mp hmem with rfl | hmem
    · exact hafterMax
    · rcases List.mem_cons.mp hmem with rfl | hold
      · exact hchildMax
      · exact h.lt_maxPages other (List.mem_cons_of_mem table hold)
  · intro other hmem
    rcases List.mem_cons.mp hmem with rfl | hmem
    · exact hafterNodup
    · rcases List.mem_cons.mp hmem with rfl | hold
      · exact hchildNodup
      · exact h.nodup other (List.mem_cons_of_mem table hold)
  · intro other hmem q entry hlookup hwritable
    rcases List.mem_cons.mp hmem with rfl | hmem
    · rw [hafterLocked q entry hlookup] at hwritable
      cases hwritable
    · rcases List.mem_cons.mp hmem with rfl | hold
      · rw [hchildLocked q entry hlookup] at hwritable
        cases hwritable
      · have honce := h.alone other (List.mem_cons_of_mem table hold) q entry hlookup hwritable
        have hpos := List.count_pos_iff.mpr (frame_mem_namedFrames hold hlookup)
        rw [namedFrames_cons, List.count_append] at honce
        rw [namedFrames_cons, namedFrames_cons, List.count_append, List.count_append,
          (PageTable.frames_perm_of_lookup_map hchange hafter).count_eq,
          (PageTable.frames_perm_of_lookup_map hchange hchild).count_eq]
        omega

end Tidy

end Kernelet
