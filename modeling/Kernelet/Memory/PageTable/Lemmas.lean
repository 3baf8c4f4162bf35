import Kernelet.Memory.PageTable

/-!
What the operations of a page table do to the finite map that it stands for.
Storing an entry changes the answer for its own page and for no other
(`slot_store`), from which the effect of `map`, `unmap`, `setFlags` and `clear`
on `lookup` follows. The listing of a table holds exactly the pages that
`lookup` finds (`mem_entries`), each once and in ascending order
(`entries_pairwise`).
-/

namespace Kernelet

/-- A page is determined by its leaf and its position there. -/
theorem leafPlace_mul_add_leafIndex (p : Nat) :
    leafPlace p * leafSize + (leafIndex p).val = p :=
  Nat.div_add_mod' p leafSize

theorem leafPlace_mul_add (d : Nat) {i : Nat} (h : i < leafSize) :
    leafPlace (d * leafSize + i) = d := by
  rw [leafPlace, Nat.mul_comm, Nat.mul_add_div leafSize_pos, Nat.div_eq_of_lt h, Nat.add_zero]

namespace PageTable

theorem leaf_store (table : PageTable) (p : Nat) (entry : PageEntry) (d : Nat) :
    (table.store p entry).leaf d =
      if leafPlace p = d then (table.leaf d).put p entry else table.leaf d := by
  unfold leaf store
  rw [Std.ExtTreeMap.getElem?_insert]
  by_cases h : leafPlace p = d
  · subst h
    rw [if_pos (Nat.compare_eq_eq.2 rfl), if_pos rfl]
    rfl
  · rw [if_neg (fun he => h (Nat.compare_eq_eq.1 he)), if_neg h]

/-- Storing an entry changes what is stored for its own page and no other. -/
theorem slot_store (table : PageTable) (p q : Nat) (entry : PageEntry) :
    (table.store p entry).slot q = if p = q then entry else table.slot q := by
  unfold slot
  rw [leaf_store]
  by_cases hplace : leafPlace p = leafPlace q
  · rw [if_pos hplace, Leaf.put, Fin.getElem_fin, Fin.getElem_fin, Vector.getElem_set]
    have hpage : (leafIndex p).val = (leafIndex q).val ↔ p = q := by
      constructor
      · intro hindex
        rw [← leafPlace_mul_add_leafIndex p, hplace, hindex, leafPlace_mul_add_leafIndex]
      · rintro rfl
        rfl
    by_cases hpq : p = q
    · rw [if_pos (hpage.2 hpq), if_pos hpq]
    · rw [if_neg (fun h => hpq (hpage.1 h)), if_neg hpq]
  · have hpq : p ≠ q := fun h => hplace (congrArg leafPlace h)
    rw [if_neg hplace, if_neg hpq]

theorem lookup_store (table : PageTable) (p q : Nat) (entry : PageEntry) :
    (table.store p entry).lookup q =
      if p = q then (if entry.flags.present then some entry else none)
      else table.lookup q := by
  unfold lookup
  rw [slot_store]
  split <;> rfl

theorem isMapped_eq_false_iff {table : PageTable} {p : Nat} :
    table.isMapped p = false ↔ table.lookup p = none := by
  unfold isMapped
  rw [Option.isSome_eq_false_iff, Option.isNone_iff_eq_none]

theorem slot_of_directory_eq_empty {table : PageTable} (h : table.directory = ∅) (p : Nat) :
    table.slot p = PageEntry.empty := by
  unfold slot leaf
  rw [h, Std.ExtTreeMap.getElem?_empty, Option.getD_none, Fin.getElem_fin]
  exact Vector.getElem_replicate _

theorem lookup_of_directory_eq_empty {table : PageTable} (h : table.directory = ∅) (p : Nat) :
    table.lookup p = none := by
  unfold lookup
  rw [slot_of_directory_eq_empty h]
  rfl

@[simp] theorem lookup_new (maxPages p : Nat) : (new maxPages).lookup p = none :=
  lookup_of_directory_eq_empty rfl p

@[simp] theorem lookup_clear (table : PageTable) (p : Nat) : table.clear.lookup p = none :=
  lookup_of_directory_eq_empty rfl p

@[simp] theorem lookup_withCount (table : PageTable) (count p : Nat) :
    { table with mappedCount := count }.lookup p = table.lookup p := rfl

/-- A page below the limit can always be mapped, and no other can. -/
theorem map_eq_error_iff {table : PageTable} {p : Nat} {frame : FrameId} {flags : PageFlags}
    {e : KernelError} :
    table.map p frame flags = .error e ↔
      table.maxPages ≤ p ∧ e = .addressOutOfRange (VirtAddr.ofPage p) := by
  unfold map
  by_cases h : p < table.maxPages
  · rw [if_pos h]
    constructor
    · intro he
      cases he
    · intro he
      omega
  · rw [if_neg h]
    constructor
    · intro he
      cases he
      exact ⟨Nat.le_of_not_lt h, rfl⟩
    · rintro ⟨-, rfl⟩
      rfl

theorem lookup_map {table after : PageTable} {p : Nat} {frame : FrameId} {flags : PageFlags}
    (h : table.map p frame flags = .ok after) (q : Nat) :
    after.lookup q = if p = q then some (PageEntry.new frame flags) else table.lookup q := by
  unfold map at h
  split at h
  · cases h
    rw [lookup_withCount, lookup_store]
    rfl
  · cases h

theorem maxPages_map {table after : PageTable} {p : Nat} {frame : FrameId} {flags : PageFlags}
    (h : table.map p frame flags = .ok after) : after.maxPages = table.maxPages := by
  unfold map at h
  split at h
  · cases h
    rfl
  · cases h

/-- Below the limit a page can be mapped, and no other page notices. -/
theorem exists_map {table : PageTable} {p : Nat} (h : p < table.maxPages) (frame : FrameId)
    (flags : PageFlags) :
    ∃ after, table.map p frame flags = .ok after ∧ after.maxPages = table.maxPages ∧
      after.lookup p = some (PageEntry.new frame flags) ∧
      ∀ q, p ≠ q → after.lookup q = table.lookup q := by
  cases hrun : table.map p frame flags with
  | error e => exact absurd h (Nat.not_lt_of_le (map_eq_error_iff.1 hrun).1)
  | ok after =>
    have hlookup := lookup_map hrun
    exact ⟨after, rfl, maxPages_map hrun, (hlookup p).trans (if_pos rfl),
      fun q hq => (hlookup q).trans (if_neg hq)⟩

theorem unmap_fst (table : PageTable) (p : Nat) : (table.unmap p).1 = table.lookup p := by
  unfold unmap
  split
  · rename_i entry h
    exact h.symm
  · rename_i h
    exact h.symm

theorem lookup_unmap (table : PageTable) (p q : Nat) :
    (table.unmap p).2.lookup q = if p = q then none else table.lookup q := by
  unfold unmap
  split
  · rw [lookup_withCount, lookup_store]
    rfl
  · rename_i h
    split
    · rename_i hpq
      rw [← hpq]
      exact h
    · rfl

@[simp] theorem maxPages_unmap (table : PageTable) (p : Nat) :
    (table.unmap p).2.maxPages = table.maxPages := by
  unfold unmap
  split
  · rfl
  · rfl

theorem setFlags_fst (table : PageTable) (p : Nat) (flags : PageFlags) :
    (table.setFlags p flags).1 = table.isMapped p := by
  unfold setFlags isMapped
  split
  · rename_i entry h
    rw [h]
    rfl
  · rename_i h
    rw [h]
    rfl

theorem lookup_setFlags (table : PageTable) (p q : Nat) (flags : PageFlags) :
    (table.setFlags p flags).2.lookup q =
      if p = q then (table.lookup p).map fun entry => { entry with flags := flags.normalized }
      else table.lookup q := by
  unfold setFlags
  split
  · rename_i entry h
    rw [lookup_store, h]
    rfl
  · rename_i h
    split
    · rename_i hpq
      rw [← hpq, h]
      rfl
    · rfl

@[simp] theorem maxPages_setFlags (table : PageTable) (p : Nat) (flags : PageFlags) :
    (table.setFlags p flags).2.maxPages = table.maxPages := by
  unfold setFlags
  split
  · rfl
  · rfl

/-- The counter of a table moves with the mapping of one page. -/
theorem mappedCount_of_map {table after : PageTable} {p : Nat} {frame : FrameId}
    {flags : PageFlags} (h : table.map p frame flags = .ok after) :
    after.mappedCount =
      if (table.lookup p).isSome then table.mappedCount else table.mappedCount + 1 := by
  unfold map at h
  split at h
  · cases h
    rfl
  · cases h

theorem mappedCount_unmap (table : PageTable) (p : Nat) :
    (table.unmap p).2.mappedCount =
      if (table.lookup p).isSome then table.mappedCount - 1 else table.mappedCount := by
  unfold unmap
  split
  · rename_i hlookup
    rw [hlookup]
    rfl
  · rename_i hlookup
    rw [hlookup]
    rfl

@[simp] theorem mappedCount_setFlags (table : PageTable) (p : Nat) (flags : PageFlags) :
    (table.setFlags p flags).2.mappedCount = table.mappedCount := by
  unfold setFlags
  split
  · rfl
  · rfl

/-- A leaf that holds a mapped page has come into being. -/
theorem leafPlace_mem_keys {table : PageTable} {p : Nat} {entry : PageEntry}
    (h : table.lookup p = some entry) : leafPlace p ∈ table.directory.keys := by
  rw [Std.ExtTreeMap.mem_keys, Std.ExtTreeMap.mem_iff_isSome_getElem?]
  cases hleaf : table.directory[leafPlace p]? with
  | some leaf => rfl
  | none =>
    have hslot : table.slot p = PageEntry.empty := by
      unfold slot PageTable.leaf
      rw [hleaf, Option.getD_none, Fin.getElem_fin]
      exact Vector.getElem_replicate _
    unfold lookup at h
    rw [hslot] at h
    cases h

theorem mem_leafEntries {table : PageTable} {d p : Nat} {entry : PageEntry} :
    (p, entry) ∈ table.leafEntries d ↔ leafPlace p = d ∧ table.lookup p = some entry := by
  unfold leafEntries
  rw [List.mem_filterMap]
  constructor
  · rintro ⟨i, hi, hp⟩
    obtain ⟨found, hfound, heq⟩ := Option.map_eq_some_iff.1 hp
    cases heq
    exact ⟨leafPlace_mul_add d (List.mem_range.1 hi), hfound⟩
  · rintro ⟨rfl, hp⟩
    refine ⟨(leafIndex p).val, List.mem_range.2 (leafIndex p).isLt, ?_⟩
    simp only [leafPlace_mul_add_leafIndex, hp, Option.map_some]

/-- The listing holds exactly the mapped pages. -/
theorem mem_entries {table : PageTable} {p : Nat} {entry : PageEntry} :
    (p, entry) ∈ table.entries ↔ table.lookup p = some entry := by
  unfold entries
  rw [List.mem_flatMap]
  constructor
  · rintro ⟨d, -, h⟩
    exact (mem_leafEntries.1 h).2
  · intro h
    exact ⟨leafPlace p, leafPlace_mem_keys h, mem_leafEntries.2 ⟨rfl, h⟩⟩

theorem leafEntries_pairwise (table : PageTable) (d : Nat) :
    (table.leafEntries d).Pairwise (fun a b => a.1 < b.1) := by
  unfold leafEntries
  rw [List.pairwise_filterMap]
  refine List.pairwise_lt_range.imp ?_
  intro i j hij a ha b hb
  obtain ⟨_, _, rfl⟩ := Option.map_eq_some_iff.1 ha
  obtain ⟨_, _, rfl⟩ := Option.map_eq_some_iff.1 hb
  exact Nat.add_lt_add_left hij _

/-- The listing is in strictly ascending order of pages. -/
theorem entries_pairwise (table : PageTable) :
    table.entries.Pairwise (fun a b => a.1 < b.1) := by
  unfold entries
  rw [List.pairwise_flatMap]
  refine ⟨fun d _ => table.leafEntries_pairwise d, ?_⟩
  refine Std.ExtTreeMap.ordered_keys.imp ?_
  rintro d e hde ⟨p, _⟩ hp ⟨q, _⟩ hq
  have hlt : d < e := Nat.compare_eq_lt.1 hde
  rw [← (mem_leafEntries.1 hp).1, ← (mem_leafEntries.1 hq).1] at hlt
  refine Nat.lt_of_not_le fun hle => ?_
  exact absurd (Nat.div_le_div_right hle) (Nat.not_le_of_lt hlt)

end PageTable

end Kernelet
