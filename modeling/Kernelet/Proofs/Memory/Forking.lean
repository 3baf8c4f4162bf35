import Kernelet.Proofs.Memory.Sharing

/-!
A fork page by page and frame by frame. The tables of parent and child both come from the
parent's (`PageTable.Shares`): the same pages on the same frames, where a page that could be
written has become copy-on-write and any other has kept its flags. The pool backs each frame
of the parent once more, and what is named already can be named again at no cost
(`Backs.freeCount_of_append`).
-/

namespace Kernelet

namespace PageTable

variable {table after : PageTable} {p : Nat} {entry : PageEntry}

/-- What a table finds is present. -/
theorem present_of_lookup (h : table.lookup p = some entry) : entry.flags.present = true := by
  unfold lookup at h
  split at h
  · rename_i hpresent
    cases h
    exact hpresent
  · cases h

/-- Table `after` maps page `p` to the frame that `table` maps it to. If the page could be
written it takes a copy first, and otherwise it is mapped as it was. -/
structure SharesPage (table after : PageTable) (p : Nat) : Prop where
  unmapped : table.lookup p = none → after.lookup p = none
  writable : ∀ entry, table.lookup p = some entry →
    (entry.flags.writable = true ∨ entry.flags.copyOnWrite = true) →
    after.lookup p =
      some { entry with flags := { entry.flags with writable := false, copyOnWrite := true } }
  readOnly : ∀ entry, table.lookup p = some entry → entry.flags.writable = false →
    entry.flags.copyOnWrite = false → after.lookup p = some entry

/-- Table `after` is what becomes of `table` in a fork, for parent and child alike. -/
structure Shares (table after : PageTable) : Prop where
  maxPages_eq : after.maxPages = table.maxPages
  mappedCount_eq : after.mappedCount = table.mappedCount
  page : ∀ p, table.SharesPage after p

@[simp] theorem mappedCount_shareFlags (table : PageTable) (pages : List (Nat × PageEntry)) :
    (table.shareFlags pages).mappedCount = table.mappedCount := by
  induction pages generalizing table with
  | nil => rfl
  | cons x rest ih =>
      obtain ⟨p, entry⟩ := x
      rw [shareFlags_cons, ih, mappedCount_setFlags]

end PageTable

/-- An entry that may be written is shared as copy-on-write. -/
theorem PageEntry.shared_of_mayWrite {entry : PageEntry} (hpresent : entry.flags.present = true)
    (hmay : entry.flags.writable = true ∨ entry.flags.copyOnWrite = true) :
    entry.shared =
      { entry with flags := { entry.flags with writable := false, copyOnWrite := true } } := by
  obtain ⟨f, p, w, u, c⟩ := entry
  cases hpresent
  rcases hmay with hmay | hmay
  · cases hmay
    rfl
  · cases hmay
    cases w <;> rfl

theorem PageEntry.shared_of_readOnly {entry : PageEntry} (hpresent : entry.flags.present = true)
    (hwritable : entry.flags.writable = false) (hcopy : entry.flags.copyOnWrite = false) :
    entry.shared = entry := by
  obtain ⟨f, p, w, u, c⟩ := entry
  cases hpresent
  cases hwritable
  cases hcopy
  rfl

namespace PageTable

theorem sharesPage_of_lookup {table after : PageTable} {p : Nat}
    (h : after.lookup p = (table.lookup p).map PageEntry.shared) : table.SharesPage after p where
  unmapped := by
    intro hlookup
    rw [h, hlookup, Option.map_none]
  writable := by
    intro entry hlookup hmay
    rw [h, hlookup, Option.map_some,
      PageEntry.shared_of_mayWrite (present_of_lookup hlookup) hmay]
  readOnly := by
    intro entry hlookup hwritable hcopy
    rw [h, hlookup, Option.map_some,
      PageEntry.shared_of_readOnly (present_of_lookup hlookup) hwritable hcopy]

theorem shares_shareFlags (table : PageTable) : table.Shares (table.shareFlags table.entries) where
  maxPages_eq := table.maxPages_shareFlags table.entries
  mappedCount_eq := table.mappedCount_shareFlags table.entries
  page := fun p => sharesPage_of_lookup (table.lookup_shareFlags_entries p)

end PageTable

namespace FramePool.Backs

variable {pool after : FramePool} {total reserved : Nat} {named more : List FrameId}

/-- More names for frames are as many more references. -/
theorem refCount_of_append (h : pool.Backs total reserved named)
    (hafter : after.Backs total reserved (more ++ named)) (f : FrameId) :
    after.refCount f = pool.refCount f + more.count f := by
  rw [hafter.refCount_eq, h.refCount_eq, List.count_append]
  omega

/-- Names for frames that have names take no frame. -/
theorem freeCount_of_append (h : pool.Backs total reserved named)
    (hafter : after.Backs total reserved (more ++ named)) (hmore : more ⊆ named) :
    after.freeCount = pool.freeCount := by
  have hsame : (more ++ named).toFinset = named.toFinset := by
    rw [List.toFinset_append, Finset.union_eq_right]
    intro f hf
    exact List.mem_toFinset.mpr (hmore (List.mem_toFinset.mp hf))
  have hbefore := h.freeCount_add_reserved_add_card
  have hthen := hafter.freeCount_add_reserved_add_card
  rw [hsame] at hthen
  omega

end FramePool.Backs

end Kernelet
