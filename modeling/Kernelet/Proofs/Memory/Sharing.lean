import Kernelet.Memory.Fork
import Kernelet.Proofs.Memory.PageUpdates

/-!
A fork as processes see it. Over a pool in balance a fork cannot fail: every
frame that it shares is in use, because an entry names it. Parent and child
then have the same pages that the parent had, and both may write exactly what
it might write, although neither may do so without a copy.
-/

namespace Kernelet

/-- An entry once a second space has come to share its frame. -/
def PageEntry.shared (entry : PageEntry) : PageEntry :=
  ⟨entry.frame, entry.flags.shared.normalized⟩

theorem PageEntry.frame_shared (entry : PageEntry) : entry.shared.frame = entry.frame := rfl

theorem PageEntry.writable_shared (entry : PageEntry) : entry.shared.flags.writable = false := by
  obtain ⟨f, p, w, u, c⟩ := entry
  cases w <;> cases c <;> rfl

theorem PageEntry.mayWrite_shared (entry : PageEntry) :
    entry.shared.flags.mayWrite = entry.flags.mayWrite := by
  obtain ⟨f, p, w, u, c⟩ := entry
  cases w <;> cases c <;> rfl

/-- The table with the flags of shared pages on all pages of a list. -/
def PageTable.shareFlags (table : PageTable) (pages : List (Nat × PageEntry)) : PageTable :=
  pages.foldl (fun table (p, entry) => (table.setFlags p entry.flags.shared).2) table

namespace PageTable

@[simp] theorem shareFlags_cons (table : PageTable) (p : Nat) (entry : PageEntry)
    (rest : List (Nat × PageEntry)) :
    table.shareFlags ((p, entry) :: rest) =
      (table.setFlags p entry.flags.shared).2.shareFlags rest := rfl

@[simp] theorem maxPages_shareFlags (table : PageTable) (pages : List (Nat × PageEntry)) :
    (table.shareFlags pages).maxPages = table.maxPages := by
  induction pages generalizing table with
  | nil => rfl
  | cons x rest ih =>
      obtain ⟨p, entry⟩ := x
      rw [shareFlags_cons, ih, maxPages_setFlags]

/-- Each page of the list is shared once, and the others are left alone. -/
theorem lookup_shareFlags {table : PageTable} {pages : List (Nat × PageEntry)}
    (hpages : pages.Pairwise fun a b => a.1 < b.1)
    (hlookup : ∀ x ∈ pages, table.lookup x.1 = some x.2) (q : Nat) :
    (table.shareFlags pages).lookup q =
      if q ∈ pages.map Prod.fst then (table.lookup q).map PageEntry.shared
      else table.lookup q := by
  induction pages generalizing table with
  | nil => rfl
  | cons x rest ih =>
      obtain ⟨p, entry⟩ := x
      obtain ⟨hfirst, hrest⟩ := List.pairwise_cons.mp hpages
      have hentry := hlookup (p, entry) List.mem_cons_self
      have hset := table.lookup_setFlags p
      rw [shareFlags_cons, ih hrest]
      · by_cases hpq : p = q
        · subst hpq
          have hout : p ∉ rest.map Prod.fst := by
            intro hmem
            obtain ⟨y, hy, hyp⟩ := List.mem_map.mp hmem
            have hlt := hfirst y hy
            simp only at hlt
            omega
          rw [if_neg hout, hset, if_pos rfl, if_pos (by simp), hentry]
          rfl
        · have hmem : q ∈ ((p, entry) :: rest).map Prod.fst ↔ q ∈ rest.map Prod.fst := by
            rw [List.map_cons, List.mem_cons]
            simp [Ne.symm hpq]
          simp only [hset, if_neg hpq, hmem]
      · intro y hy
        have hlt := hfirst y hy
        rw [hset, if_neg (Nat.ne_of_lt hlt)]
        exact hlookup y (List.mem_cons_of_mem _ hy)

theorem lookup_shareFlags_entries (table : PageTable) (q : Nat) :
    (table.shareFlags table.entries).lookup q = (table.lookup q).map PageEntry.shared := by
  rw [lookup_shareFlags table.entries_pairwise fun x hx => mem_entries.mp hx]
  split
  · rfl
  · rename_i hout
    cases hlookup : table.lookup q with
    | none => rfl
    | some entry =>
        exact absurd (List.mem_map.mpr ⟨(q, entry), mem_entries.mpr hlookup, rfl⟩) hout

/-- A table whose pages are shared reads as before. -/
theorem page?_of_shared {table after : PageTable} {pool next : FramePool}
    (hlookup : ∀ q, after.lookup q = (table.lookup q).map PageEntry.shared)
    (hbytes : ∀ f, next.bytesOf f = pool.bytesOf f) (p : Nat) :
    after.page? next p = table.page? pool p := by
  unfold page?
  rw [hlookup]
  cases table.lookup p with
  | none => rw [Option.map_none, Option.map_none, Option.map_none]
  | some entry =>
      rw [Option.map_some, Option.map_some, Option.map_some, PageEntry.mayWrite_shared, hbytes]
      rfl

end PageTable

namespace Memory

variable {total reserved : Nat} {m : Memory} {others : List PageTable}

/-- Pages whose frames are in use can all be shared. -/
theorem Sharing.pages_ok {s : Sharing} {named : List FrameId} {pages : List (Nat × PageEntry)}
    (h : s.pool.Backs total reserved named) (hnamed : ∀ x ∈ pages, x.2.frame ∈ named) :
    ∃ pool, s.pages pages =
        ⟨.ok (), ⟨s.parent.shareFlags pages, s.child.shareFlags pages, pool⟩⟩ ∧
      pool.Backs total reserved (pages.map (fun (_, entry) => entry.frame) ++ named) ∧
      ∀ f, pool.bytesOf f = s.pool.bytesOf f := by
  induction pages generalizing s named with
  | nil => exact ⟨s.pool, rfl, h, fun f => rfl⟩
  | cons x rest ih =>
      obtain ⟨p, entry⟩ := x
      obtain ⟨pool, hshare, hbacks⟩ := h.share (hnamed (p, entry) List.mem_cons_self)
      obtain ⟨last, hrun, hlast, hbytes⟩ := ih (s := ⟨(s.parent.setFlags p entry.flags.shared).2,
        (s.child.setFlags p entry.flags.shared).2, pool⟩) hbacks (by
          intro y hy
          exact List.mem_cons_of_mem _ (hnamed y (List.mem_cons_of_mem _ hy)))
      refine ⟨last, ?_, hlast.perm List.perm_middle, ?_⟩
      · unfold Sharing.pages Sharing.page
        rw [hshare]
        exact hrun
      · intro f
        rw [hbytes f]
        exact FramePool.bytesOf_share hshare f

/-- A frame that is not in use is the only obstacle to a fork. -/
theorem Sharing.pages_error {s : Sharing} {pages : List (Nat × PageEntry)} {e : KernelError}
    (hrun : (s.pages pages).result = .error e) : ∃ f, e = .frameNotAllocated f := by
  induction pages generalizing s with
  | nil => cases hrun
  | cons x rest ih =>
      obtain ⟨p, entry⟩ := x
      unfold Sharing.pages at hrun
      split at hrun
      · exact ih hrun
      · rename_i hpage
        unfold Sharing.page at hpage
        split at hpage
        · rename_i hshare
          cases hpage
          cases hrun
          exact ⟨_, (FramePool.share_eq_error_iff.mp hshare).1⟩
        · cases hpage

theorem fork_error {e : KernelError} (hrun : m.fork.result = .error e) :
    ∃ f, e = .frameNotAllocated f := by
  unfold fork at hrun
  dsimp only at hrun
  split at hrun
  · cases hrun
  · rename_i hpages
    cases hrun
    exact Sharing.pages_error (congrArg Outcome.result hpages)

/-- The child has come to have a copy of every page, and nothing else that a
process can see has changed. -/
structure Copy (m after : Memory) (child : AddressSpace) (others : List PageTable) : Prop where
  space_eq : after.space = { m.space with table := after.space.table }
  child_eq : child = { m.space with table := child.table }
  maxPages_eq : after.space.table.maxPages = m.space.table.maxPages
  maxPages_child : child.table.maxPages = m.space.table.maxPages
  page_eq : ∀ p, after.space.table.page? after.pool p = m.space.table.page? m.pool p
  page_child : ∀ p, child.table.page? after.pool p = m.space.table.page? m.pool p
  keeps : KeepsBytes m.pool after.pool others

/-- A fork over a pool in balance shares every page, and the pool then backs the frames of
the parent once more. -/
theorem fork_run (h : Balanced total reserved m.pool (m.space.table :: others)) :
    let table := m.space.table.shareFlags m.space.table.entries
    ∃ pool, m.fork = ⟨.ok { m.space with table }, ⟨{ m.space with table }, pool⟩⟩ ∧
      pool.Backs total reserved
        (m.space.table.frames ++ namedFrames (m.space.table :: others)) ∧
      ∀ f, pool.bytesOf f = m.pool.bytesOf f := by
  have hnamed : ∀ x ∈ m.space.table.entries,
      x.2.frame ∈ namedFrames (m.space.table :: others) := by
    intro x hx
    exact frame_mem_namedFrames List.mem_cons_self (PageTable.mem_entries.mp hx)
  obtain ⟨pool, hrun, hbacks, hbytes⟩ := Sharing.pages_ok
    (s := ⟨m.space.table, m.space.table, m.pool⟩) h.backs hnamed
  refine ⟨pool, ?_, hbacks, hbytes⟩
  unfold fork
  dsimp only
  rw [hrun]

/-- A fork over a pool in balance succeeds and keeps the balance. -/
theorem fork_eq (h : Balanced total reserved m.pool (m.space.table :: others)) :
    ∃ child after, m.fork = ⟨.ok child, after⟩ ∧
      Balanced total reserved after.pool (after.space.table :: child.table :: others) ∧
      Copy m after child others := by
  obtain ⟨pool, hrun, hbacks, hbytes⟩ := fork_run h
  have hlookup := m.space.table.lookup_shareFlags_entries
  have hframes := PageTable.frames_perm_of_lookup_map PageEntry.frame_shared hlookup
  have hmax := m.space.table.maxPages_shareFlags m.space.table.entries
  have hpage := PageTable.page?_of_shared hlookup hbytes
  refine ⟨_, _, hrun, ⟨?_, ?_⟩, ⟨rfl, rfl, hmax, hmax, hpage, hpage, fun f _ => hbytes f⟩⟩
  · apply hbacks.perm
    rw [namedFrames_cons, namedFrames_cons, namedFrames_cons]
    exact (hframes.append (hframes.append (List.Perm.refl _))).symm
  · exact h.tidy.share PageEntry.frame_shared PageEntry.writable_shared hmax hmax hlookup hlookup

end Memory

end Kernelet
