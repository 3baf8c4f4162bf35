import Kernelet.Proofs.Memory.Forking
import Kernelet.Proofs.Spaces.Origin

/-!
Every fork of a space that lives succeeds, whatever the history was and even if no frame is
free: a frame that a living space names is in use, so that it can be shared. Parent and child
then map the same pages to the same frames, each of which has one reference more, and no
other frame notices.
-/

namespace Kernelet.Spaces

/-- Space `i`, which was `space`, has been duplicated, and no memory was needed for it. -/
structure Duplicated (s : Spaces) (i : Nat) (space : AddressSpace) (run : Outcome Spaces Reply) :
    Prop where
  result_eq : run.result = .ok (.created s.slots.length)
  /-- The child stands behind all spaces, with the segments of its parent. -/
  slots_eq : ∃ parent child : PageTable,
    space.table.Shares parent ∧ space.table.Shares child ∧
      run.state.slots = s.slots.set i (some { space with table := parent }) ++
        [some { space with table := child }]
  total_eq : run.state.pool.total = s.pool.total
  freeCount_eq : run.state.pool.freeCount = s.pool.freeCount
  bytesOf_eq : ∀ f, run.state.pool.bytesOf f = s.pool.bytesOf f
  refCount_mapped : ∀ p entry, space.table.lookup p = some entry →
    run.state.pool.refCount entry.frame = s.pool.refCount entry.frame + 1
  refCount_other : ∀ f, (∀ p entry, space.table.lookup p = some entry → entry.frame ≠ f) →
    run.state.pool.refCount f = s.pool.refCount f

variable {total reserved : Nat} {s : Spaces} {i : Nat} {space : AddressSpace}

theorem duplicated_fork (h : Fits total reserved s) (hspace : s.space? i = some space) :
    s.Duplicated i space (s.fork i) := by
  have hfocus := h.focus hspace
  obtain ⟨pool, hrun, hbacks, hbytes⟩ := Memory.fork_run hfocus
  have hnamed : space.table.frames ⊆
      namedFrames (space.table :: tablesIn (s.slots.set i none)) :=
    List.subset_append_left _ _
  have hcount := hfocus.backs.refCount_of_append hbacks
  rw [fork_of_ok hspace hrun]
  refine ⟨rfl, ⟨_, _, space.table.shares_shareFlags, space.table.shares_shareFlags, rfl⟩,
    hbacks.total_eq.trans hfocus.backs.total_eq.symm,
    hfocus.backs.freeCount_of_append hbacks hnamed, hbytes, ?_, ?_⟩
  · intro p entry hlookup
    -- A table names no frame twice, so that each frame gains one reference only.
    have hnodup := hfocus.tidy.nodup space.table List.mem_cons_self
    rw [hcount, List.count_eq_one_of_mem hnodup (PageTable.frame_mem_frames hlookup)]
  · intro f hother
    have hout : f ∉ space.table.frames := by
      intro hmem
      obtain ⟨p, entry, hlookup, hframe⟩ := PageTable.mem_frames.mp hmem
      exact hother p entry hlookup hframe
    rw [hcount, List.count_eq_zero.mpr hout, Nat.add_zero]

/-- After any history, a space that lives is duplicated at no cost. -/
theorem duplicated_serveAll (total reserved : Nat) (requests : List Request) {i : Nat}
    {space : AddressSpace}
    (hspace : ((boot total reserved).serveAll requests).2.space? i = some space) :
    let s := ((boot total reserved).serveAll requests).2
    s.Duplicated i space (s.serve (.fork i)) :=
  duplicated_fork (serveAll_fits (boot_fits total reserved) requests) hspace

/-- A space that took the last free frame is forked, and then its child in turn. -/
theorem duplicated_child_of_full :
    let earlier : List Request := [.create 16384,
      .access 0 (.map (VirtAddr.ofPage 0) .userCode),
      .access 0 (.map (VirtAddr.ofPage 2) .userData)]
    let s := ((boot 3 1).serveAll (earlier ++ [.fork 0])).2
    ((boot 3 1).serveAll earlier).2.pool.freeCount = 0 ∧
      ∃ space, s.space? 1 = some space ∧ s.Duplicated 1 space (s.serve (.fork 1)) := by
  intro earlier s
  have hparent : ∃ parent, ((boot 3 1).serveAll earlier).2.space? 0 = some parent := ⟨_, rfl⟩
  obtain ⟨parent, hparent⟩ := hparent
  obtain ⟨space, hspace⟩ := exists_child hparent
  exact ⟨by decide +kernel, space, hspace, duplicated_serveAll 3 1 _ hspace⟩

end Kernelet.Spaces
