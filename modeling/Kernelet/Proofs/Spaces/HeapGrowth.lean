import Kernelet.Proofs.Spaces.Origin

/-!
What comes of growing a heap, whatever became of the spaces before. A request is declined
by the bounds of its space alone. Otherwise the free frames go to the unmapped pages
below the target, from the lowest on, and the heap ends at the target, or at the first
page that got none (`growsHeap_serveAll`).
-/

namespace Kernelet.Spaces

/-- The heap of space `i`, which was `space`, has come to end at `stop`. Each page of
`pages` has got a frame of its own, which was free and is filled with zeros, and nothing
else has changed in this space or another. -/
structure Enlarges (s : Spaces) (i : Nat) (space : AddressSpace) (pages : List Nat) (stop : Nat)
    (after : Spaces) : Prop where
  slots_eq : ∃ table, after.slots = s.slots.set i (some { space with table, brk := stop }) ∧
    table.maxPages = space.table.maxPages ∧
    table.mappedCount = space.table.mappedCount + pages.length
  added : ∀ p ∈ pages, ∃ frame, after.Maps i p ⟨frame, .userData⟩ ∧
    s.pool.refCount frame = 0 ∧ after.pool.refCount frame = 1 ∧
    after.pool.bytesOf frame = PageBytes.zero
  /-- The frames that were added are not shared, with another space or among themselves. -/
  alone : ∀ p ∈ pages, ∀ entry, after.Maps i p entry → ∀ j q other, after.Maps j q other →
    other.frame = entry.frame → j = i ∧ q = p
  maps_iff : ∀ p, p ∉ pages → ∀ entry, after.Maps i p entry ↔ s.Maps i p entry
  /-- What any space had mapped it still has, with the same bytes. -/
  kept : ∀ j p entry, s.Maps j p entry →
    after.Maps j p entry ∧ after.pool.bytesOf entry.frame = s.pool.bytesOf entry.frame
  inUse : ∀ f, s.pool.refCount f ≠ 0 →
    after.pool.refCount f = s.pool.refCount f ∧ after.pool.bytesOf f = s.pool.bytesOf f
  freeCount_eq : after.pool.freeCount + pages.length = s.pool.freeCount

/-- What comes of asking for the heap of space `i` to reach `newBrk`. -/
structure GrowsHeap (s : Spaces) (i : Nat) (space : AddressSpace) (newBrk : VirtAddr)
    (run : Outcome Spaces Reply) : Prop where
  declined : space.Declines newBrk → run = ⟨.ok (.access (.brk space.brk)), s⟩
  /-- There is a frame for each page. -/
  reached : ¬ space.Declines newBrk →
    (space.heapGap (pageCeil newBrk.toNat)).length ≤ s.pool.freeCount →
      run.result = .ok (.access (.brk (pageCeil newBrk.toNat))) ∧
      s.Enlarges i space (space.heapGap (pageCeil newBrk.toNat)) (pageCeil newBrk.toNat)
        run.state
  /-- Page `p` is the first one without a frame. -/
  stopped : ¬ space.Declines newBrk →
    ∀ p, (space.heapGap (pageCeil newBrk.toNat))[s.pool.freeCount]? = some p →
      run.result = .ok (.access (.brk (max space.brk (p * pageSize)))) ∧
      s.Enlarges i space ((space.heapGap (pageCeil newBrk.toNat)).take s.pool.freeCount)
        (max space.brk (p * pageSize)) run.state
  /-- The answer is the end of the heap, which has not come down. -/
  answers : ∃ stop after, run.result = .ok (.access (.brk stop)) ∧ space.brk ≤ stop ∧
    run.state.space? i = some after ∧ after.brk = stop

variable {total reserved : Nat} {s : Spaces} {i : Nat} {space : AddressSpace}

/-- A frame with a single reference is behind one page alone. -/
theorem Accounted.place_eq (h : s.Accounted total reserved) {j p q : Nat}
    {entry other : PageEntry} (hmaps : s.Maps i p entry)
    (hone : s.pool.refCount entry.frame = 1) (hother : s.Maps j q other)
    (hframe : other.frame = entry.frame) : j = i ∧ q = p := by
  by_cases hij : j = i
  · subst hij
    exact ⟨rfl, h.page_unique j q p other entry hother hmaps hframe⟩
  · exact absurd ⟨j, q, other, hij, hother, hframe⟩ ((h.refCount_eq_one_iff hmaps).mp hone)

/-- The pages that a space was given, seen from all spaces. -/
theorem enlarges_put (hfits : Fits total reserved s) {m : Memory} {pages : List Nat}
    (hspace : s.space? i = some space)
    (hafter : Memory.Fits total reserved (tablesIn (s.slots.set i none)) m)
    (h : Memory.Grown ⟨space, s.pool⟩ m pages) (stop : Nat) :
    s.Enlarges i space pages stop (s.put i (m.setBrk stop)) := by
  have hplace := space?_put (lt_length_of_space? hspace) (m.setBrk stop)
  have hthen : Fits total reserved (s.put i (m.setBrk stop)) :=
    Fits.put (lt_length_of_space? hspace) hafter
  constructor
  · refine ⟨m.space.table, ?_, h.maxPages_eq, h.mappedPages_eq⟩
    unfold put Memory.setBrk
    dsimp only
    rw [h.space_eq]
  · intro p hp
    obtain ⟨frame, hlookup, hfree, hone, hzero⟩ := h.added p hp
    exact ⟨frame, (maps_iff hplace).mpr hlookup, hfree, hone, hzero⟩
  · intro p hp entry hentry j q other hother hframe
    obtain ⟨frame, hlookup, -, hone, -⟩ := h.added p hp
    cases hlookup.symm.trans ((maps_iff hplace).mp hentry)
    exact hthen.accounted.place_eq hentry hone hother hframe
  · intro p hp entry
    rw [maps_iff hplace, maps_iff hspace]
    exact iff_of_eq (congrArg (· = some entry) (h.lookup_eq p hp))
  · intro j p entry hentry
    obtain ⟨found, hmem, hlookup, hfound⟩ := hentry.table_mem
    have hbusy := hfits.backs.refCount_pos (frame_mem_namedFrames hmem hlookup)
    refine ⟨?_, (h.inUse _ hbusy).2⟩
    by_cases hij : i = j
    · subst hij
      cases hspace.symm.trans hfound
      refine (maps_iff hplace).mpr ((h.lookup_eq p ?_).trans hlookup)
      intro hp
      have hfree := PageTable.isMapped_eq_false_iff.mp (h.isMapped_eq_false p hp)
      cases hfree.symm.trans hlookup
    · exact ⟨found, (space?_put_ne hij _).trans hfound, hlookup⟩
  · exact h.inUse
  · exact h.freeCount_eq

theorem growsHeap (h : Fits total reserved s) (hspace : s.space? i = some space)
    (hsized : space.Sized) (newBrk : VirtAddr) :
    s.GrowsHeap i space newBrk (s.serve (.access i (.expandBrk newBrk))) := by
  have hself := put_self hspace
  rw [serve_access hspace]
  dsimp only [Memory.serve]
  rcases Memory.expandBrk_cases (h.focus hspace) hsized newBrk with
    ⟨hdeclines, hrun⟩ | ⟨hgrows, after, hafter, hgrown, hrun⟩
  · rw [hrun]
    dsimp only
    rw [hself]
    exact ⟨fun _ => rfl, fun hgrows => absurd hdeclines hgrows,
      fun hgrows => absurd hdeclines hgrows,
      ⟨space.brk, space, rfl, Nat.le_refl space.brk, hspace, rfl⟩⟩
  · have henlarges := enlarges_put h hspace hafter hgrown
    have hbrk := AddressSpace.brk_le_heapStop hgrows s.pool.freeCount
    have hplace := fun m => space?_put (lt_length_of_space? hspace) m
    rw [hrun]
    dsimp only at henlarges hbrk ⊢
    refine ⟨fun hdeclines => absurd hdeclines hgrows, ?_, ?_, ⟨_, _, rfl, hbrk, hplace _, rfl⟩⟩
    · intro _ hroom
      rw [List.take_of_length_le hroom] at henlarges
      rw [AddressSpace.heapStop_of_length_le hroom]
      exact ⟨rfl, henlarges _⟩
    · intro _ p hp
      rw [AddressSpace.heapStop_of_getElem? hp]
      exact ⟨rfl, henlarges _⟩

/-- After any history, a request for a longer heap is declined, met, or met as far as
memory goes. -/
theorem growsHeap_serveAll (total reserved : Nat) (requests : List Request) {i : Nat}
    {space : AddressSpace} (newBrk : VirtAddr)
    (hspace : ((boot total reserved).serveAll requests).2.space? i = some space) :
    let s := ((boot total reserved).serveAll requests).2
    s.GrowsHeap i space newBrk (s.serve (.access i (.expandBrk newBrk))) :=
  growsHeap (serveAll_fits (boot_fits total reserved) requests) hspace (sized_of_boot hspace) newBrk

/-- A heap around a page that is mapped already, with one frame for three pages. -/
theorem growsHeap_around_code :
    let s := ((boot 3 1).serveAll [.create 16384,
      .access 0 (.map (VirtAddr.ofPage 1) .userCode)]).2
    let newBrk : VirtAddr := ⟨12289, by decide⟩
    ∃ space, s.space? 0 = some space ∧
      s.GrowsHeap 0 space newBrk (s.serve (.access 0 (.expandBrk newBrk))) := by
  intro s newBrk
  have hlives : ∃ space, s.space? 0 = some space := ⟨_, rfl⟩
  obtain ⟨space, hspace⟩ := hlives
  exact ⟨space, hspace, growsHeap_serveAll 3 1 _ newBrk hspace⟩

end Kernelet.Spaces
