import Kernelet.Proofs.Memory.Balance

/-!
The growth of a heap, page by page. The loop meets pages that are mapped already and
cost nothing, and pages that take a frame each. It comes to a stop at the first page of
the second kind for which no frame is left, so that with `n` free frames exactly the
first `n` unmapped pages are mapped (`growPages_eq`).

Three bounds keep the loop from any other end: the target is not beyond the size of the
space, the size bounds the table (`AddressSpace.Sized`), and the first address of each
page on the way is an address.
-/

namespace Kernelet

/-- `n` rounded up to a page boundary. -/
def pageCeil (n : Nat) : Nat :=
  (n + (pageSize - 1)) / pageSize * pageSize

namespace VirtAddr

theorem toNat_alignDown (a : VirtAddr) : a.alignDown.toNat = a.page * pageSize := by
  have hsplit := a.page_mul_add_offset
  unfold alignDown
  dsimp only
  omega

/-- An address is rounded up unless that overflows. -/
theorem alignUp?_cases (a : VirtAddr) :
    (UInt64.size ≤ pageCeil a.toNat ∧ a.alignUp? = none) ∨
    ∃ target, a.alignUp? = some target ∧ target.toNat = pageCeil a.toNat := by
  unfold alignUp?
  cases hsum : ofNat? (a.toNat + (pageSize - 1)) with
  | none =>
      left
      have hover := ofNat?_eq_none.mp hsum
      refine ⟨?_, rfl⟩
      unfold pageCeil
      simp only [pageSize, UInt64.size] at hover ⊢
      omega
  | some sum =>
      right
      refine ⟨sum.alignDown, rfl, ?_⟩
      rw [toNat_alignDown, page, ofNat?_eq_some.mp hsum, pageCeil]

theorem toNat_ofPage {p : Nat} (h : p * pageSize < UInt64.size) :
    (ofPage p).toNat = p * pageSize := by
  unfold ofPage
  rw [toNat_wrap, Nat.mod_eq_of_lt h]

theorem page_ofPage {p : Nat} (h : p * pageSize < UInt64.size) : (ofPage p).page = p := by
  unfold page
  rw [toNat_ofPage h, Nat.mul_div_cancel _ pageSize_pos]

end VirtAddr

namespace PageTable

/-- The pages that are not mapped among `count` pages from `first` on, in ascending
order. -/
def unmapped (table : PageTable) (first count : Nat) : List Nat :=
  (List.range' first count).filter fun p => !table.isMapped p

variable {table after : PageTable} {first count p : Nat}

theorem mem_unmapped :
    p ∈ table.unmapped first count ↔
      first ≤ p ∧ p < first + count ∧ table.isMapped p = false := by
  simp only [unmapped, List.mem_filter, List.mem_range'_1, Bool.not_eq_true', and_assoc]

theorem unmapped_pairwise (table : PageTable) (first count : Nat) :
    (table.unmapped first count).Pairwise (· < ·) :=
  (List.pairwise_lt_range' 1).filter _

theorem unmapped_succ (table : PageTable) (first count : Nat) :
    table.unmapped first (count + 1) =
      if table.isMapped first then table.unmapped (first + 1) count
      else first :: table.unmapped (first + 1) count := by
  unfold unmapped
  rw [List.range'_succ, List.filter_cons]
  cases table.isMapped first with
  | true => rfl
  | false => rfl

/-- A page below the first one does not matter. -/
theorem unmapped_congr (hrest : ∀ q, p ≠ q → after.lookup q = table.lookup q) (hp : p < first)
    (count : Nat) : after.unmapped first count = table.unmapped first count := by
  refine List.filter_congr fun q hq => ?_
  have hle := (List.mem_range'_1.mp hq).1
  unfold isMapped
  rw [hrest q (by omega)]

/-- A page that comes to be mapped is counted. -/
theorem mappedCount_map {frame : FrameId} {flags : PageFlags}
    (h : table.map p frame flags = .ok after) (hfree : table.isMapped p = false) :
    after.mappedCount = table.mappedCount + 1 := by
  unfold map at h
  split at h
  · cases h
    rw [if_neg (by simp [hfree])]
  · cases h

end PageTable

namespace AddressSpace

/-- The table has a place for every whole page of the space, and no other. -/
def Sized (space : AddressSpace) : Prop :=
  space.table.maxPages = space.size / pageSize

/-- The heap is not grown to `newBrk`, however much memory there is. -/
def Declines (space : AddressSpace) (newBrk : VirtAddr) : Prop :=
  newBrk.toNat < space.dataEnd ∨ UInt64.size ≤ pageCeil newBrk.toNat ∨
    space.size < pageCeil newBrk.toNat ∨ pageCeil newBrk.toNat ≤ space.brk

/-- The unmapped pages between the end of the heap and `target`, in ascending order. -/
def heapGap (space : AddressSpace) (target : Nat) : List Nat :=
  space.table.unmapped (space.brk / pageSize) (target / pageSize - space.brk / pageSize)

/-- Where a heap that grows towards `target` ends, if `free` frames are free. -/
def heapStop (space : AddressSpace) (free target : Nat) : Nat :=
  match (space.heapGap target)[free]? with
  | none => target
  | some p => max space.brk (p * pageSize)

variable {space : AddressSpace} {free target p : Nat}

theorem heapStop_of_length_le (h : (space.heapGap target).length ≤ free) :
    space.heapStop free target = target := by
  unfold heapStop
  rw [List.getElem?_eq_none h]

theorem heapStop_of_getElem? (h : (space.heapGap target)[free]? = some p) :
    space.heapStop free target = max space.brk (p * pageSize) := by
  unfold heapStop
  rw [h]

/-- A heap never ends before it did. -/
theorem brk_le_heapStop {newBrk : VirtAddr}
    (hgrows : ¬ space.Declines newBrk) (free : Nat) :
    space.brk ≤ space.heapStop free (pageCeil newBrk.toNat) := by
  unfold heapStop
  split
  · simp only [Declines, not_or, Nat.not_le] at hgrows
    exact Nat.le_of_lt hgrows.2.2.2
  · exact Nat.le_max_left _ _

end AddressSpace

namespace Memory

/-- The same memory with the heap ending at `stop`. -/
def setBrk (m : Memory) (stop : Nat) : Memory :=
  { m with space := { m.space with brk := stop } }

/-- Each page of `pages` has got a frame of its own, which was free and is filled with
zeros, and nothing else has changed. -/
structure Grown (m after : Memory) (pages : List Nat) : Prop where
  space_eq : after.space = { m.space with table := after.space.table }
  maxPages_eq : after.space.table.maxPages = m.space.table.maxPages
  mappedPages_eq : after.space.mappedPages = m.space.mappedPages + pages.length
  isMapped_eq_false : ∀ p ∈ pages, m.space.table.isMapped p = false
  added : ∀ p ∈ pages, ∃ frame, after.space.table.lookup p = some ⟨frame, .userData⟩ ∧
    m.pool.refCount frame = 0 ∧ after.pool.refCount frame = 1 ∧
    after.pool.bytesOf frame = PageBytes.zero
  lookup_eq : ∀ p, p ∉ pages → after.space.table.lookup p = m.space.table.lookup p
  inUse : ∀ f, m.pool.refCount f ≠ 0 →
    after.pool.refCount f = m.pool.refCount f ∧ after.pool.bytesOf f = m.pool.bytesOf f
  freeCount_eq : after.pool.freeCount + pages.length = m.pool.freeCount

variable {total reserved : Nat} {others : List PageTable} {m mid after : Memory} {first count : Nat}

theorem Grown.refl (m : Memory) : Grown m m [] where
  space_eq := rfl
  maxPages_eq := rfl
  mappedPages_eq := rfl
  isMapped_eq_false := by simp
  added := by simp
  lookup_eq := fun _ _ => rfl
  inUse := fun _ _ => ⟨rfl, rfl⟩
  freeCount_eq := rfl

/-- The frames that were handed out first are in use when others follow. -/
theorem Grown.trans {pages more : List Nat} (h : Grown m mid pages)
    (hnext : Grown mid after more) (hnew : ∀ p ∈ pages, p ∉ more) :
    Grown m after (pages ++ more) where
  space_eq := by
    rw [hnext.space_eq, h.space_eq]
  maxPages_eq := hnext.maxPages_eq.trans h.maxPages_eq
  mappedPages_eq := by
    rw [hnext.mappedPages_eq, h.mappedPages_eq, List.length_append, Nat.add_assoc]
  isMapped_eq_false := by
    intro p hp
    rcases List.mem_append.mp hp with hp | hp
    · exact h.isMapped_eq_false p hp
    · have hmid := hnext.isMapped_eq_false p hp
      unfold PageTable.isMapped at hmid ⊢
      rw [h.lookup_eq p fun hmem => hnew p hmem hp] at hmid
      exact hmid
  added := by
    intro p hp
    rcases List.mem_append.mp hp with hp | hp
    · obtain ⟨frame, hlookup, hfree, hone, hzero⟩ := h.added p hp
      have hbusy : mid.pool.refCount frame ≠ 0 := by
        rw [hone]
        exact Nat.one_ne_zero
      obtain ⟨hcount, hbytes⟩ := hnext.inUse frame hbusy
      exact ⟨frame, (hnext.lookup_eq p (hnew p hp)).trans hlookup, hfree, hcount.trans hone,
        hbytes.trans hzero⟩
    · obtain ⟨frame, hlookup, hfree, hone, hzero⟩ := hnext.added p hp
      refine ⟨frame, hlookup, ?_, hone, hzero⟩
      by_contra hbusy
      exact hbusy ((h.inUse frame hbusy).1.symm.trans hfree)
  lookup_eq := by
    intro p hp
    rw [List.mem_append, not_or] at hp
    exact (hnext.lookup_eq p hp.2).trans (h.lookup_eq p hp.1)
  inUse := by
    intro f hf
    obtain ⟨hcount, hbytes⟩ := h.inUse f hf
    obtain ⟨hcount', hbytes'⟩ := hnext.inUse f (by rw [hcount]; exact hf)
    exact ⟨hcount'.trans hcount, hbytes'.trans hbytes⟩
  freeCount_eq := by
    have hfirst := h.freeCount_eq
    have hmore := hnext.freeCount_eq
    rw [List.length_append]
    omega

/-- A page within bounds is mapped as long as a frame is free. -/
theorem mapPage_grown (h : Fits total reserved others m) {a : VirtAddr}
    (hfree : m.space.table.isMapped a.page = false) (hlt : a.page < m.space.table.maxPages)
    (hroom : m.pool.freeCount ≠ 0) :
    ∃ after, m.mapPage a .userData = ⟨.ok (), after⟩ ∧ Fits total reserved others after ∧
      Grown m after [a.page] := by
  have hfits := mapPage_fits h a .userData
  unfold mapPage at hfits ⊢
  rw [if_neg (by simp [hfree]), if_pos hlt] at hfits ⊢
  cases hrun : m.pool.allocate with
  | error e => exact absurd (h.backs.allocate_error hrun).2 hroom
  | ok handed =>
      obtain ⟨frame, pool⟩ := handed
      obtain ⟨table, hmap, hmax, hpage, hrest⟩ := PageTable.exists_map hlt frame .userData
      obtain ⟨-, hzero, -⟩ := FramePool.first_free_of_allocate hrun
      have hcount := FramePool.refCount_allocate hrun
      have hbytes := FramePool.bytesOf_allocate hrun
      rw [hrun] at hfits
      dsimp only at hfits ⊢
      rw [hmap] at hfits ⊢
      refine ⟨_, rfl, hfits, rfl, hmax, PageTable.mappedCount_map hmap hfree, ?_, ?_, ?_, ?_, ?_⟩
      · intro p hp
        rw [List.mem_singleton.mp hp]
        exact hfree
      · intro p hp
        rw [List.mem_singleton.mp hp]
        exact ⟨frame, hpage, hzero, (hcount frame).trans (if_pos rfl),
          (hbytes frame).trans (if_pos rfl)⟩
      · intro p hp
        exact hrest p fun heq => hp (List.mem_singleton.mpr heq.symm)
      · intro f hf
        have hne : frame ≠ f := by
          rintro rfl
          exact hf hzero
        exact ⟨(hcount f).trans (if_neg hne), (hbytes f).trans (if_neg hne)⟩
      · have hleft : pool.freeCount + 1 = m.pool.freeCount := by
          rw [FramePool.freeCount_allocate hrun]
          omega
        exact hleft

/-- Without a free frame it is not. -/
theorem mapPage_full (h : Fits total reserved others m) {a : VirtAddr} (flags : PageFlags)
    (hfree : m.space.table.isMapped a.page = false) (hlt : a.page < m.space.table.maxPages)
    (hfull : m.pool.freeCount = 0) : m.mapPage a flags = ⟨.error .outOfMemory, m⟩ := by
  unfold mapPage
  rw [if_neg (by simp [hfree]), if_pos hlt]
  cases hrun : m.pool.allocate with
  | error e =>
      rw [(h.backs.allocate_error hrun).1]
  | ok handed =>
      obtain ⟨hin, hzero, -⟩ := FramePool.first_free_of_allocate hrun
      have hnone := h.backs.freeCount_eq.symm.trans hfull
      rw [Finset.card_eq_zero] at hnone
      have hmem := FramePool.mem_freeFrames.mpr ⟨hin, hzero⟩
      rw [hnone] at hmem
      cases hmem

/-- Of the unmapped pages as many are mapped as frames are free, from the lowest on. The
loop stops at the first page that is left over. -/
theorem growPages_eq (h : Fits total reserved others m)
    (hmax : first + count ≤ m.space.table.maxPages)
    (haddr : (first + count) * pageSize ≤ UInt64.size) :
    ∃ after, m.growPages first count =
        ((m.space.table.unmapped first count)[m.pool.freeCount]?.map (· * pageSize), after) ∧
      Fits total reserved others after ∧
      Grown m after ((m.space.table.unmapped first count).take m.pool.freeCount) := by
  induction count generalizing m first with
  | zero =>
      refine ⟨m, rfl, h, ?_⟩
      simpa [PageTable.unmapped] using Grown.refl m
  | succ count ih =>
      have haddrs : first * pageSize < UInt64.size := by
        refine Nat.lt_of_lt_of_le (Nat.mul_lt_mul_of_pos_right ?_ pageSize_pos) haddr
        omega
      have hpage := VirtAddr.page_ofPage haddrs
      have hsucc : first + (count + 1) = first + 1 + count := by omega
      rw [hsucc] at hmax haddr
      unfold growPages
      rw [PageTable.unmapped_succ]
      cases hmapped : m.space.table.isMapped first with
      | true =>
          have hrun : m.mapPage (VirtAddr.ofPage first) .userData = ⟨.ok (), m⟩ := by
            unfold mapPage
            rw [hpage, if_pos hmapped]
          rw [hrun, if_pos rfl]
          exact ih h hmax haddr
      | false =>
          rw [if_neg (by simp)]
          have hlt : first < m.space.table.maxPages := by omega
          cases hcount : m.pool.freeCount with
          | zero =>
              rw [mapPage_full h .userData (by rw [hpage]; exact hmapped) (by rw [hpage]; exact hlt)
                hcount]
              refine ⟨m, ?_, h, ?_⟩
              · rw [VirtAddr.toNat_ofPage haddrs]
                rfl
              · exact Grown.refl m
          | succ free =>
              obtain ⟨mid, hrun, hmid, hgrown⟩ := mapPage_grown (a := VirtAddr.ofPage first) h
                (by rw [hpage]; exact hmapped) (by rw [hpage]; exact hlt) (by omega)
              rw [hpage] at hgrown
              have hleft : mid.pool.freeCount = free := by
                have htaken := hgrown.freeCount_eq
                rw [hcount] at htaken
                exact Nat.succ.inj htaken
              have hrest : mid.space.table.unmapped (first + 1) count =
                  m.space.table.unmapped (first + 1) count := by
                refine PageTable.unmapped_congr (p := first) (fun q hq => ?_) (by omega) count
                exact hgrown.lookup_eq q fun hmem => hq (List.mem_singleton.mp hmem).symm
              obtain ⟨after, hloop, hafter, hmore⟩ := ih hmid (hgrown.maxPages_eq ▸ hmax) haddr
              rw [hleft, hrest] at hloop hmore
              rw [hrun]
              refine ⟨after, hloop, hafter, hgrown.trans hmore ?_⟩
              intro p hp hmem
              have hle := (PageTable.mem_unmapped.mp (List.mem_of_mem_take hmem)).1
              rw [List.mem_singleton.mp hp] at hle
              omega

/-- A request for a longer heap is declined, or met as far as the free frames go. -/
theorem expandBrk_cases (h : Fits total reserved others m) (hsized : m.space.Sized)
    (newBrk : VirtAddr) :
    let target := pageCeil newBrk.toNat
    (m.space.Declines newBrk ∧ m.expandBrk newBrk = (m.space.brk, m)) ∨
    ¬ m.space.Declines newBrk ∧ ∃ after, Fits total reserved others after ∧
      Grown m after ((m.space.heapGap target).take m.pool.freeCount) ∧
      m.expandBrk newBrk =
        (m.space.heapStop m.pool.freeCount target,
          after.setBrk (m.space.heapStop m.pool.freeCount target)) := by
  unfold expandBrk AddressSpace.Declines
  dsimp only
  have hceil := newBrk.alignUp?_cases
  generalize pageCeil newBrk.toNat = target at hceil ⊢
  by_cases hbelow : newBrk.toNat < m.space.dataEnd
  · rw [if_pos hbelow]
    exact Or.inl ⟨Or.inl hbelow, rfl⟩
  rw [if_neg hbelow]
  rcases hceil with ⟨hover, halign⟩ | ⟨aligned, halign, htarget⟩
  · rw [halign]
    exact Or.inl ⟨Or.inr (Or.inl hover), rfl⟩
  rw [halign]
  dsimp only
  rw [htarget]
  have hfits : target < UInt64.size := htarget ▸ aligned.isLt
  by_cases hbounds : m.space.size < target ∨ target ≤ m.space.brk
  · rw [if_pos (by simpa using hbounds)]
    exact Or.inl ⟨Or.inr (Or.inr hbounds), rfl⟩
  right
  rw [if_neg (by simpa using hbounds)]
  refine ⟨?_, ?_⟩
  · rintro (hlow | hover | hrest)
    · exact hbelow hlow
    · exact absurd hfits (Nat.not_lt_of_le hover)
    · exact hbounds hrest
  rw [not_or, Nat.not_lt, Nat.not_le] at hbounds
  have hpages : aligned.page = target / pageSize := by
    unfold VirtAddr.page
    rw [htarget]
  have hfirst : m.space.brk / pageSize ≤ target / pageSize :=
    Nat.div_le_div_right (Nat.le_of_lt hbounds.2)
  have hmax : target / pageSize ≤ m.space.table.maxPages := by
    rw [hsized]
    exact Nat.div_le_div_right hbounds.1
  have haddr := Nat.div_mul_le_self target pageSize
  have hcount : m.space.brk / pageSize + (target / pageSize - m.space.brk / pageSize) =
      target / pageSize := Nat.add_sub_of_le hfirst
  obtain ⟨after, hrun, hafter, hgrown⟩ := growPages_eq h (hcount.symm ▸ hmax)
    (hcount.symm ▸ Nat.le_trans haddr (Nat.le_of_lt hfits))
  refine ⟨after, hafter, hgrown, ?_⟩
  rw [hpages, hrun]
  unfold AddressSpace.heapStop AddressSpace.heapGap
  cases hleft : (m.space.table.unmapped (m.space.brk / pageSize)
      (target / pageSize - m.space.brk / pageSize))[m.pool.freeCount]? with
  | none => rfl
  | some p => rfl

end Memory

end Kernelet
