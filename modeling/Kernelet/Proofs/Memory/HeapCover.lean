import Kernelet.Memory.Request
import Kernelet.Proofs.Memory.HeapGrowth

/-!
What a space keeps through its own requests. Its table has the size that the space
calls for, whatever is asked of it. And its heap has no hole, unless the space is
released: every address from the end of the data up to `brk` lies on a mapped page.

No request but a release takes a page away (`AddressSpace.Extends`), so the second
invariant is at stake only where the heap moves, by `setData` and `expandBrk`. The
former leaves an empty heap. The latter may stop short of its target, but it stops at a
page below which it has mapped everything.
-/

namespace Kernelet

theorem PageTable.isMapped_eq_isSome_page? (table : PageTable) (pool : FramePool) (p : Nat) :
    table.isMapped p = (table.page? pool p).isSome := by
  unfold isMapped page?
  rw [Option.isSome_map]

/-- A page that looks the same is mapped or not mapped as before. -/
theorem PageTable.isMapped_congr {table after : PageTable} {pool next : FramePool} {p : Nat}
    (h : after.page? next p = table.page? pool p) : after.isMapped p = table.isMapped p := by
  rw [after.isMapped_eq_isSome_page? next, h, ← isMapped_eq_isSome_page?]

/-- In an ascending list, what is less than an entry stands before it. -/
theorem mem_take_of_lt {pages : List Nat} (hpages : pages.Pairwise (· < ·)) {n p q : Nat}
    (hn : pages[n]? = some p) (hmem : q ∈ pages) (hlt : q < p) : q ∈ pages.take n := by
  obtain ⟨i, hi, rfl⟩ := List.mem_iff_getElem.mp hmem
  obtain ⟨hnlt, rfl⟩ := List.getElem?_eq_some_iff.mp hn
  refine List.mem_take_iff_getElem.mpr ⟨i, ?_, rfl⟩
  have hbefore : i < n := by
    by_contra hnot
    rcases Nat.lt_or_eq_of_le (Nat.le_of_not_lt hnot) with hafter | rfl
    · exact absurd hlt (Nat.lt_asymm (List.pairwise_iff_getElem.mp hpages n i hnlt hi hafter))
    · exact Nat.lt_irrefl _ hlt
  exact Nat.lt_min.mpr ⟨hbefore, hi⟩

namespace AddressSpace

/-- The same space over a table that maps at least as much. -/
structure Extends (space after : AddressSpace) : Prop where
  eq : after = { space with table := after.table }
  maxPages_eq : after.table.maxPages = space.table.maxPages
  isMapped : ∀ p, space.table.isMapped p = true → after.table.isMapped p = true

/-- The heap does not begin above its end, and it lies on mapped pages. -/
structure Covered (space : AddressSpace) : Prop where
  dataEnd_le_brk : space.dataEnd ≤ space.brk
  isMapped : ∀ a : VirtAddr, space.dataEnd ≤ a.toNat → a.toNat < space.brk →
    space.table.isMapped a.page = true

variable {space after : AddressSpace}

theorem Extends.refl (space : AddressSpace) : space.Extends space :=
  ⟨rfl, rfl, fun _ h => h⟩

theorem Extends.trans {last : AddressSpace} (h : space.Extends after)
    (hnext : after.Extends last) : space.Extends last where
  eq := by
    rw [hnext.eq, h.eq]
  maxPages_eq := hnext.maxPages_eq.trans h.maxPages_eq
  isMapped := fun p hp => hnext.isMapped p (h.isMapped p hp)

theorem Sized.extends (h : space.Sized) (hextends : space.Extends after) : after.Sized := by
  unfold Sized at h ⊢
  rw [hextends.maxPages_eq, h, hextends.eq]

theorem Covered.extends (h : space.Covered) (hextends : space.Extends after) :
    after.Covered := by
  rw [hextends.eq]
  exact ⟨h.dataEnd_le_brk, fun a hlow hhigh => hextends.isMapped _ (h.isMapped a hlow hhigh)⟩

theorem sized_new (size : Nat) : (new size).Sized := rfl

theorem covered_new (size : Nat) : (new size).Covered :=
  ⟨Nat.le_refl 0, fun a _ hhigh => absurd hhigh (Nat.not_lt_zero a.toNat)⟩

/-- All that lies below the place where a heap stops is mapped already, or is mapped on
the way. -/
theorem mapped_or_mem_of_lt_heapStop {newBrk a : VirtAddr} {free : Nat}
    (hlow : space.brk ≤ a.toNat)
    (hhigh : a.toNat < space.heapStop free (pageCeil newBrk.toNat)) :
    space.table.isMapped a.page = true ∨
      a.page ∈ (space.heapGap (pageCeil newBrk.toNat)).take free := by
  rw [or_iff_not_imp_left, Bool.not_eq_true]
  intro hfree
  have hfirst : space.brk / pageSize ≤ a.page := Nat.div_le_div_right hlow
  -- A page below the target is in the gap, and a page below the stop has had its turn.
  have hgap : a.page < pageCeil newBrk.toNat / pageSize →
      a.page ∈ space.heapGap (pageCeil newBrk.toNat) := by
    intro hlt
    exact PageTable.mem_unmapped.mpr ⟨hfirst, by omega, hfree⟩
  unfold heapStop at hhigh
  split at hhigh
  · rename_i hall
    rw [List.take_of_length_le (List.getElem?_eq_none_iff.mp hall)]
    apply hgap
    rw [pageCeil, Nat.mul_div_cancel _ pageSize_pos, VirtAddr.page,
      Nat.div_lt_iff_lt_mul pageSize_pos]
    exact hhigh
  · rename_i p hstop
    have hlt : a.page < p := by
      rw [VirtAddr.page, Nat.div_lt_iff_lt_mul pageSize_pos]
      omega
    have hp := (PageTable.mem_unmapped.mp (List.mem_of_getElem? hstop)).2.1
    exact mem_take_of_lt (space.table.unmapped_pairwise _ _) hstop (hgap (by omega)) hlt

end AddressSpace

namespace Memory

open AddressSpace (Extends Covered Sized)

variable {total reserved : Nat} {others : List PageTable} {m after : Memory} {p : Nat}
  {page : Page} {child : AddressSpace}

theorem Update.extends (h : Update m after others p page) : m.space.Extends after.space where
  eq := h.space_eq
  maxPages_eq := h.maxPages_eq
  isMapped := by
    intro q hq
    by_cases hpq : p = q
    · rw [← hpq, PageTable.isMapped_eq_isSome_page? _ after.pool, h.page_self]
      rfl
    · exact (PageTable.isMapped_congr (h.page_ne q hpq)).trans hq

theorem Copy.extends (h : Copy m after child others) : m.space.Extends after.space where
  eq := h.space_eq
  maxPages_eq := h.maxPages_eq
  isMapped := by
    intro q hq
    exact (PageTable.isMapped_congr (h.page_eq q)).trans hq

theorem Copy.extends_child (h : Copy m after child others) : m.space.Extends child where
  eq := h.child_eq
  maxPages_eq := h.maxPages_child
  isMapped := by
    intro q hq
    exact (PageTable.isMapped_congr (h.page_child q)).trans hq

theorem mapPage_extends (h : Fits total reserved others m) (a : VirtAddr) (flags : PageFlags) :
    m.space.Extends (m.mapPage a flags).state.space := by
  rcases mapPage_cases h a flags with
    ⟨-, hrun⟩ | ⟨-, -, hrun⟩ | ⟨-, -, ⟨-, hrun⟩ | ⟨after, hrun, -, hupdate⟩⟩
  · rw [hrun]
    exact Extends.refl m.space
  · rw [hrun]
    exact Extends.refl m.space
  · rw [hrun]
    exact Extends.refl m.space
  · rw [hrun]
    exact hupdate.extends

theorem writeByte_extends (h : Fits total reserved others m) (a : VirtAddr) (byte : UInt8) :
    m.space.Extends (m.writeByte a byte).state.space := by
  rcases writeByte_cases h a byte with
    ⟨-, hrun⟩ | ⟨page, -, ⟨-, hrun⟩ | ⟨-, ⟨-, hrun⟩ | ⟨after, hrun, -, hupdate⟩⟩⟩
  · rw [hrun]
    exact Extends.refl m.space
  · rw [hrun]
    exact Extends.refl m.space
  · rw [hrun]
    exact Extends.refl m.space
  · rw [hrun]
    exact hupdate.extends

theorem writeFrom_extends (h : Fits total reserved others m) (a : VirtAddr) (i : Nat)
    (bytes : List UInt8) : m.space.Extends (m.writeFrom a i bytes).state.space := by
  induction bytes generalizing m i with
  | nil => exact Extends.refl m.space
  | cons byte rest ih =>
      unfold writeFrom
      cases rangeAddress a i with
      | error e => exact Extends.refl m.space
      | ok b =>
          have hfits := writeByte_fits h b byte
          have hbyte := writeByte_extends h b byte
          dsimp only
          rcases hrun : m.writeByte b byte with ⟨_ | _, after⟩
          · rw [hrun] at hbyte
            exact hbyte
          · rw [hrun] at hfits hbyte
            exact hbyte.trans (ih hfits (i + 1))

/-- The pages that a heap takes are added to the table. -/
theorem Grown.extends {pages : List Nat} (h : Grown m after pages) :
    m.space.Extends after.space where
  eq := h.space_eq
  maxPages_eq := h.maxPages_eq
  isMapped := by
    intro q hq
    unfold PageTable.isMapped at hq ⊢
    by_cases hmem : q ∈ pages
    · obtain ⟨frame, hlookup, -⟩ := h.added q hmem
      rw [hlookup]
      rfl
    · rw [h.lookup_eq q hmem]
      exact hq

theorem expandBrk_sized (h : Fits total reserved others m) (hsized : m.space.Sized)
    (newBrk : VirtAddr) : (m.expandBrk newBrk).2.space.Sized := by
  rcases expandBrk_cases h hsized newBrk with ⟨-, hrun⟩ | ⟨-, after, -, hgrown, hrun⟩
  · rw [hrun]
    exact hsized
  · have hafter : after.space.Sized := hsized.extends hgrown.extends
    rw [hrun]
    exact hafter

/-- A space keeps the size of its table. -/
theorem serve_sized (h : Fits total reserved others m) (hsized : m.space.Sized)
    (request : Request) : (m.serve request).state.space.Sized := by
  cases request with
  | map a flags => exact hsized.extends (mapPage_extends h a flags)
  | expandBrk newBrk => exact expandBrk_sized h hsized newBrk
  | readByte a => exact hsized
  | writeByte a byte => exact hsized.extends (writeByte_extends h a byte)
  | readRange a length => exact hsized
  | writeRange a bytes => exact hsized.extends (writeFrom_extends h a 0 bytes)
  | release => exact hsized
  | setCode start stop => exact hsized
  | setData start stop => exact hsized

/-- The heap stays without holes wherever it comes to end. -/
theorem expandBrk_covered (h : Fits total reserved others m) (hsized : m.space.Sized)
    (hcovered : m.space.Covered) (newBrk : VirtAddr) :
    (m.expandBrk newBrk).2.space.Covered := by
  rcases expandBrk_cases h hsized newBrk with ⟨-, hrun⟩ | ⟨hgrows, after, -, hgrown, hrun⟩
  · rw [hrun]
    exact hcovered
  rw [hrun]
  have hbounds := AddressSpace.brk_le_heapStop hgrows m.pool.freeCount
  have hdata : ∀ stop, (after.setBrk stop).space.dataEnd = m.space.dataEnd := by
    intro stop
    unfold setBrk
    rw [hgrown.space_eq]
  constructor
  · rw [hdata]
    exact Nat.le_trans hcovered.dataEnd_le_brk hbounds
  · intro a hlow hhigh
    rw [hdata] at hlow
    by_cases hold : a.toNat < m.space.brk
    · exact hgrown.extends.isMapped _ (hcovered.isMapped a hlow hold)
    · rcases AddressSpace.mapped_or_mem_of_lt_heapStop (Nat.le_of_not_lt hold) hhigh with
        hmapped | hmem
      · exact hgrown.extends.isMapped _ hmapped
      · obtain ⟨frame, hlookup, -⟩ := hgrown.added _ hmem
        exact Option.isSome_of_eq_some hlookup

/-- No request but a release makes a hole in the heap. -/
theorem serve_covered (h : Fits total reserved others m) (hsized : m.space.Sized)
    (hcovered : m.space.Covered) {request : Request} (hrequest : request ≠ .release) :
    (m.serve request).state.space.Covered := by
  cases request with
  | map a flags => exact hcovered.extends (mapPage_extends h a flags)
  | expandBrk newBrk => exact expandBrk_covered h hsized hcovered newBrk
  | readByte a => exact hcovered
  | writeByte a byte => exact hcovered.extends (writeByte_extends h a byte)
  | readRange a length => exact hcovered
  | writeRange a bytes => exact hcovered.extends (writeFrom_extends h a 0 bytes)
  | release => exact absurd rfl hrequest
  | setCode start stop => exact ⟨hcovered.dataEnd_le_brk, hcovered.isMapped⟩
  | setData start stop =>
      exact ⟨Nat.le_refl stop, fun a hlow hhigh => absurd hhigh (Nat.not_lt_of_le hlow)⟩

end Memory

end Kernelet
