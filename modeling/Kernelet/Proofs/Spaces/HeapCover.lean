import Kernelet.Proofs.Spaces.Origin

/-!
No address that counts as heap or stack faults when it is read. Through any history a
space keeps its heap on mapped pages (`covered_of_not_released`), however its bounds were
set, wherever a growth ended, and on both sides of a fork. Only a release leaves a heap
without pages, and a child that is forked from such a space has none either (`Released`).
-/

namespace Kernelet

namespace AddressSpace

variable {space : AddressSpace} {a : VirtAddr}

theorem bounds_of_heap (h : space.regionKind? a = some .heap) :
    space.dataEnd ≤ a.toNat ∧ a.toNat < space.brk := by
  unfold regionKind? at h
  dsimp only at h
  split at h
  · cases h
  split at h
  · cases h
  split at h
  · rename_i hheap
    simpa using hheap
  · split at h <;> cases h

theorem isMapped_of_stack (h : space.regionKind? a = some .stack) :
    space.table.isMapped a.page = true := by
  unfold regionKind? at h
  dsimp only at h
  split at h
  · cases h
  split at h
  · cases h
  split at h
  · cases h
  split at h
  · rename_i hstack
    rw [Bool.and_eq_true] at hstack
    exact hstack.2
  · cases h

/-- Heap and stack lie on mapped pages. -/
theorem Covered.isMapped_of_region (h : space.Covered)
    (hregion : space.regionKind? a = some .heap ∨ space.regionKind? a = some .stack) :
    space.table.isMapped a.page = true := by
  rcases hregion with hheap | hstack
  · obtain ⟨hlow, hhigh⟩ := bounds_of_heap hheap
    exact h.isMapped a hlow hhigh
  · exact isMapped_of_stack hstack

end AddressSpace

namespace Spaces

/-- In the course of the requests space `i` was released, or it was forked from a space
that had been. -/
inductive Released (s : Spaces) : List Request → Nat → Prop
  | release (requests : List Request) (i : Nat) :
      Released s (requests ++ [.access i .release]) i
  | child {requests : List Request} {i j : Nat} (h : Released s requests i)
      (hresult : ((s.serveAll requests).2.serve (.fork i)).result = .ok (.created j)) :
      Released s (requests ++ [.fork i]) j
  | later {requests : List Request} {i : Nat} (h : Released s requests i) (request : Request) :
      Released s (requests ++ [request]) i

variable {total reserved : Nat} {s : Spaces} {i : Nat} {space : AddressSpace}

theorem covered_of_not_released {requests : List Request}
    (hspace : ((boot total reserved).serveAll requests).2.space? i = some space)
    (hlineage : ¬ (boot total reserved).Released requests i) : space.Covered := by
  induction requests using List.reverseRecOn generalizing i space with
  | nil => cases hspace
  | append_singleton requests request ih =>
      have hfits := serveAll_fits (boot_fits total reserved) requests
      rw [serveAll_concat] at hspace
      cases origin hfits request hspace with
      | kept hbefore => exact ih hbefore fun h => hlineage (h.later request)
      | created size => exact AddressSpace.covered_new size
      | parent hbefore hextends =>
          exact (ih hbefore fun h => hlineage (h.later _)).extends hextends
      | child hbefore hextends hresult =>
          exact (ih hbefore fun h => hlineage (h.child hresult)).extends hextends
      | served hbefore request =>
          apply Memory.serve_covered (hfits.focus hbefore) (sized_of_boot hbefore)
            (ih hbefore fun h => hlineage (h.later _))
          rintro rfl
          exact hlineage (Released.release requests i)

/-- A byte of a mapped page can be read. -/
theorem exists_readByte (h : Fits total reserved s) (hspace : s.space? i = some space)
    {a : VirtAddr} (hmapped : space.table.isMapped a.page = true) :
    ∃ byte, (s.serve (.access i (.readByte a))).result = .ok (.access (.byte byte)) := by
  obtain ⟨entry, hlookup⟩ := Option.isSome_iff_exists.mp hmapped
  have hreads := reads h hspace a
  refine hreads.answers.resolve_left fun hfault => ?_
  exact hreads.pageFault_iff.mp hfault ⟨entry, (maps_iff hspace).mpr hlookup⟩

/-- After any history in which neither a space nor one that it descends from was
released, its heap is whole, and its heap and its stack can be read. -/
theorem covered_serveAll (total reserved : Nat) (requests : List Request) {i : Nat}
    {space : AddressSpace}
    (hspace : ((boot total reserved).serveAll requests).2.space? i = some space)
    (hlineage : ¬ (boot total reserved).Released requests i) :
    space.Covered ∧
      ∀ a, space.regionKind? a = some .heap ∨ space.regionKind? a = some .stack →
        ∃ byte, (((boot total reserved).serveAll requests).2.serve
          (.access i (.readByte a))).result = .ok (.access (.byte byte)) := by
  have hcovered := covered_of_not_released hspace hlineage
  refine ⟨hcovered, fun a hregion => ?_⟩
  exact exists_readByte (serveAll_fits (boot_fits total reserved) requests) hspace
    (hcovered.isMapped_of_region hregion)

/-- Requests without a release release nothing. -/
theorem not_released {requests : List Request}
    (hnone : ∀ j, .access j .release ∉ requests) : ¬ s.Released requests i := by
  intro h
  induction h with
  | release requests j => exact hnone j (List.mem_append_right _ List.mem_cons_self)
  | child h hresult ih => exact ih fun j hmem => hnone j (List.mem_append_left _ hmem)
  | later h request ih => exact ih fun j hmem => hnone j (List.mem_append_left _ hmem)

/-- The child of a space whose data ends in the middle of a page and whose heap stopped
for want of memory. -/
theorem covered_after_fork :
    let earlier : List Request := [.create 16384, .access 0 (.setData 100 5000),
      .access 0 (.expandBrk ⟨16384, by decide⟩)]
    let requests := earlier ++ [.fork 0]
    let s := ((boot 3 1).serveAll requests).2
    ¬ (boot 3 1).Released requests 1 ∧ ∃ space, s.space? 1 = some space ∧ space.Covered ∧
      ∀ a, space.regionKind? a = some .heap ∨ space.regionKind? a = some .stack →
        ∃ byte, (s.serve (.access 1 (.readByte a))).result = .ok (.access (.byte byte)) := by
  intro earlier requests s
  have hlineage : ¬ (boot 3 1).Released requests 1 :=
    not_released (by simp [requests, earlier])
  have hparent : ∃ parent, ((boot 3 1).serveAll earlier).2.space? 0 = some parent := ⟨_, rfl⟩
  obtain ⟨parent, hparent⟩ := hparent
  obtain ⟨space, hspace⟩ := exists_child hparent
  exact ⟨hlineage, space, hspace, covered_serveAll 3 1 requests hspace hlineage⟩

end Spaces

end Kernelet
