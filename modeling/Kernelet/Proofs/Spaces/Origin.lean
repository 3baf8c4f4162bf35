import Kernelet.Proofs.Memory.HeapCover
import Kernelet.Proofs.Spaces.ByteAccess

/-!
Where the spaces come from that live once a request has been served. A space was created
just now, has come through a fork as the parent or as the child, has served the request
itself, or is one of those that the request is not about (`origin`).

An invariant of single spaces holds through any history if it holds of new spaces and
comes through forks and accesses. That each table has the size of its space is one
(`serveAll_sized`).
-/

namespace Kernelet.Spaces

/-- Space number `j` has come out of a request as `space`. -/
inductive Origin (s : Spaces) : Request → Nat → AddressSpace → Prop
  | kept {request : Request} {j : Nat} {space : AddressSpace}
      (hspace : s.space? j = some space) : Origin s request j space
  | created (size : Nat) : Origin s (.create size) s.slots.length (AddressSpace.new size)
  /-- The parent of a fork. -/
  | parent {i : Nat} {before after : AddressSpace} (hspace : s.space? i = some before)
      (hextends : before.Extends after) : Origin s (.fork i) i after
  | child {i j : Nat} {before after : AddressSpace} (hspace : s.space? i = some before)
      (hextends : before.Extends after)
      (hresult : (s.serve (.fork i)).result = .ok (.created j)) : Origin s (.fork i) j after
  | served {j : Nat} {before : AddressSpace} (hspace : s.space? j = some before)
      (request : Memory.Request) :
      Origin s (.access j request) j ((Memory.mk before s.pool).serve request).state.space

variable {total reserved : Nat} {s : Spaces} {i j : Nat} {space : AddressSpace}

/-- A space that is put back leaves the others where they are. -/
theorem space?_put_ne (hij : i ≠ j) (m : Memory) : (s.put i m).space? j = s.space? j := by
  unfold space? put
  rw [List.getElem?_set_ne hij]

theorem origin_create {size : Nat} (hspace : (s.create size).2.space? j = some space) :
    Origin s (.create size) j space := by
  have hplace := join_getElem?_concat s.slots (some (AddressSpace.new size)) j
  by_cases hlast : s.slots.length = j
  · subst hlast
    rw [if_pos rfl] at hplace
    cases hplace.symm.trans hspace
    exact .created size
  · rw [if_neg hlast] at hplace
    exact .kept (hplace.symm.trans hspace)

theorem origin_fork (h : Fits total reserved s)
    (hspace : (s.fork i).state.space? j = some space) : Origin s (.fork i) j space := by
  cases hbefore : s.space? i with
  | none =>
      unfold fork at hspace
      rw [hbefore] at hspace
      exact .kept hspace
  | some before =>
      obtain ⟨child, after, hrun, -, hcopy⟩ := Memory.fork_eq (h.focus hbefore)
      have hfork := fork_of_ok hbefore hrun
      have hlast := join_getElem?_concat (s.slots.set i (some after.space)) (some child) j
      have hset := join_getElem?_set (lt_length_of_space? hbefore) (some after.space) j
      rw [hfork] at hspace
      rw [List.length_set] at hlast
      by_cases hj : s.slots.length = j
      · rw [if_pos hj] at hlast
        cases hlast.symm.trans hspace
        refine .child hbefore hcopy.extends_child ?_
        rw [← hj]
        exact congrArg Outcome.result hfork
      · rw [if_neg hj, hset] at hlast
        by_cases hij : i = j
        · rw [if_pos hij] at hlast
          cases hlast.symm.trans hspace
          exact hij ▸ .parent hbefore hcopy.extends
        · rw [if_neg hij] at hlast
          exact .kept (hlast.symm.trans hspace)

theorem origin_access {request : Memory.Request}
    (hspace : (s.access i request).state.space? j = some space) :
    Origin s (.access i request) j space := by
  unfold access at hspace
  cases hbefore : s.space? i with
  | none =>
      rw [hbefore] at hspace
      exact .kept hspace
  | some before =>
      rw [hbefore] at hspace
      by_cases hij : i = j
      · subst hij
        cases (space?_put (lt_length_of_space? hbefore) _).symm.trans hspace
        exact .served hbefore request
      · exact .kept ((space?_put_ne hij _).symm.trans hspace)

theorem origin (h : Fits total reserved s) (request : Request)
    (hspace : (s.serve request).state.space? j = some space) : Origin s request j space := by
  cases request with
  | create size => exact origin_create hspace
  | fork i => exact origin_fork h hspace
  | drop i => exact .kept (space?_drop hspace).2
  | access i request => exact origin_access hspace

/-- A space that lives can always be forked. -/
theorem exists_child {earlier : List Request}
    (hspace : ((boot total reserved).serveAll earlier).2.space? i = some space) :
    ∃ child, ((boot total reserved).serveAll (earlier ++ [.fork i])).2.space?
      ((boot total reserved).serveAll earlier).2.slots.length = some child := by
  have hfits := serveAll_fits (boot_fits total reserved) earlier
  obtain ⟨child, after, hrun, -⟩ := Memory.fork_eq (hfits.focus hspace)
  refine ⟨child, ?_⟩
  rw [serveAll_concat, serve, fork_of_ok hspace hrun]
  refine (join_getElem?_concat _ (some child) _).trans (if_pos ?_)
  exact List.length_set

theorem serve_sized (h : Fits total reserved s)
    (hsized : ∀ j space, s.space? j = some space → space.Sized) (request : Request) :
    ∀ j space, (s.serve request).state.space? j = some space → space.Sized := by
  intro j space hspace
  cases origin h request hspace with
  | kept hold => exact hsized j space hold
  | created size => exact AddressSpace.sized_new size
  | parent hbefore hextends => exact (hsized _ _ hbefore).extends hextends
  | child hbefore hextends => exact (hsized _ _ hbefore).extends hextends
  | served hbefore request =>
      exact Memory.serve_sized (h.focus hbefore) (hsized _ _ hbefore) request

theorem serveAll_sized (h : Fits total reserved s)
    (hsized : ∀ j space, s.space? j = some space → space.Sized) (requests : List Request) :
    ∀ j space, (s.serveAll requests).2.space? j = some space → space.Sized := by
  induction requests generalizing s with
  | nil => exact hsized
  | cons request rest ih => exact ih (serve_fits h request) (serve_sized h hsized request)

/-- After any history the table of a space has the size that the space calls for. -/
theorem sized_of_boot {requests : List Request}
    (hspace : ((boot total reserved).serveAll requests).2.space? j = some space) :
    space.Sized := by
  refine serveAll_sized (boot_fits total reserved) ?_ requests j space hspace
  intro j space hnone
  cases hnone

end Kernelet.Spaces
