import Mathlib.Data.Set.Basic
import Kernelet.Proofs.Memory.Alike
import Kernelet.Proofs.Spaces.Balance

/-!
No data leaks between spaces. Two runs are compared that ask the same but for the
bytes that are written into some spaces `H`, the secret ones. Whatever is asked of
another space is answered the same in both (`noninterference`), even if that space
is given frames which a secret one has had.

The runs stay `Indistinct`: the same spaces live in both, with the same tables over
pools with the same books, and a space outside `H` shows the same pages. A request to
one space keeps that because the operations of a space go the same way in both
(`Memory.serve_alike`) and write to no frame of another one (`Memory.serve_keeps`).
-/

namespace Kernelet.Spaces

/-- The same request, but for the values of the bytes that it writes into a space
of `H`. -/
inductive Request.Alike (H : Set Nat) : Request → Request → Prop
  | same (request : Request) : Alike H request request
  | secret {i : Nat} (hi : i ∈ H) {request counterpart : Memory.Request}
      (hshape : request.SameShape counterpart) :
      Alike H (.access i request) (.access i counterpart)

/-- The request is not about a space of `H`. -/
def Request.Outside (H : Set Nat) : Request → Prop
  | .create _ => True
  | .fork i | .drop i | .access i _ => i ∉ H

/-- When the requests are served, no space outside `H` is forked from one in `H`. -/
def Confined (H : Set Nat) (s : Spaces) (requests : List Request) : Prop :=
  ∀ n i c : Nat, requests[n]? = some (.fork i) →
    (s.serveAll requests).1[n]? = some (.ok (.created c)) → i ∈ H → c ∈ H

/-- Two runs that cannot be told apart without looking into a space of `H`. -/
structure Indistinct (H : Set Nat) (s other : Spaces) : Prop where
  slots_eq : other.slots = s.slots
  books : s.pool.Alike (fun _ => False) other.pool
  shows : ∀ i space, i ∉ H → s.space? i = some space →
    ∀ p, space.table.page? other.pool p = space.table.page? s.pool p

variable {H : Set Nat} {total reserved : Nat} {s other : Spaces} {i : Nat}
  {space : AddressSpace} {request counterpart : Request}

namespace Indistinct

theorem refl (s : Spaces) : Indistinct H s s where
  slots_eq := rfl
  books := FramePool.Alike.refl s.pool
  shows := fun _ _ _ _ _ => rfl

theorem space?_eq (h : Indistinct H s other) (i : Nat) : other.space? i = s.space? i := by
  unfold space?
  rw [h.slots_eq]

/-- One space in both runs. It is clear if it is not in `H`. -/
theorem focus (h : Indistinct H s other) (hspace : s.space? i = some space) :
    Memory.Alike (i ∉ H) ⟨space, s.pool⟩ ⟨space, other.pool⟩ where
  space_eq := rfl
  pool :=
    { h.books with
      bytes_eq := by
        rintro f ⟨hout, hf⟩
        exact PageTable.page?_eq_iff.mp (h.shows i space hout hspace) f hf }

/-- One place changes in both runs, and the frames of all other spaces keep their
bytes. -/
theorem set (h : Indistinct H s other) (hi : i < s.slots.length) {pool next : FramePool}
    {slot : Option AddressSpace} (hbooks : pool.Alike (fun _ => False) next)
    (hslot : ∀ space, slot = some space → i ∉ H →
      ∀ p, space.table.page? next p = space.table.page? pool p)
    (hkeeps : KeepsBytes s.pool pool (tablesIn (s.slots.set i none)))
    (hother : KeepsBytes other.pool next (tablesIn (s.slots.set i none))) :
    Indistinct H ⟨pool, s.slots.set i slot⟩ ⟨next, other.slots.set i slot⟩ where
  slots_eq := by
    rw [h.slots_eq]
  books := hbooks
  shows := by
    intro j found hout hfound p
    have hplace := join_getElem?_set hi slot j
    by_cases hij : i = j
    · subst hij
      rw [if_pos rfl] at hplace
      exact hslot found (hplace.symm.trans hfound) hout p
    · rw [if_neg hij] at hplace
      have hspace : s.space? j = some found := hplace.symm.trans hfound
      have hmem := table_mem_of_ne hij hspace
      rw [hkeeps.page?_eq hmem, hother.page?_eq hmem]
      exact h.shows j found hout hspace p

theorem concat (h : Indistinct H s other)
    (hspace : s.slots.length ∉ H →
      ∀ p, space.table.page? other.pool p = space.table.page? s.pool p) :
    Indistinct H { s with slots := s.slots ++ [some space] }
      { other with slots := other.slots ++ [some space] } where
  slots_eq := by
    rw [h.slots_eq]
  books := h.books
  shows := by
    intro j found hout hfound
    have hplace := join_getElem?_concat s.slots (some space) j
    by_cases hlast : s.slots.length = j
    · subst hlast
      rw [if_pos rfl] at hplace
      cases hplace.symm.trans hfound
      exact hspace hout
    · rw [if_neg hlast] at hplace
      exact h.shows j found hout (hplace.symm.trans hfound)

/-- Requests of the same shape to one space. -/
theorem access (hfits : Fits total reserved s) (hother : Fits total reserved other)
    (h : Indistinct H s other) {request counterpart : Memory.Request}
    (hshape : request.SameShape counterpart) (hclear : i ∉ H → counterpart = request) :
    Indistinct H (s.access i request).state (other.access i counterpart).state ∧
      (i ∉ H → (other.access i counterpart).result = (s.access i request).result) := by
  unfold Spaces.access
  rw [h.space?_eq]
  cases hspace : s.space? i with
  | none => exact ⟨h, fun _ => rfl⟩
  | some space =>
      have hspace' := (h.space?_eq i).trans hspace
      obtain ⟨halike, hresult⟩ := Memory.serve_alike (h.focus hspace) hshape hclear
      have hkeeps := Memory.serve_keeps (hfits.focus hspace) request
      have hkeeps' := Memory.serve_keeps (hother.focus hspace') counterpart
      rw [h.slots_eq] at hkeeps'
      refine ⟨?_, fun hout => congrArg (Except.map Reply.access) (hresult hout)⟩
      dsimp only
      unfold put
      rw [halike.space_eq]
      refine h.set (lt_length_of_space? hspace) (halike.pool.mono fun f hf => hf.elim) ?_
        hkeeps hkeeps'
      intro found hfound hout
      cases hfound
      exact PageTable.page?_eq_iff.mpr fun f hf => halike.pool.bytes_eq f ⟨hout, hf⟩

/-- A fork, unless it takes a space out of `H`. -/
theorem fork (hfits : Fits total reserved s) (hother : Fits total reserved other)
    (h : Indistinct H s other)
    (hstays : ∀ c, (s.fork i).result = .ok (.created c) → i ∈ H → c ∈ H) :
    Indistinct H (s.fork i).state (other.fork i).state ∧
      (other.fork i).result = (s.fork i).result := by
  cases hspace : s.space? i with
  | none =>
      have hspace' := (h.space?_eq i).trans hspace
      unfold Spaces.fork
      rw [hspace, hspace']
      exact ⟨h, rfl⟩
  | some space =>
      have hspace' := (h.space?_eq i).trans hspace
      obtain ⟨child, after, hrun, -, hcopy⟩ := Memory.fork_eq (hfits.focus hspace)
      obtain ⟨child', next, hnext, -, hcopy'⟩ := Memory.fork_eq (hother.focus hspace')
      obtain ⟨hresult, halike⟩ := Memory.fork_alike (h.focus hspace)
      rw [hrun, hnext] at hresult halike
      cases hresult
      have hnextSpace : next.space = after.space := halike.space_eq
      -- Parent and child show what the parent did, and that was the same in both runs.
      have hparent : i ∉ H → ∀ p,
          after.space.table.page? next.pool p = after.space.table.page? after.pool p := by
        intro hout p
        rw [hcopy.page_eq p, ← hnextSpace, hcopy'.page_eq p]
        exact h.shows i space hout hspace p
      have hchild : i ∉ H → ∀ p,
          child.table.page? next.pool p = child.table.page? after.pool p := by
        intro hout p
        rw [hcopy.page_child p, hcopy'.page_child p]
        exact h.shows i space hout hspace p
      have hkeeps' := hcopy'.keeps
      rw [h.slots_eq] at hkeeps'
      have hset : Indistinct H ⟨after.pool, s.slots.set i (some after.space)⟩
          ⟨next.pool, other.slots.set i (some after.space)⟩ := by
        refine h.set (lt_length_of_space? hspace) (halike.pool.mono fun f hf => hf.elim) ?_
          hcopy.keeps hkeeps'
        intro found hfound hout
        cases hfound
        exact hparent hout
      rw [fork_of_ok hspace hrun] at hstays ⊢
      rw [fork_of_ok hspace' hnext, hnextSpace]
      refine ⟨hset.concat ?_, ?_⟩
      · rw [List.length_set]
        intro hlast
        exact hchild fun hi => hlast (hstays _ rfl hi)
      · rw [h.slots_eq]

theorem drop (h : Indistinct H s other) (i : Nat) :
    Indistinct H (s.drop i).2 (other.drop i).2 ∧ (other.drop i).1 = (s.drop i).1 := by
  unfold Spaces.drop
  rw [h.space?_eq]
  cases hspace : s.space? i with
  | none => exact ⟨h, rfl⟩
  | some space =>
      have hkeeps : ∀ pool : FramePool,
          KeepsBytes pool (space.releaseFrames pool) (tablesIn (s.slots.set i none)) :=
        fun pool f _ => FramePool.bytesOf_freeAll pool space.table.frames f
      refine ⟨h.set (lt_length_of_space? hspace) (h.books.freeAll _) ?_ (hkeeps _) (hkeeps _), rfl⟩
      intro found hfound
      cases hfound

/-- One request in both runs. -/
theorem serve (hfits : Fits total reserved s) (hother : Fits total reserved other)
    (h : Indistinct H s other) (halike : request.Alike H counterpart)
    (hstays : ∀ i c, request = .fork i → (s.serve request).result = .ok (.created c) →
      i ∈ H → c ∈ H) :
    Indistinct H (s.serve request).state (other.serve counterpart).state ∧
      (request.Outside H → (other.serve counterpart).result = (s.serve request).result) := by
  cases halike with
  | secret hi hshape =>
      exact access hfits hother h hshape fun hout => absurd hi hout
  | same =>
      cases request with
      | create size =>
          refine ⟨h.concat fun _ p => ?_, fun _ => ?_⟩
          · have hnone : (AddressSpace.new size).table.lookup p = none := PageTable.lookup_new _ p
            unfold PageTable.page?
            rw [hnone, Option.map_none, Option.map_none]
          · show Except.ok (Reply.created other.slots.length) =
              Except.ok (Reply.created s.slots.length)
            rw [h.slots_eq]
      | fork i =>
          obtain ⟨hafter, hresult⟩ := fork hfits hother h fun c => hstays i c rfl
          exact ⟨hafter, fun _ => hresult⟩
      | drop i =>
          obtain ⟨hafter, hreply⟩ := h.drop i
          exact ⟨hafter, fun _ => congrArg Except.ok hreply⟩
      | access i request =>
          exact access hfits hother h (Memory.Request.SameShape.same request) fun _ => rfl

theorem serveAll {left right : List Request} (hfits : Fits total reserved s)
    (hother : Fits total reserved other) (h : Indistinct H s other)
    (halike : List.Forall₂ (Request.Alike H) left right) (hconfined : s.Confined H left)
    {n : Nat} (hrequest : left[n]? = some request) (hout : request.Outside H) :
    ∃ result, (s.serveAll left).1[n]? = some result ∧
      (other.serveAll right).1[n]? = some result := by
  induction halike generalizing s other n with
  | nil => cases hrequest
  | @cons first first' rest rest' hfirst hrest ih =>
      obtain ⟨hafter, hresult⟩ := serve hfits hother h hfirst fun i c hfork hdone =>
        hconfined 0 i c (congrArg some hfork) (congrArg some hdone)
      cases n with
      | zero =>
          cases hrequest
          exact ⟨(s.serve request).result, rfl, congrArg some (hresult hout)⟩
      | succ n =>
          exact ih (serve_fits hfits first) (serve_fits hother first') hafter
            (fun n i c hfork hdone => hconfined (n + 1) i c hfork hdone) hrequest

end Indistinct

/-- Two runs from the same empty pool that ask the same, but for the bytes written
into spaces of `H`, answer the same to every request that is not about a space of
`H`, as long as no space leaves `H` by a fork. -/
theorem noninterference (total reserved : Nat) {H : Set Nat} {left right : List Request}
    (halike : List.Forall₂ (Request.Alike H) left right)
    (hconfined : (boot total reserved).Confined H left) {n : Nat} {request : Request}
    (hrequest : left[n]? = some request) (hout : request.Outside H) :
    ∃ result, ((boot total reserved).serveAll left).1[n]? = some result ∧
      ((boot total reserved).serveAll right).1[n]? = some result :=
  Indistinct.serveAll (boot_fits total reserved) (boot_fits total reserved)
    (Indistinct.refl (boot total reserved)) halike hconfined hrequest hout

/-- A space gets the only frame of memory after another one has written to it. What
that one wrote makes no difference. -/
theorem noninterference_recycled :
    let a := VirtAddr.ofPage 0
    let run (secret : UInt8) : List Request := [.create 8192, .create 8192,
      .access 0 (.map a .userData), .access 0 (.writeByte a secret), .drop 0,
      .access 1 (.map a .userData), .access 1 (.readByte a)]
    ∃ result, ((boot 1 0).serveAll (run 7)).1[6]? = some result ∧
      ((boot 1 0).serveAll (run 9)).1[6]? = some result := by
  intro a run
  have hdiffer : Request.Alike {0} (.access 0 (.writeByte a 7)) (.access 0 (.writeByte a 9)) :=
    .secret (Set.mem_singleton 0) (.byte a 7 9)
  have halike : List.Forall₂ (Request.Alike {0}) (run 7) (run 9) :=
    .cons (.same _) (.cons (.same _) (.cons (.same _) (.cons hdiffer
      (.cons (.same _) (.cons (.same _) (.cons (.same _) .nil))))))
  have hconfined : (boot 1 0).Confined {0} (run 7) := by
    intro n i c hfork
    have hmem := List.mem_of_getElem? hfork
    simp [run] at hmem
  have hout : Request.Outside {0} (.access 1 (.readByte a)) := by
    intro hone
    cases Set.mem_singleton_iff.mp hone
  exact noninterference 1 0 halike hconfined rfl hout

end Kernelet.Spaces
