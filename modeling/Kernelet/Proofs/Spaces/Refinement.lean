import Kernelet.Proofs.Spaces.Eager

/-!
Copy-on-write refines copying at once. One operation on one space comes first
(`serve_cases`), then one operation among many spaces (`serve_matches`), where
the other spaces keep what they show because their frames keep their bytes, and
then every history.
-/

namespace Kernelet

namespace Shows

variable {total reserved : Nat} {m after : Memory} {others : List PageTable}
  {copy : Eager.Space}

theorem new (pool : FramePool) (size : Nat) :
    Shows pool (AddressSpace.new size) (Eager.Space.new size) where
  maxPages_eq := rfl
  page_eq := by
    intro p
    have hnone : (AddressSpace.new size).table.lookup p = none := PageTable.lookup_new _ p
    unfold PageTable.page? Eager.Space.new
    rw [hnone, Option.map_none, Std.ExtTreeMap.getElem?_empty]

/-- The copy of a page is stored where the page is updated. -/
theorem update {p : Nat} {page : Page} (h : Shows m.pool m.space copy)
    (hupdate : Memory.Update m after others p page) :
    Shows after.pool after.space (copy.store p page) where
  maxPages_eq := hupdate.maxPages_eq.trans h.maxPages_eq
  page_eq := by
    intro q
    unfold Eager.Space.store
    rw [Std.ExtTreeMap.getElem?_insert]
    by_cases hpq : p = q
    · subst hpq
      rw [if_pos (Nat.compare_eq_eq.mpr rfl)]
      exact hupdate.page_self
    · rw [if_neg (fun heq => hpq (Nat.compare_eq_eq.mp heq)), ← h.page_eq q]
      exact hupdate.page_ne q hpq

theorem release (h : Shows m.pool m.space copy) :
    Shows m.release.pool m.release.space { copy with pages := ∅ } where
  maxPages_eq := h.maxPages_eq
  page_eq := by
    intro p
    have hnone : m.release.space.table.lookup p = none := m.space.table.lookup_clear p
    unfold PageTable.page?
    rw [hnone, Option.map_none, Std.ExtTreeMap.getElem?_empty]

/-- A space shows the same in a pool where its frames hold the same. -/
theorem keep {pool next : FramePool} {space : AddressSpace} (h : Shows pool space copy)
    (hkeeps : KeepsBytes pool next others) (hmem : space.table ∈ others) :
    Shows next space copy where
  maxPages_eq := h.maxPages_eq
  page_eq := by
    intro p
    rw [hkeeps.page?_eq hmem]
    exact h.page_eq p

/-- One operation on one space: it answers as the copy does, or it finds no
frame and leaves everything as it was. -/
theorem serve_cases (hfits : Memory.Fits total reserved others m)
    (h : Shows m.pool m.space copy) (act : Eager.Access) :
    (∃ after, m.serve act.request = ⟨(copy.serve act).result, after⟩ ∧
      Shows after.pool after.space (copy.serve act).state ∧
      KeepsBytes m.pool after.pool others) ∨
    (act.takesFrame = true ∧ m.pool.freeCount = 0 ∧
      m.serve act.request = ⟨.error .outOfMemory, m⟩) := by
  have hidle := KeepsBytes.refl m.pool others
  cases act with
  | map a flags =>
      have hpage := h.page_eq a.page
      unfold Memory.serve Eager.Space.serve Eager.Access.request
      dsimp only
      rcases Memory.mapPage_cases hfits a flags with
        ⟨hmapped, hrun⟩ | ⟨hmapped, hle, hrun⟩ |
          ⟨hmapped, hlt, ⟨hfull, hrun⟩ | ⟨after, hrun, -, hupdate⟩⟩
      · left
        obtain ⟨entry, hlookup⟩ := Option.isSome_iff_exists.mp hmapped
        unfold PageTable.page? at hpage
        rw [hlookup, Option.map_some] at hpage
        rw [← hpage, hrun]
        exact ⟨m, rfl, h, hidle⟩
      · left
        unfold PageTable.page? at hpage
        rw [PageTable.isMapped_eq_false_iff.mp hmapped, Option.map_none] at hpage
        rw [h.maxPages_eq] at hle
        rw [← hpage, hrun]
        dsimp only
        rw [if_neg (Nat.not_lt_of_le hle)]
        exact ⟨m, rfl, h, hidle⟩
      · right
        rw [hrun]
        exact ⟨rfl, hfull, rfl⟩
      · left
        unfold PageTable.page? at hpage
        rw [PageTable.isMapped_eq_false_iff.mp hmapped, Option.map_none] at hpage
        rw [h.maxPages_eq] at hlt
        rw [← hpage, hrun]
        dsimp only
        rw [if_pos hlt]
        exact ⟨after, rfl, h.update hupdate, hupdate.keeps⟩
  | readByte a =>
      left
      unfold Memory.serve Eager.Space.serve Eager.Access.request
      dsimp only
      rw [Memory.readByte_eq hfits, h.page_eq]
      cases copy.pages[a.page]? with
      | none => exact ⟨m, rfl, h, hidle⟩
      | some page => exact ⟨m, rfl, h, hidle⟩
  | writeByte a byte =>
      have hpage := h.page_eq a.page
      unfold Memory.serve Eager.Space.serve Eager.Access.request
      dsimp only
      rcases Memory.writeByte_cases hfits a byte with
        ⟨hnone, hrun⟩ | ⟨page, hsome, ⟨hlocked, hrun⟩ |
          ⟨hopen, ⟨hfull, hrun⟩ | ⟨after, hrun, -, hupdate⟩⟩⟩
      · left
        rw [hnone] at hpage
        rw [← hpage, hrun]
        exact ⟨m, rfl, h, hidle⟩
      · left
        rw [hsome] at hpage
        rw [← hpage, hrun]
        dsimp only
        rw [hlocked, if_neg (by simp)]
        exact ⟨m, rfl, h, hidle⟩
      · right
        rw [hrun]
        exact ⟨rfl, hfull, rfl⟩
      · left
        rw [hsome] at hpage
        rw [← hpage, hrun]
        dsimp only
        rw [hopen, if_pos rfl]
        exact ⟨after, rfl, h.update hupdate, hupdate.keeps⟩
  | release =>
      left
      refine ⟨m.release, rfl, h.release, ?_⟩
      intro f _
      exact FramePool.bytesOf_freeAll m.pool m.space.table.frames f

end Shows

namespace Spaces

variable {total reserved : Nat} {s : Spaces} {e : Eager}

namespace Matches

theorem space?_eq_none (h : s.Matches e) {i : Nat} (hnone : s.space? i = none) :
    e.space? i = none := by
  have hi := h.shows i
  rw [hnone] at hi
  cases hcopy : e.space? i with
  | none => rfl
  | some copy =>
      rw [hcopy] at hi
      cases hi

theorem exists_copy (h : s.Matches e) {i : Nat} {space : AddressSpace}
    (hspace : s.space? i = some space) :
    ∃ copy, e.space? i = some copy ∧ Shows s.pool space copy := by
  have hi := h.shows i
  rw [hspace] at hi
  cases hcopy : e.space? i with
  | none =>
      rw [hcopy] at hi
      cases hi
  | some copy =>
      rw [hcopy] at hi
      cases hi with
      | some hshows => exact ⟨copy, rfl, hshows⟩

/-- One place changes in both, and the frames of all other spaces keep their
bytes. -/
theorem set (h : s.Matches e) {i : Nat} (hi : i < s.slots.length) {pool : FramePool}
    {slot : Option AddressSpace} {copy : Option Eager.Space}
    (hrel : Option.Rel (Shows pool) slot copy)
    (hkeeps : KeepsBytes s.pool pool (tablesIn (s.slots.set i none))) :
    Matches ⟨pool, s.slots.set i slot⟩ ⟨e.slots.set i copy⟩ where
  length_eq := by
    rw [List.length_set, List.length_set]
    exact h.length_eq
  shows := by
    intro j
    have hlen := h.length_eq
    have hcopy : i < e.slots.length := by omega
    unfold space? Eager.space?
    rw [join_getElem?_set hi, join_getElem?_set hcopy]
    by_cases hij : i = j
    · rw [if_pos hij, if_pos hij]
      exact hrel
    · rw [if_neg hij, if_neg hij]
      show Option.Rel (Shows pool) (s.space? j) (e.space? j)
      cases hspace : s.space? j with
      | none =>
          rw [h.space?_eq_none hspace]
          exact Option.Rel.none
      | some space =>
          obtain ⟨other, hother, hshows⟩ := h.exists_copy hspace
          rw [hother]
          exact Option.Rel.some (hshows.keep hkeeps (table_mem_of_ne hij hspace))

theorem concat (h : s.Matches e) {space : AddressSpace} {copy : Eager.Space}
    (hshows : Shows s.pool space copy) :
    Matches { s with slots := s.slots ++ [some space] } ⟨e.slots ++ [some copy]⟩ where
  length_eq := by
    rw [List.length_append, List.length_append, h.length_eq]
    rfl
  shows := by
    intro j
    have hj := h.shows j
    unfold space? Eager.space? at hj ⊢
    rw [join_getElem?_concat, join_getElem?_concat, h.length_eq]
    by_cases hlast : e.slots.length = j
    · rw [if_pos hlast, if_pos hlast]
      exact Option.Rel.some hshows
    · rw [if_neg hlast, if_neg hlast]
      exact hj

theorem boot (total reserved : Nat) : (Spaces.boot total reserved).Matches ⟨[]⟩ where
  length_eq := rfl
  shows := by
    intro i
    exact Option.Rel.none

end Matches

/-- One operation on spaces in balance: the model takes the same step, or stays
where it is for want of a frame. -/
theorem serve_matches (hfits : Fits total reserved s) (h : s.Matches e) (op : Eager.Op) :
    ((s.serve op.request).result = (e.serve op).result ∧
      (s.serve op.request).state.Matches (e.serve op).state) ∨
    (op.takesFrame = true ∧ s.pool.freeCount = 0 ∧
      (s.serve op.request).result = .error .outOfMemory ∧
      (s.serve op.request).state.Matches e) := by
  cases op with
  | create size =>
      left
      refine ⟨?_, h.concat (Shows.new s.pool size)⟩
      show Except.ok (Reply.created s.slots.length) = Except.ok (Reply.created e.slots.length)
      rw [h.length_eq]
  | fork i =>
      left
      unfold serve Eager.serve Eager.Op.request fork
      dsimp only
      cases hspace : s.space? i with
      | none =>
          rw [h.space?_eq_none hspace]
          exact ⟨rfl, h⟩
      | some space =>
          obtain ⟨copy, hcopy, hshows⟩ := h.exists_copy hspace
          obtain ⟨child, after, hrun, -, hfork⟩ := Memory.fork_eq (hfits.focus hspace)
          have hi := lt_length_of_space? hspace
          have hparent : Shows after.pool after.space copy :=
            ⟨hfork.maxPages_eq.trans hshows.maxPages_eq,
              fun p => (hfork.page_eq p).trans (hshows.page_eq p)⟩
          have hchild : Shows after.pool child copy :=
            ⟨hfork.maxPages_child.trans hshows.maxPages_eq,
              fun p => (hfork.page_child p).trans (hshows.page_eq p)⟩
          have hset := h.set hi (Option.Rel.some hparent) hfork.keeps
          have hsame : e.slots.set i (some copy) = e.slots := by
            obtain ⟨hlt, hget⟩ := List.getElem?_eq_some_iff.mp (Option.join_eq_some_iff.mp hcopy)
            rw [← hget, List.set_getElem_self]
          rw [hsame] at hset
          rw [hcopy]
          dsimp only
          rw [hrun]
          refine ⟨?_, hset.concat hchild⟩
          have hlen := hset.length_eq
          show Except.ok (Reply.created (s.slots.set i (some after.space)).length) =
            Except.ok (Reply.created e.slots.length)
          rw [hlen]
  | drop i =>
      left
      unfold serve Eager.serve Eager.Op.request drop
      dsimp only
      cases hspace : s.space? i with
      | none =>
          rw [h.space?_eq_none hspace]
          exact ⟨rfl, h⟩
      | some space =>
          obtain ⟨copy, hcopy, -⟩ := h.exists_copy hspace
          rw [hcopy]
          refine ⟨rfl, h.set (lt_length_of_space? hspace) Option.Rel.none ?_⟩
          intro f _
          exact FramePool.bytesOf_freeAll s.pool space.table.frames f
  | access i act =>
      unfold serve Eager.serve Eager.Op.request access
      dsimp only
      cases hspace : s.space? i with
      | none =>
          left
          rw [h.space?_eq_none hspace]
          exact ⟨rfl, h⟩
      | some space =>
          obtain ⟨copy, hcopy, hshows⟩ := h.exists_copy hspace
          have hi := lt_length_of_space? hspace
          rw [hcopy]
          dsimp only
          rcases Shows.serve_cases (hfits.focus hspace) hshows act with
            ⟨after, hrun, hafter, hkeeps⟩ | ⟨htakes, hfull, hrun⟩
          · left
            rw [hrun]
            exact ⟨rfl, h.set hi (Option.Rel.some hafter) hkeeps⟩
          · right
            rw [hrun]
            refine ⟨htakes, hfull, rfl, ?_⟩
            unfold put
            dsimp only
            rw [set_of_space? hspace]
            exact h

theorem follows_of_matches (hfits : Fits total reserved s) (h : s.Matches e)
    (ops : List Eager.Op) : s.Follows e ops := by
  induction ops generalizing s e with
  | nil => exact Follows.nil h
  | cons op rest ih =>
      have hnext := serve_fits hfits op.request
      rcases serve_matches hfits h op with ⟨hresult, hmatch⟩ | ⟨htakes, hfull, hresult, hmatch⟩
      · exact Follows.served h hresult (ih hnext hmatch)
      · exact Follows.starved h htakes hfull hresult (ih hnext hmatch)

/-- From an empty pool on, spaces that share their pages cannot be told from
spaces that copy them, but by where memory runs out. -/
theorem follows_eager (total reserved : Nat) (ops : List Eager.Op) :
    (boot total reserved).Follows ⟨[]⟩ ops :=
  follows_of_matches (boot_fits total reserved) (Matches.boot total reserved) ops

end Spaces

end Kernelet
