import Mathlib.Data.Fintype.Basic
import Mathlib.Data.Finset.Card
import Mathlib.Data.List.Forall2
import Kernelet.Memory.PageTable.Lemmas
import Kernelet.Memory.PageTable.Request

/-!
A page table is a finite map. `PageMap n` is that map, from the pages below `n` to entries, with
the requests of a table answered in the plainest way: no leaves, no counter, nothing that comes
into being on the way. `Stands` relates a table to the map that it stands for. A request keeps it
and gets the same answer from both (`Stands.serve`), so that a family of tables goes as the family
of their maps does, and whatever can be seen of a table is what its map says (`Shows`).
-/

namespace Kernelet

/-- Which of the pages below `n` are mapped, and to what. -/
def PageMap (n : Nat) : Type :=
  Fin n → Option PageEntry

namespace PageMap

variable {n : Nat}

/-- The entry of page `p`. A page from `n` on has none. -/
def find? (m : PageMap n) (p : Nat) : Option PageEntry :=
  if h : p < n then m ⟨p, h⟩ else none

/-- The map with page `p` as `value` has it. -/
def put (m : PageMap n) (p : Nat) (value : Option PageEntry) : PageMap n :=
  fun i => if p = i then value else m i

def empty (n : Nat) : PageMap n :=
  fun _ => none

/-- The mapped pages. -/
def mapped (m : PageMap n) : Finset (Fin n) :=
  Finset.univ.filter fun i => (m i).isSome

def size (m : PageMap n) : Nat :=
  m.mapped.card

def serve (m : PageMap n) : PageTable.Request → Outcome (PageMap n) PageTable.Reply
  | .map p frame flags =>
    if p < n then
      ⟨.ok .done, m.put p (some (PageEntry.new frame flags))⟩
    else
      ⟨.error (.addressOutOfRange (VirtAddr.ofPage p)), m⟩
  | .unmap p => ⟨.ok (.removed (m.find? p)), m.put p none⟩
  | .setFlags p flags =>
    ⟨.ok (.found (m.find? p).isSome),
      m.put p ((m.find? p).map fun entry => { entry with flags := flags.normalized })⟩
  | .clear => ⟨.ok .done, empty n⟩

/-! ### The map alone -/

@[simp] theorem find?_empty (p : Nat) : (empty n).find? p = none := by
  simp [find?, empty]

theorem find?_of_lt (m : PageMap n) {p : Nat} (h : p < n) : m.find? p = m ⟨p, h⟩ :=
  dif_pos h

theorem find?_of_le (m : PageMap n) {p : Nat} (h : n ≤ p) : m.find? p = none :=
  dif_neg (Nat.not_lt_of_le h)

/-- A new value shows at its page, if the map reaches that far, and nowhere else. -/
theorem find?_put (m : PageMap n) (p q : Nat) (value : Option PageEntry) :
    (m.put p value).find? q = if p = q ∧ p < n then value else m.find? q := by
  by_cases hq : q < n
  · rw [find?_of_lt _ hq, find?_of_lt _ hq, put]
    by_cases hpq : p = q
    · rw [if_pos hpq, if_pos ⟨hpq, hpq ▸ hq⟩]
    · rw [if_neg hpq, if_neg (fun h => hpq h.1)]
  · rw [find?_of_le _ (Nat.le_of_not_lt hq), find?_of_le _ (Nat.le_of_not_lt hq), if_neg]
    rintro ⟨rfl, hp⟩
    exact hq hp

/-- A page that the map does not reach has nothing to show. -/
theorem find?_put_of_none (m : PageMap n) {p : Nat} {value : Option PageEntry}
    (hvalue : n ≤ p → value = none) (q : Nat) :
    (m.put p value).find? q = if p = q then value else m.find? q := by
  rw [find?_put]
  by_cases hp : p < n
  · simp only [hp, and_true]
  · have hle := Nat.le_of_not_lt hp
    rw [if_neg (fun hboth : p = q ∧ p < n => hp hboth.2), hvalue hle]
    split
    · rename_i hpq
      exact m.find?_of_le (hpq ▸ hle)
    · rfl

theorem put_of_le (m : PageMap n) {p : Nat} (h : n ≤ p) (value : Option PageEntry) :
    m.put p value = m := by
  funext i
  have hpi : p ≠ i := by omega
  exact if_neg hpi

theorem mem_mapped {m : PageMap n} {i : Fin n} : i ∈ m.mapped ↔ (m i).isSome := by
  simp [mapped]

@[simp] theorem size_empty (n : Nat) : (empty n).size = 0 := by
  simp [size, mapped, empty]

theorem mem_mapped_mk (m : PageMap n) {p : Nat} (h : p < n) :
    ⟨p, h⟩ ∈ m.mapped ↔ (m.find? p).isSome := by
  rw [mem_mapped, find?_of_lt m h]

/-- A page that is mapped is one more, unless it was mapped before. -/
theorem size_put_some (m : PageMap n) {p : Nat} (h : p < n) (entry : PageEntry) :
    (m.put p (some entry)).size = if (m.find? p).isSome then m.size else m.size + 1 := by
  have hmapped : (m.put p (some entry)).mapped = insert ⟨p, h⟩ m.mapped := by
    ext i
    rw [Finset.mem_insert, mem_mapped, mem_mapped, put, Fin.ext_iff]
    by_cases hpi : p = i
    · simp [hpi]
    · simp [hpi, Ne.symm hpi]
  unfold size
  rw [hmapped]
  split
  · rename_i hold
    rw [Finset.insert_eq_of_mem ((m.mem_mapped_mk h).mpr hold)]
  · rename_i hnew
    rw [Finset.card_insert_of_notMem (fun hmem => hnew ((m.mem_mapped_mk h).mp hmem))]

/-- A page that is unmapped is one less, if it was mapped before. -/
theorem size_put_none (m : PageMap n) (p : Nat) :
    (m.put p none).size = if (m.find? p).isSome then m.size - 1 else m.size := by
  by_cases h : p < n
  · have hmapped : (m.put p none).mapped = m.mapped.erase ⟨p, h⟩ := by
      ext i
      rw [Finset.mem_erase, mem_mapped, mem_mapped, put, Ne, Fin.ext_iff]
      by_cases hpi : p = i
      · simp [hpi]
      · simp [hpi, Ne.symm hpi]
    unfold size
    rw [hmapped]
    split
    · rename_i hold
      rw [Finset.card_erase_of_mem ((m.mem_mapped_mk h).mpr hold)]
    · rename_i hnew
      rw [Finset.erase_eq_of_notMem (fun hmem => hnew ((m.mem_mapped_mk h).mp hmem))]
  · rw [put_of_le m (Nat.le_of_not_lt h), find?_of_le m (Nat.le_of_not_lt h)]
    rfl

/-- New flags do not map or unmap a page. -/
theorem size_put_map (m : PageMap n) (p : Nat) (f : PageEntry → PageEntry) :
    (m.put p ((m.find? p).map f)).size = m.size := by
  have hmapped : (m.put p ((m.find? p).map f)).mapped = m.mapped := by
    ext i
    rw [mem_mapped, mem_mapped, put]
    split
    · rename_i hpi
      rw [Option.isSome_map, find?_of_lt m (hpi ▸ i.isLt)]
      simp [hpi]
    · rfl
  rw [size, hmapped, size]

end PageMap

namespace PageTable

variable {n : Nat} {table after : PageTable} {m : PageMap n}

/-! ### One request -/

/-- What a table keeps for a page is nothing, or an entry with flags as a table stores them. -/
def Stored (entry : PageEntry) : Prop :=
  entry = PageEntry.empty ∨ ∃ flags : PageFlags, entry.flags = flags.normalized

/-- A request leaves what is kept for a page, or stores something in its place. -/
theorem slot_serve (table : PageTable) (request : Request) (p : Nat) :
    (table.serve request).state.slot p = table.slot p ∨
      Stored ((table.serve request).state.slot p) := by
  have hstore : ∀ (q : Nat) (entry : PageEntry), Stored entry →
      (table.store q entry).slot p = table.slot p ∨ Stored ((table.store q entry).slot p) := by
    intro q entry hstored
    rw [slot_store]
    split
    · exact .inr hstored
    · exact .inl rfl
  cases request with
  | map q frame flags =>
      rw [serve]
      cases hrun : table.map q frame flags with
      | error e => exact .inl rfl
      | ok after =>
          unfold map at hrun
          split at hrun
          · cases hrun
            exact hstore q (PageEntry.new frame flags) (.inr ⟨flags, rfl⟩)
          · cases hrun
  | unmap q =>
      show (table.unmap q).2.slot p = table.slot p ∨ Stored ((table.unmap q).2.slot p)
      unfold unmap
      split
      · exact hstore q PageEntry.empty (.inl rfl)
      · exact .inl rfl
  | setFlags q flags =>
      show (table.setFlags q flags).2.slot p = table.slot p ∨
        Stored ((table.setFlags q flags).2.slot p)
      unfold setFlags
      split
      · rename_i entry _
        exact hstore q { entry with flags := flags.normalized } (.inr ⟨flags, rfl⟩)
      · exact .inl rfl
  | clear => exact .inr (.inl (slot_of_directory_eq_empty rfl p))

/-- The table stands for the map: it looks pages up as the map has them, counts them right, and
keeps nothing that is not an entry of the map in good form. -/
structure Stands (table : PageTable) (m : PageMap n) : Prop where
  maxPages_eq : table.maxPages = n
  lookup_eq : ∀ p, table.lookup p = m.find? p
  mappedCount_eq : table.mappedCount = m.size
  stored : ∀ p, Stored (table.slot p)

theorem stands_new (n : Nat) : (new n).Stands (PageMap.empty n) where
  maxPages_eq := rfl
  lookup_eq := by
    intro p
    rw [lookup_new, PageMap.find?_empty]
  mappedCount_eq := (PageMap.size_empty n).symm
  stored := fun p => .inl (slot_of_directory_eq_empty rfl p)

namespace Stands

theorem stored_serve (h : table.Stands m) (request : Request) (p : Nat) :
    Stored ((table.serve request).state.slot p) := by
  rcases slot_serve table request p with hkept | hstored
  · rw [hkept]
    exact h.stored p
  · exact hstored

/-- A request is answered alike, and table and map still agree after it. -/
theorem serve (h : table.Stands m) (request : Request) :
    (table.serve request).result = (m.serve request).result ∧
      (table.serve request).state.Stands (m.serve request).state := by
  have hstored := h.stored_serve request
  cases request with
  | map p frame flags =>
      by_cases hp : p < n
      · obtain ⟨after, hrun, -⟩ := exists_map (h.maxPages_eq ▸ hp) frame flags
        rw [PageTable.serve, hrun] at hstored ⊢
        rw [PageMap.serve, if_pos hp]
        refine ⟨rfl, (maxPages_map hrun).trans h.maxPages_eq, ?_, ?_, hstored⟩
        · intro q
          rw [lookup_map hrun, PageMap.find?_put, h.lookup_eq]
          simp only [hp, and_true]
        · rw [mappedCount_of_map hrun, PageMap.size_put_some m hp, h.lookup_eq, h.mappedCount_eq]
      · have hrun : table.map p frame flags = .error (.addressOutOfRange (VirtAddr.ofPage p)) :=
          map_eq_error_iff.mpr ⟨h.maxPages_eq ▸ Nat.le_of_not_lt hp, rfl⟩
        rw [PageTable.serve, hrun, PageMap.serve, if_neg hp]
        exact ⟨rfl, h⟩
  | unmap p =>
      refine ⟨?_, ?_, ?_, ?_, hstored⟩
      · show Except.ok (Reply.removed (table.unmap p).1) = _
        rw [unmap_fst, h.lookup_eq]
        rfl
      · exact (maxPages_unmap table p).trans h.maxPages_eq
      · intro q
        show (table.unmap p).2.lookup q = (m.put p none).find? q
        rw [lookup_unmap, h.lookup_eq, m.find?_put_of_none (fun _ => rfl)]
      · show (table.unmap p).2.mappedCount = (m.put p none).size
        rw [mappedCount_unmap, PageMap.size_put_none, h.lookup_eq, h.mappedCount_eq]
  | setFlags p flags =>
      refine ⟨?_, ?_, ?_, ?_, hstored⟩
      · show Except.ok (Reply.found (table.setFlags p flags).1) = _
        rw [setFlags_fst, isMapped, h.lookup_eq]
        rfl
      · exact (maxPages_setFlags table p flags).trans h.maxPages_eq
      · intro q
        show (table.setFlags p flags).2.lookup q = (m.put p _).find? q
        rw [lookup_setFlags, h.lookup_eq, h.lookup_eq, m.find?_put_of_none]
        intro hle
        rw [m.find?_of_le hle]
        rfl
      · show (table.setFlags p flags).2.mappedCount = (m.put p _).size
        rw [mappedCount_setFlags, PageMap.size_put_map, h.mappedCount_eq]
  | clear =>
      refine ⟨rfl, h.maxPages_eq, ?_, (PageMap.size_empty n).symm, hstored⟩
      intro p
      exact (lookup_clear table p).trans (PageMap.find?_empty p).symm

end Stands

/-! ### What can be seen of a table -/

/-- Every flag that is set in `required` is set in `flags`. -/
structure SetIn (required flags : PageFlags) : Prop where
  present : required.present = true → flags.present = true
  writable : required.writable = true → flags.writable = true
  user : required.user = true → flags.user = true
  copyOnWrite : required.copyOnWrite = true → flags.copyOnWrite = true

theorem contains_iff (flags required : PageFlags) :
    flags.contains required = true ↔ SetIn required flags := by
  have himp : ∀ a b : Bool, (!a || b) = true ↔ (a = true → b = true) := by decide
  unfold PageFlags.contains
  rw [Bool.and_eq_true, Bool.and_eq_true, Bool.and_eq_true, himp, himp, himp, himp]
  constructor
  · rintro ⟨⟨⟨hpresent, hwritable⟩, huser⟩, hcopy⟩
    exact ⟨hpresent, hwritable, huser, hcopy⟩
  · intro h
    exact ⟨⟨⟨h.present, h.writable⟩, h.user⟩, h.copyOnWrite⟩

/-- Whatever can be seen of a table is what the map says. -/
structure Shows (table : PageTable) (m : PageMap n) : Prop where
  lookup_eq : ∀ p, table.lookup p = m.find? p
  isMapped_eq : ∀ p, table.isMapped p = (m.find? p).isSome
  frame_eq : ∀ p, table.frame? p = (m.find? p).map PageEntry.frame
  flags_eq : ∀ p, table.flags? p = (m.find? p).map PageEntry.flags
  permits_iff : ∀ p required, table.permits p required = true ↔
    ∃ entry, m.find? p = some entry ∧ SetIn required entry.flags
  /-- A page is refused exactly if the map does not reach it. -/
  map_error_iff : ∀ p frame flags e, table.map p frame flags = .error e ↔
    n ≤ p ∧ e = .addressOutOfRange (VirtAddr.ofPage p)
  /-- A table that refuses a page stays as it is. -/
  refused : ∀ p frame flags, n ≤ p → (table.serve (.map p frame flags)).state = table
  mappedCount_eq : table.mappedCount = m.size
  mem_entries_iff : ∀ p entry, (p, entry) ∈ table.entries ↔ m.find? p = some entry
  entries_ascending : table.entries.Pairwise fun a b => a.1 < b.1
  /-- Nothing is kept for a page that is not mapped. -/
  slot_eq : ∀ p, table.slot p = (m.find? p).getD PageEntry.empty
  flags_present : ∀ p entry, m.find? p = some entry → entry.flags.present = true
  flags_exclusive : ∀ p entry, m.find? p = some entry →
    ¬ (entry.flags.copyOnWrite = true ∧ entry.flags.writable = true)
  translate_eq : ∀ a, table.translate a =
    (m.find? a.page).map fun entry => ⟨entry.frame * pageSize + a.toNat % pageSize⟩

namespace Stands

/-- What is found is in good form. -/
theorem exists_normalized (h : table.Stands m) {p : Nat} {entry : PageEntry}
    (hentry : m.find? p = some entry) : ∃ flags : PageFlags, entry.flags = flags.normalized := by
  rw [← h.lookup_eq] at hentry
  unfold lookup at hentry
  split at hentry
  · rename_i hpresent
    cases hentry
    rcases h.stored p with hempty | hflags
    · rw [hempty] at hpresent
      cases hpresent
    · exact hflags
  · cases hentry

theorem slot_eq (h : table.Stands m) (p : Nat) :
    table.slot p = (m.find? p).getD PageEntry.empty := by
  rw [← h.lookup_eq, lookup]
  split
  · rfl
  · rename_i habsent
    rcases h.stored p with hempty | ⟨flags, hflags⟩
    · exact hempty
    · rw [hflags, PageFlags.normalized_present] at habsent
      exact absurd rfl habsent

theorem permits_iff (h : table.Stands m) (p : Nat) (required : PageFlags) :
    table.permits p required = true ↔
      ∃ entry, m.find? p = some entry ∧ SetIn required entry.flags := by
  rw [permits, flags?, h.lookup_eq]
  cases m.find? p with
  | none => simp
  | some entry => simp [contains_iff]

theorem shows (h : table.Stands m) : table.Shows m where
  lookup_eq := h.lookup_eq
  isMapped_eq := fun p => congrArg Option.isSome (h.lookup_eq p)
  frame_eq := fun p => congrArg (Option.map PageEntry.frame) (h.lookup_eq p)
  flags_eq := fun p => congrArg (Option.map PageEntry.flags) (h.lookup_eq p)
  permits_iff := h.permits_iff
  map_error_iff := by
    intro p frame flags e
    rw [map_eq_error_iff, h.maxPages_eq]
  refused := by
    intro p frame flags hp
    rw [PageTable.serve, map_eq_error_iff.mpr ⟨h.maxPages_eq ▸ hp, rfl⟩]
  mappedCount_eq := h.mappedCount_eq
  mem_entries_iff := by
    intro p entry
    rw [mem_entries, h.lookup_eq]
  entries_ascending := table.entries_pairwise
  slot_eq := h.slot_eq
  flags_present := by
    intro p entry hentry
    obtain ⟨flags, hflags⟩ := h.exists_normalized hentry
    rw [hflags]
    exact flags.normalized_present
  flags_exclusive := by
    rintro p entry hentry ⟨hcopy, hwritable⟩
    obtain ⟨flags, hflags⟩ := h.exists_normalized hentry
    rw [hflags] at hcopy hwritable
    rw [flags.not_writable_of_copyOnWrite hcopy] at hwritable
    cases hwritable
  translate_eq := by
    intro a
    rw [translate, frame?, h.lookup_eq, Option.map_map]
    rfl

end Stands

end PageTable

/-! ### A family of tables -/

namespace FamilyEvent

variable {σ τ : Type} {R : σ → τ → Prop} {left : List σ} {right : List τ}
  {serveLeft : σ → PageTable.Request → Outcome σ PageTable.Reply}
  {serveRight : τ → PageTable.Request → Outcome τ PageTable.Reply}

/-- Related families have related members in the same places. -/
theorem forall₂_getElem? (h : List.Forall₂ R left right) (i : Nat) :
    (left[i]? = none ∧ right[i]? = none) ∨
      ∃ s t, left[i]? = some s ∧ right[i]? = some t ∧ R s t := by
  induction h generalizing i with
  | nil => exact .inl ⟨rfl, rfl⟩
  | @cons s t _ _ hst hrest ih =>
      cases i with
      | zero => exact .inr ⟨s, t, rfl, rfl, hst⟩
      | succ i => exact ih i

theorem forall₂_set (h : List.Forall₂ R left right) {s : σ} {t : τ} (hst : R s t) (i : Nat) :
    List.Forall₂ R (left.set i s) (right.set i t) := by
  induction h generalizing i with
  | nil => exact .nil
  | cons hhead hrest ih =>
      cases i with
      | zero => exact .cons hst hrest
      | succ i => exact .cons hhead (ih i)

/-- If single members answer alike, so do families. -/
theorem apply_forall₂
    (hserve : ∀ s t, R s t → ∀ request,
      (serveLeft s request).result = (serveRight t request).result ∧
        R (serveLeft s request).state (serveRight t request).state)
    (h : List.Forall₂ R left right) (event : FamilyEvent) :
    (event.apply serveLeft left).1 = (event.apply serveRight right).1 ∧
      List.Forall₂ R (event.apply serveLeft left).2 (event.apply serveRight right).2 := by
  cases event with
  | access i request =>
      rcases forall₂_getElem? h i with ⟨hleft, hright⟩ | ⟨s, t, hleft, hright, hst⟩
      · rw [apply, hleft, apply, hright]
        exact ⟨rfl, h⟩
      · obtain ⟨hresult, hstate⟩ := hserve s t hst request
        rw [apply, hleft, apply, hright]
        exact ⟨congrArg some hresult, forall₂_set h hstate i⟩
  | clone i =>
      rcases forall₂_getElem? h i with ⟨hleft, hright⟩ | ⟨s, t, hleft, hright, hst⟩
      · rw [apply, hleft, apply, hright]
        exact ⟨rfl, List.rel_append h .nil⟩
      · rw [apply, hleft, apply, hright]
        exact ⟨rfl, List.rel_append h (.cons hst .nil)⟩

theorem applyAll_forall₂
    (hserve : ∀ s t, R s t → ∀ request,
      (serveLeft s request).result = (serveRight t request).result ∧
        R (serveLeft s request).state (serveRight t request).state)
    (h : List.Forall₂ R left right) (events : List FamilyEvent) :
    (applyAll serveLeft left events).1 = (applyAll serveRight right events).1 ∧
      List.Forall₂ R (applyAll serveLeft left events).2 (applyAll serveRight right events).2 := by
  induction events generalizing left right with
  | nil => exact ⟨rfl, h⟩
  | cons event rest ih =>
      obtain ⟨hanswer, hnext⟩ := apply_forall₂ hserve h event
      obtain ⟨hanswers, hlast⟩ := ih hnext
      exact ⟨congrArg₂ List.cons hanswer hanswers, hlast⟩

end FamilyEvent

/-- Tables of any size that are asked and copied in any way answer as their maps do, and show
what their maps say. -/
theorem PageTable.family_shows (maxPages : Nat) (events : List FamilyEvent) :
    let tables := FamilyEvent.applyAll PageTable.serve [PageTable.new maxPages] events
    let maps := FamilyEvent.applyAll PageMap.serve [PageMap.empty maxPages] events
    tables.1 = maps.1 ∧ List.Forall₂ PageTable.Shows tables.2 maps.2 := by
  have hstart : List.Forall₂ PageTable.Stands [PageTable.new maxPages] [PageMap.empty maxPages] :=
    .cons (PageTable.stands_new maxPages) .nil
  obtain ⟨hanswers, hstands⟩ :=
    FamilyEvent.applyAll_forall₂ (fun _ _ h => h.serve) hstart events
  exact ⟨hanswers, hstands.imp fun _ _ h => h.shows⟩

end Kernelet
