import Kernelet.Memory.Spaces
import Kernelet.Proofs.Memory.Balance

/-!
Any number of spaces over one pool, through any history. A request concerns
one space, whose table is taken out from among the others and put back as the
request leaves it (`tablesIn_set`); a fork puts two back and a drop none.
-/

namespace Kernelet.Spaces

/-- The tables of the spaces that live. -/
def tablesIn (slots : List (Option AddressSpace)) : List PageTable :=
  slots.filterMap (Option.map AddressSpace.table)

/-- The spaces and their pool are in balance. -/
abbrev Fits (total reserved : Nat) (s : Spaces) : Prop :=
  Balanced total reserved s.pool (tablesIn s.slots)

variable {total reserved : Nat} {s : Spaces} {slots : List (Option AddressSpace)} {i : Nat}
  {space : AddressSpace}

theorem space?_eq_some_iff : s.space? i = some space ↔ s.slots[i]? = some (some space) := by
  unfold space?
  rw [Option.join_eq_some_iff]

theorem lt_length_of_space? (h : s.space? i = some space) : i < s.slots.length := by
  obtain ⟨hlt, -⟩ := List.getElem?_eq_some_iff.mp (space?_eq_some_iff.mp h)
  exact hlt

theorem mem_tablesIn {table : PageTable} :
    table ∈ tablesIn slots ↔
      ∃ (i : Nat) (space : AddressSpace), slots[i]? = some (some space) ∧ space.table = table := by
  unfold tablesIn
  rw [List.mem_filterMap]
  constructor
  · rintro ⟨slot, hmem, hslot⟩
    obtain ⟨space, rfl, htable⟩ := Option.map_eq_some_iff.mp hslot
    obtain ⟨i, hi⟩ := List.mem_iff_getElem?.mp hmem
    exact ⟨i, space, hi, htable⟩
  · rintro ⟨i, space, hi, rfl⟩
    exact ⟨some space, List.mem_of_getElem? hi, rfl⟩

/-- What stands in a place after a list was changed in one place. -/
theorem join_getElem?_set {α : Type} {slots : List (Option α)} {i : Nat} (h : i < slots.length)
    (slot : Option α) (j : Nat) :
    ((slots.set i slot)[j]?).join = if i = j then slot else (slots[j]?).join := by
  rw [List.getElem?_set]
  by_cases hij : i = j
  · rw [if_pos hij, if_pos hij, if_pos h]
    rfl
  · rw [if_neg hij, if_neg hij]

theorem join_getElem?_concat {α : Type} (slots : List (Option α)) (slot : Option α) (j : Nat) :
    ((slots ++ [slot])[j]?).join = if slots.length = j then slot else (slots[j]?).join := by
  by_cases hj : slots.length = j
  · subst hj
    simp
  · rw [if_neg hj]
    rcases Nat.lt_or_gt_of_ne hj with hlt | hgt
    · rw [List.getElem?_eq_none, List.getElem?_eq_none]
      · omega
      · simp
        omega
    · rw [List.getElem?_append_left hgt]

/-- A space is among the others of any other place. -/
theorem table_mem_of_ne {j : Nat} (hij : i ≠ j) (h : s.space? j = some space) :
    space.table ∈ tablesIn (s.slots.set i none) := by
  rw [mem_tablesIn]
  refine ⟨j, space, ?_, rfl⟩
  rw [List.getElem?_set_ne hij]
  exact space?_eq_some_iff.mp h

theorem tablesIn_concat (slots : List (Option AddressSpace)) (space : AddressSpace) :
    (tablesIn (slots ++ [some space])).Perm (space.table :: tablesIn slots) := by
  unfold tablesIn
  rw [List.filterMap_append]
  exact List.perm_append_comm

/-- What stands in one place is one table, or none, among the others. -/
theorem tablesIn_set (h : i < slots.length) (slot : Option AddressSpace) :
    (tablesIn (slots.set i slot)).Perm
      ((slot.map AddressSpace.table).toList ++ tablesIn (slots.set i none)) := by
  unfold tablesIn
  simp only [List.set_eq_take_append_cons_drop, if_pos h, List.filterMap_append]
  cases slot with
  | none => exact List.Perm.refl _
  | some space => exact List.perm_middle

theorem set_of_space? (h : s.space? i = some space) : s.slots.set i (some space) = s.slots := by
  obtain ⟨hlt, hi⟩ := List.getElem?_eq_some_iff.mp (space?_eq_some_iff.mp h)
  rw [← hi, List.set_getElem_self]

theorem tablesIn_perm (h : s.space? i = some space) :
    (tablesIn s.slots).Perm (space.table :: tablesIn (s.slots.set i none)) := by
  have hset := tablesIn_set (lt_length_of_space? h) (some space)
  rw [set_of_space? h] at hset
  exact hset

/-- One space, with all others around it. -/
theorem Fits.focus (h : Fits total reserved s) (hspace : s.space? i = some space) :
    Memory.Fits total reserved (tablesIn (s.slots.set i none)) ⟨space, s.pool⟩ :=
  h.perm (tablesIn_perm hspace)

/-- A space that has been dealt with goes back to its place. -/
theorem Fits.put {m : Memory} (hi : i < s.slots.length)
    (h : Memory.Fits total reserved (tablesIn (s.slots.set i none)) m) :
    Fits total reserved (s.put i m) :=
  h.perm (tablesIn_set hi (some m.space)).symm

theorem boot_fits (total reserved : Nat) :
    Fits total (min reserved total) (boot total reserved) where
  backs := FramePool.Backs.of_new total reserved
  tidy := Tidy.nil

theorem create_fits (h : Fits total reserved s) (size : Nat) :
    Fits total reserved (s.create size).2 := by
  have hempty : ∀ p, (AddressSpace.new size).table.lookup p = none :=
    PageTable.lookup_new (size / pageSize)
  exact (h.cons_empty hempty).perm (tablesIn_concat s.slots _).symm

theorem access_fits (h : Fits total reserved s) (i : Nat) (request : Memory.Request) :
    Fits total reserved (s.access i request).state := by
  unfold access
  cases hspace : s.space? i with
  | none => exact h
  | some space =>
      apply Fits.put (lt_length_of_space? hspace)
      exact Memory.serve_fits (h.focus hspace) request

/-- When a space has been duplicated, the copy stands behind all others. -/
theorem fork_of_ok {child : AddressSpace} {after : Memory} (hspace : s.space? i = some space)
    (hrun : (Memory.mk space s.pool).fork = ⟨.ok child, after⟩) :
    s.fork i = ⟨.ok (.created s.slots.length),
      ⟨after.pool, s.slots.set i (some after.space) ++ [some child]⟩⟩ := by
  unfold fork
  rw [hspace]
  dsimp only
  rw [hrun]
  dsimp only [put]
  rw [List.length_set]

theorem fork_fits (h : Fits total reserved s) (i : Nat) :
    Fits total reserved (s.fork i).state := by
  cases hspace : s.space? i with
  | none =>
      unfold fork
      rw [hspace]
      exact h
  | some space =>
      obtain ⟨child, after, hrun, hafter, -⟩ := Memory.fork_eq (h.focus hspace)
      have hset := tablesIn_set (lt_length_of_space? hspace) (some after.space)
      rw [fork_of_ok hspace hrun]
      apply hafter.perm
      refine (List.Perm.swap _ _ _).trans ?_
      exact (hset.symm.cons _).trans (tablesIn_concat _ child).symm

theorem drop_fits (h : Fits total reserved s) (i : Nat) : Fits total reserved (s.drop i).2 := by
  unfold drop
  cases hspace : s.space? i with
  | none => exact h
  | some space => exact (h.focus hspace).releaseFrames

/-- Every request keeps the balance, whatever comes of it. -/
theorem serve_fits (h : Fits total reserved s) (request : Request) :
    Fits total reserved (s.serve request).state := by
  cases request with
  | create size => exact create_fits h size
  | fork i => exact fork_fits h i
  | drop i => exact drop_fits h i
  | access i request => exact access_fits h i request

theorem serveAll_fits (h : Fits total reserved s) (requests : List Request) :
    Fits total reserved (s.serveAll requests).2 := by
  induction requests generalizing s with
  | nil => exact h
  | cons request rest ih => exact ih (serve_fits h request)

end Kernelet.Spaces
