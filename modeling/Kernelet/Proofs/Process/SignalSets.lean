import Mathlib.Data.List.Basic
import Kernelet.Process.Signal

/-!
Sets of signals as the lists they stand for. A set is a bitmap with digits that stand for no
signal, so "no digit is set" and "no signal is found" are one test only as long as those digits
stay clear (`SignalSet.Defined`). The first signal of a set is the head of its members by
ascending number, and a search from number to number finds the same (`first?_eq_search?`).
-/

namespace Kernelet

namespace Signal

/-- The signal that is called off when this one is sent. -/
def opposite? : Signal → Option Signal
  | stop => some cont
  | cont => some stop
  | _ => none

theorem ne_of_opposite? {a b : Signal} (h : a.opposite? = some b) : a ≠ b := by
  rintro rfl
  cases a <;> cases h

theorem all_ascending : all.Pairwise fun a b => a.number < b.number := by
  decide

/-- The signal of a number, if there is one. -/
def ofNumber? (n : Nat) : Option Signal :=
  (ofNumber n).toOption

theorem number_of_ofNumber? {n : Nat} {signal : Signal} (h : ofNumber? n = some signal) :
    signal.number = n := by
  unfold ofNumber? ofNumber at h
  split at h
  · rename_i found hfound
    cases h
    have hnumber := List.find?_some hfound
    exact beq_iff_eq.mp hnumber
  · cases h

end Signal

namespace SignalSet

variable {set other : SignalSet} {signal : Signal}

/-- Every digit that is set stands for a signal. -/
def Defined (set : SignalSet) : Prop :=
  ∀ i, set.bits.getLsbD i = true → ∃ signal : Signal, signal.number = i + 1

theorem defined_empty : empty.Defined := by
  intro i hi
  have hclear : empty.bits.getLsbD i = false := BitVec.getLsbD_zero
  rw [hclear] at hi
  cases hi

theorem Defined.insert (h : set.Defined) (signal : Signal) : (set.insert signal).Defined := by
  intro i hi
  have hbits : (set.bits ||| BitVec.twoPow 32 (signal.number - 1)).getLsbD i = true := hi
  rw [BitVec.getLsbD_or, BitVec.getLsbD_twoPow, Bool.or_eq_true, Bool.and_eq_true,
    decide_eq_true_iff, decide_eq_true_iff] at hbits
  rcases hbits with hold | ⟨-, hnew⟩
  · exact h i hold
  · have hpos := signal.number_pos
    exact ⟨signal, by omega⟩

theorem Defined.erase (h : set.Defined) (signal : Signal) : (set.erase signal).Defined := by
  intro i hi
  have hbits : (set.bits &&& ~~~(single signal).bits).getLsbD i = true := hi
  rw [BitVec.getLsbD_and, Bool.and_eq_true] at hbits
  exact h i hbits.1

theorem Defined.diff (h : set.Defined) (other : SignalSet) : (set.diff other).Defined := by
  intro i hi
  have hbits : (set.bits &&& ~~~other.bits).getLsbD i = true := hi
  rw [BitVec.getLsbD_and, Bool.and_eq_true] at hbits
  exact h i hbits.1

@[simp] theorem contains_empty (signal : Signal) : empty.contains signal = false :=
  BitVec.getLsbD_zero

theorem contains_diff (set other : SignalSet) (signal : Signal) :
    (set.diff other).contains signal = (set.contains signal && !other.contains signal) := by
  have hlt : signal.number - 1 < 32 := Nat.lt_of_le_of_lt (Nat.sub_le _ _) signal.number_lt
  show (set.bits &&& ~~~other.bits).getLsbD (signal.number - 1) = _
  rw [BitVec.getLsbD_and, BitVec.getLsbD_not, decide_eq_true hlt, Bool.true_and]
  rfl

/-- The signals of a set, by ascending number. -/
def members (set : SignalSet) : List Signal :=
  Signal.all.filter set.contains

theorem mem_members : signal ∈ set.members ↔ set.contains signal = true := by
  rw [members, List.mem_filter, and_iff_right (Signal.mem_all signal)]

theorem members_ascending (set : SignalSet) :
    set.members.Pairwise fun a b => a.number < b.number :=
  Signal.all_ascending.filter _

theorem first?_eq_head? (set : SignalSet) : set.first? = set.members.head? := by
  rw [first?, members, List.head?_filter]

theorem first?_eq_some_iff :
    set.first? = some signal ↔
      set.contains signal = true ∧
        ∀ lower : Signal, lower.number < signal.number → set.contains lower = false := by
  rw [first?_eq_head?]
  have hascending := set.members_ascending
  have hmem : ∀ other : Signal, other ∈ set.members ↔ set.contains other = true :=
    fun _ => mem_members
  cases hmembers : set.members with
  | nil =>
      rw [hmembers] at hmem
      simp only [List.head?_nil, reduceCtorEq, false_iff]
      intro hboth
      exact absurd ((hmem signal).mpr hboth.1) List.not_mem_nil
  | cons first rest =>
      rw [hmembers] at hmem hascending
      have hfirst := (List.pairwise_cons.mp hascending).1
      rw [List.head?_cons, Option.some.injEq]
      constructor
      · rintro rfl
        refine ⟨(hmem first).mp List.mem_cons_self, fun lower hlower => ?_⟩
        by_contra hcontains
        rcases List.mem_cons.mp ((hmem lower).mpr (by simpa using hcontains)) with rfl | hrest
        · exact Nat.lt_irrefl _ hlower
        · exact Nat.lt_asymm hlower (hfirst lower hrest)
      · rintro ⟨hcontains, hlowest⟩
        rcases List.mem_cons.mp ((hmem signal).mpr hcontains) with rfl | hrest
        · rfl
        · have hnone := hlowest first (hfirst signal hrest)
          rw [(hmem first).mp List.mem_cons_self] at hnone
          cases hnone

/-- No signal is found exactly if no digit is set, as long as every digit is a signal's. -/
theorem Defined.isEmpty_eq (h : set.Defined) : set.isEmpty = set.first?.isNone := by
  rw [Bool.eq_iff_iff, Option.isNone_iff_eq_none, first?_eq_head?, List.head?_eq_none_iff,
    isEmpty, beq_iff_eq]
  constructor
  · intro hzero
    rw [List.eq_nil_iff_forall_not_mem]
    intro signal hmem
    have hcontains := mem_members.mp hmem
    have hclear : set.contains signal = false := by
      rw [contains, hzero]
      exact BitVec.getLsbD_zero
    rw [hclear] at hcontains
    cases hcontains
  · intro hnil
    refine BitVec.eq_of_getLsbD_eq fun i _ => Eq.trans ?_ BitVec.getLsbD_zero.symm
    by_contra hset
    have hbit : set.bits.getLsbD i = true := by simpa using hset
    obtain ⟨signal, hnumber⟩ := h i hbit
    have hcontains : set.contains signal = true := by
      rw [contains, hnumber]
      exact hbit
    have hmem := mem_members.mpr hcontains
    rw [hnil] at hmem
    exact absurd hmem List.not_mem_nil

/-- The search by number: from 1 on, the first number whose digit is set and which is that of
a signal. -/
def search? (set : SignalSet) : Option Signal :=
  ((List.range' 1 signalSlots).filter fun n => set.bits.getLsbD (n - 1)).findSome?
    Signal.ofNumber?

theorem all_eq_filterMap :
    Signal.all = (List.range' 1 signalSlots).filterMap Signal.ofNumber? := by
  decide

theorem first?_eq_search? (set : SignalSet) : set.first? = set.search? := by
  rw [first?, search?, all_eq_filterMap]
  induction List.range' 1 signalSlots with
  | nil => rfl
  | cons n rest ih =>
      rw [List.filter_cons]
      cases hsignal : Signal.ofNumber? n with
      | none =>
          rw [List.filterMap_cons_none hsignal]
          split
          · rw [List.findSome?_cons, hsignal]
            exact ih
          · exact ih
      | some signal =>
          have hdigit : set.contains signal = set.bits.getLsbD (n - 1) := by
            rw [contains, Signal.number_of_ofNumber? hsignal]
          rw [List.filterMap_cons_some hsignal, List.find?_cons, hdigit]
          split
          · rename_i hset
            rw [if_pos hset, List.findSome?_cons, hsignal]
          · rename_i hclear
            rw [if_neg (by rw [hclear]; exact Bool.false_ne_true)]
            exact ih

end SignalSet

end Kernelet
