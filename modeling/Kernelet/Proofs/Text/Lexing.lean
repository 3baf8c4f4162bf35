import Kernelet.Proofs.Text.Grammar
import Mathlib.Data.List.Basic

/-!
Cutting a text into tokens. The tokens of a text do not depend on how it is cut into parts,
with one exception: a number ends only where a character follows that could not continue it.
Each lemma here is about a part of a text and whatever comes after it.
-/

namespace Kernelet.Json

/-- The tokens of a text, cut off one after another. -/
inductive Lexes : List Char → List Token → Prop where
  | nil : Lexes [] []
  | blank {c : Char} {cs : List Char} {ts : List Token} (hc : isBlank c = true)
      (h : Lexes cs ts) : Lexes (c :: cs) ts
  | token {c : Char} {cs rest : List Char} {t : Token} {ts : List Token}
      (hc : isBlank c = false) (ht : token? (c :: cs) = some (t, rest))
      (hle : rest.length ≤ cs.length) (h : Lexes rest ts) : Lexes (c :: cs) (t :: ts)

theorem tokensUpTo_of_lexes {cs : List Char} {ts : List Token} (h : Lexes cs ts) {fuel : Nat}
    (hfuel : cs.length ≤ fuel) : tokensUpTo fuel cs = some ts := by
  induction h generalizing fuel with
  | nil => cases fuel <;> rfl
  | blank hc h ih =>
      rw [List.length_cons] at hfuel
      obtain ⟨fuel, rfl⟩ := Nat.exists_eq_add_one_of_ne_zero (show fuel ≠ 0 by omega)
      simp only [tokensUpTo, hc, if_true]
      exact ih (by omega)
  | token hc ht hle h ih =>
      rw [List.length_cons] at hfuel
      obtain ⟨fuel, rfl⟩ := Nat.exists_eq_add_one_of_ne_zero (show fuel ≠ 0 by omega)
      simp [tokensUpTo, hc, ht, ih (show _ ≤ fuel by omega)]

theorem tokens_of_lexes {cs : List Char} {ts : List Token} (h : Lexes cs ts) :
    tokens cs = some ts :=
  tokensUpTo_of_lexes h (Nat.le_refl _)

/-! ### White space and marks -/

theorem Blanks.lexes {cs rest : List Char} {ts : List Token} (hcs : Blanks cs)
    (h : Lexes rest ts) : Lexes (cs ++ rest) ts := by
  induction cs with
  | nil => exact h
  | cons c cs ih =>
      have hblank : isBlank c = true := by
        simpa [isBlank, or_assoc] using hcs c List.mem_cons_self
      exact .blank hblank (ih fun d hd => hcs d (List.mem_cons_of_mem c hd))

/-- The characters that are tokens whatever follows them. -/
def marks : List (Char × Token) :=
  [('[', .openArray), (']', .closeArray), ('\x7b', .openObject), ('\x7d', .closeObject),
    (',', .comma), (':', .colon)]

theorem Lexes.mark {c : Char} {rest : List Char} {t : Token} {ts : List Token}
    (hc : (c, t) ∈ marks) (h : Lexes rest ts) : Lexes (c :: rest) (t :: ts) := by
  have hblank : ∀ p ∈ marks, isBlank p.1 = false := by decide
  have htoken : ∀ p ∈ marks, token? (p.1 :: rest) = some (p.2, rest) := by
    simp [marks, token?]
  exact .token (hblank _ hc) (htoken _ hc) (Nat.le_refl _) h

/-! ### Strings -/

theorem hexValue?_of_hex {c : Char} {value : Nat} (h : Hex c value) :
    hexValue? c = some value := by
  rcases h with h | h
  · have hall : ∀ i : Fin lowerHex.length, hexValue? lowerHex[i] = some i.val := by decide
    obtain ⟨hlt, rfl⟩ := List.getElem?_eq_some_iff.mp h
    exact hall ⟨value, hlt⟩
  · have hall : ∀ i : Fin upperHex.length, hexValue? upperHex[i] = some i.val := by decide
    obtain ⟨hlt, rfl⟩ := List.getElem?_eq_some_iff.mp h
    exact hall ⟨value, hlt⟩

theorem escaped?_of_mem {c e : Char} (h : (c, e) ∈ escapes) : escaped? c = some e := by
  have hall : ∀ p ∈ escapes, escaped? p.1 = some p.2 := by decide
  exact hall (c, e) h

theorem pieces_of_written {cs : List Char} {ps : List Piece} (h : Written cs ps)
    (rest : List Char) : pieces (cs ++ '"' :: rest) = some (ps, rest) := by
  induction h with
  | nil => rfl
  | plain hc hquote hslash h ih =>
      simp [pieces, hslash, Nat.not_lt.mpr hc, ih]
  | @escape c e cs ps hc h ih =>
      have hu : c ≠ 'u' := by
        rintro rfl
        exact absurd hc (by simp [escapes])
      simp [pieces, hu, escaped?_of_mem hc, ih]
  | unit ha hb hc hd h ih =>
      simp [pieces, hexUnit?, hexValue?_of_hex ha, hexValue?_of_hex hb, hexValue?_of_hex hc,
        hexValue?_of_hex hd, ih]

theorem joinPieces_of_spells {ps : List Piece} {cs : List Char} (h : Spells ps cs) :
    joinPieces ps = some cs := by
  induction h with
  | nil => rfl
  | char h ih => simp [joinPieces, ih]
  | @unit u ps cs hhigh hlow h ih =>
      cases ps with
      | nil => simpa [joinPieces, hhigh, hlow] using ih
      | cons p ps => cases p <;> simp_all [joinPieces]
  | pair hhigh hlow h ih => simp [joinPieces, hhigh, hlow, ih]

theorem spells_of_joinPieces {ps : List Piece} {cs : List Char} (h : joinPieces ps = some cs) :
    Spells ps cs := by
  induction ps using joinPieces.induct generalizing cs with
  | case1 =>
      obtain rfl : [] = cs := Option.some.inj h
      exact .nil
  | case2 c rest ih =>
      simp only [joinPieces, Option.map_eq_some_iff] at h
      obtain ⟨cs, hcs, rfl⟩ := h
      exact .char (ih hcs)
  | case3 u v rest hpair ih =>
      simp only [joinPieces, if_pos hpair, Option.map_eq_some_iff] at h
      obtain ⟨cs, hcs, rfl⟩ := h
      obtain ⟨hhigh, hlow⟩ := Bool.and_eq_true_iff.mp hpair
      exact .pair hhigh hlow (ih hcs)
  | case4 u v rest hpair halone => simp [joinPieces, hpair, halone] at h
  | case5 u v rest hpair halone ih =>
      simp only [joinPieces, if_neg hpair, if_neg halone, Option.map_eq_some_iff] at h
      obtain ⟨cs, hcs, rfl⟩ := h
      obtain ⟨hhigh, hlow⟩ := Bool.or_eq_false_iff.mp (eq_false_of_ne_true halone)
      exact .unit hhigh hlow (ih hcs)
  | case6 u rest hlast halone => simp [joinPieces, halone] at h
  | case7 u rest hlast halone ih =>
      simp only [joinPieces, if_neg halone, Option.map_eq_some_iff] at h
      obtain ⟨cs, hcs, rfl⟩ := h
      obtain ⟨hhigh, hlow⟩ := Bool.or_eq_false_iff.mp (eq_false_of_ne_true halone)
      exact .unit hhigh hlow (ih hcs)

/-- The text of a string, if it is one. -/
def textOf (ps : List Piece) : Option String :=
  (joinPieces ps).map String.ofList

theorem textOf_eq_some_iff {ps : List Piece} {text : String} :
    textOf ps = some text ↔ Spells ps text.toList := by
  rw [textOf, Option.map_eq_some_iff]
  constructor
  · rintro ⟨cs, hcs, rfl⟩
    rw [String.toList_ofList]
    exact spells_of_joinPieces hcs
  · intro h
    exact ⟨text.toList, joinPieces_of_spells h, String.ofList_toList⟩

theorem Lexes.string {cs rest : List Char} {ps : List Piece} {ts : List Token}
    (hcs : Written cs ps) (h : Lexes rest ts) :
    Lexes ('"' :: (cs ++ '"' :: rest)) (.string (textOf ps) :: ts) := by
  refine .token rfl ?_ (by simp; omega) h
  show stringToken (cs ++ '"' :: rest) = _
  simp [stringToken, pieces_of_written hcs, textOf]

/-! ### Numbers -/

/-- No number goes on with the first character of the text. -/
def Stops (cs : List Char) : Prop :=
  ∀ c, cs.head? = some c → c.isDigit = false ∧ c ≠ '.' ∧ c ≠ 'e' ∧ c ≠ 'E'

theorem stops_mark {c : Char} {t : Token} (hc : (c, t) ∈ marks) (rest : List Char) :
    Stops (c :: rest) := by
  have hall : ∀ p ∈ marks, p.1.isDigit = false ∧ p.1 ≠ '.' ∧ p.1 ≠ 'e' ∧ p.1 ≠ 'E' := by decide
  intro d hd
  obtain rfl : c = d := by simpa using hd
  exact hall _ hc

theorem Digits.exists_cons {ds : List Char} (h : Digits ds) :
    ∃ d rest, ds = d :: rest ∧ d.isDigit = true := by
  cases ds with
  | nil => exact absurd rfl h.1
  | cons d rest => exact ⟨d, rest, rfl, h.2 d List.mem_cons_self⟩

theorem digits?_append {ds rest : List Char} (h : Digits ds)
    (hrest : ∀ c, rest.head? = some c → c.isDigit = false) :
    digits? (ds ++ rest) = some (ds, rest) := by
  have htake : (ds ++ rest).takeWhile Char.isDigit = ds := by
    rw [List.takeWhile_append_of_pos h.2]
    cases rest with
    | nil => simp
    | cons c rest => simp [hrest c rfl]
  have hdrop : (ds ++ rest).dropWhile Char.isDigit = rest := by
    rw [List.dropWhile_append_of_pos h.2]
    cases rest with
    | nil => simp
    | cons c rest => simp [hrest c rfl]
  obtain ⟨d, later, rfl, -⟩ := h.exists_cons
  simp only [digits?, htake, hdrop]

theorem whole?_append {ds rest : List Char} (h : Whole ds)
    (hrest : ∀ c, rest.head? = some c → c.isDigit = false) :
    whole? (ds ++ rest) = some (ds, rest) := by
  simpa [whole?, digits?_append h.1 hrest] using h.2

theorem fraction?_append {fraction rest : List Char} (h : Fraction fraction)
    (hrest : ∀ c, rest.head? = some c → c.isDigit = false ∧ c ≠ '.') :
    fraction? (fraction ++ rest) = some (fraction, rest) := by
  cases h with
  | absent =>
      cases rest with
      | nil => rfl
      | cons c rest => simp [fraction?, (hrest c rfl).2]
  | digits h =>
      simp [fraction?, digits?_append h fun c hc => (hrest c hc).1]

theorem exponent?_append {exponent rest : List Char} (h : Exponent exponent)
    (hrest : Stops rest) : exponent? (exponent ++ rest) = some (exponent, rest) := by
  cases h with
  | absent =>
      cases rest with
      | nil => rfl
      | cons c rest => simp [exponent?, (hrest c rfl).2.2]
  | @digits c sign ds hc hsign h =>
      have hsplit : exponentSign (sign ++ (ds ++ rest)) = (sign, ds ++ rest) := by
        rcases hsign with rfl | rfl | rfl
        · obtain ⟨d, ds, rfl, hd⟩ := h.exists_cons
          have hplus : d ≠ '+' := by rintro rfl; exact absurd hd (by decide)
          have hminus : d ≠ '-' := by rintro rfl; exact absurd hd (by decide)
          simp [exponentSign, hplus, hminus]
        · rfl
        · rfl
      simp [exponent?, hc, hsplit, digits?_append h fun c hc => (hrest c hc).1]

/-- The digits in front end where the other parts of the number begin. -/
theorem Fraction.head?_append {fraction rest : List Char} (h : Fraction fraction)
    (hrest : ∀ c, rest.head? = some c → c.isDigit = false) {c : Char}
    (hc : (fraction ++ rest).head? = some c) : c.isDigit = false := by
  cases h with
  | absent => exact hrest c hc
  | digits h =>
      obtain rfl : '.' = c := by simpa using hc
      rfl

theorem Exponent.head?_append {exponent rest : List Char} (h : Exponent exponent)
    (hrest : Stops rest) {c : Char} (hc : (exponent ++ rest).head? = some c) :
    c.isDigit = false ∧ c ≠ '.' := by
  cases h with
  | absent => exact ⟨(hrest c hc).1, (hrest c hc).2.1⟩
  | @digits d sign ds hd hsign h =>
      obtain rfl : d = c := by simpa using hc
      rcases hd with rfl | rfl <;> decide

theorem unsigned?_append {whole fraction exponent rest : List Char} (hwhole : Whole whole)
    (hfraction : Fraction fraction) (hexponent : Exponent exponent) (hrest : Stops rest) :
    unsigned? (whole ++ (fraction ++ (exponent ++ rest))) =
      some (if fraction = [] ∧ exponent = [] then .natural (digitsValue whole)
        else .number (String.ofList (whole ++ fraction ++ exponent)), rest) := by
  have hexp := exponent?_append hexponent hrest
  have hfrac := fraction?_append hfraction fun c hc => hexponent.head?_append hrest hc
  have hwh := whole?_append hwhole fun c hc =>
    hfraction.head?_append (fun d hd => (hexponent.head?_append hrest hd).1) hc
  simp only [unsigned?, hwh, hfrac, hexp, Option.bind_eq_bind, Option.bind_some]
  split <;> rfl

theorem token?_of_isDigit {c : Char} {cs : List Char} (hc : c.isDigit = true) :
    token? (c :: cs) = unsigned? (c :: cs) := by
  unfold token?
  split <;> first
    | rfl
    | (rename_i heq
       obtain ⟨rfl, -⟩ := List.cons.inj heq
       exact absurd hc (by decide))

/-- The tokens of a part of a text that may end with a number. -/
def Scans (cs : List Char) (ts : List Token) : Prop :=
  ∀ rest later, Stops rest → Lexes rest later → Lexes (cs ++ rest) (ts ++ later)

theorem scans_unsigned {whole fraction exponent : List Char} (hwhole : Whole whole)
    (hfraction : Fraction fraction) (hexponent : Exponent exponent) :
    Scans (whole ++ (fraction ++ exponent))
      [if fraction = [] ∧ exponent = [] then .natural (digitsValue whole)
        else .number (String.ofList (whole ++ fraction ++ exponent))] := by
  intro rest later hrest h
  have hread := unsigned?_append hwhole hfraction hexponent hrest
  obtain ⟨d, ds, rfl, hd⟩ := hwhole.1.exists_cons
  have hblank : isBlank d = false := by
    by_contra hblank
    simp only [isBlank, Bool.not_eq_false, Bool.or_eq_true, beq_iff_eq] at hblank
    rcases hblank with ((rfl | rfl) | rfl) | rfl <;> exact absurd hd (by decide)
  simp only [List.append_assoc, List.cons_append, List.nil_append] at hread ⊢
  exact .token hblank ((token?_of_isDigit hd).trans hread) (by simp; omega) h

theorem Number.scans {cs : List Char} (h : Number cs) :
    ∃ t, ((∃ n, t = .natural n) ∨ ∃ text, t = .number text) ∧ Scans cs [t] := by
  obtain @⟨sign, whole, fraction, exponent, hsign, hwhole, hfraction, hexponent⟩ := h
  rcases hsign with rfl | rfl
  · rw [List.nil_append]
    refine ⟨_, ?_, scans_unsigned hwhole hfraction hexponent⟩
    split
    · exact .inl ⟨_, rfl⟩
    · exact .inr ⟨_, rfl⟩
  · let text := if fraction = [] ∧ exponent = [] then toString (digitsValue whole)
      else String.ofList (whole ++ fraction ++ exponent)
    refine ⟨.number ("-" ++ text), .inr ⟨_, rfl⟩, fun rest later hrest h => ?_⟩
    have hread : negative? (whole ++ (fraction ++ (exponent ++ rest))) =
        some (.number ("-" ++ text), rest) := by
      simp only [negative?, unsigned?_append hwhole hfraction hexponent hrest, text]
      by_cases hnone : fraction = [] ∧ exponent = [] <;> simp [hnone]
    simp only [List.append_assoc, List.cons_append, List.nil_append]
    exact .token rfl hread (by simp; omega) h

/-! ### Natural numbers as they are printed -/

theorem head?_toDigits {n : Nat} (h : n ≠ 0) : (Nat.toDigits 10 n).head? ≠ some '0' := by
  induction n using Nat.strongRecOn with
  | ind n ih =>
      rw [Nat.toDigits_eq_if (by omega)]
      split
      · rename_i hlt
        have hall : ∀ i : Fin 10, i.val ≠ 0 → [Nat.digitChar i.val].head? ≠ some '0' := by
          decide
        exact hall ⟨n, hlt⟩ h
      · rename_i hge
        rw [List.head?_append_of_ne_nil _ Nat.toDigits_ne_nil]
        exact ih (n / 10) (by omega) (by omega)

theorem whole_toString (n : Nat) : Whole (toString n).toList := by
  rw [Nat.toString_eq_ofList_toDigits, String.toList_ofList]
  refine ⟨⟨Nat.toDigits_ne_nil, fun c hc =>
    Nat.isDigit_of_mem_toDigits (by omega) (Nat.le_refl _) hc⟩, fun hzero => ?_⟩
  obtain rfl : n = 0 := by
    by_contra hn
    exact head?_toDigits hn hzero
  rfl

theorem digitsValue_toString (n : Nat) : digitsValue (toString n).toList = n := by
  rw [Nat.toString_eq_ofList_toDigits, String.toList_ofList]
  exact Nat.ofDigitChars_ten_toDigits

theorem scans_toString (n : Nat) : Scans (toString n).toList [.natural n] := by
  have hscans := scans_unsigned (whole_toString n) .absent .absent
  rwa [List.append_nil, List.append_nil, if_pos ⟨rfl, rfl⟩, digitsValue_toString] at hscans

end Kernelet.Json
