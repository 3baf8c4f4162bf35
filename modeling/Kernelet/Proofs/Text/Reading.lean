import Kernelet.Proofs.Text.Lexing

/-!
Every text of the grammar is read. The tokens of a part of it are known from the part alone
(`Scans`), and so is the value that they describe, as long as there is fuel for two rounds
to a token. The two facts together are kept for each kind of part (`Reads`, `ReadsItems`,
`ReadsMembers`), and each way to put parts together has its lemma.
-/

namespace Kernelet.Json

/-! ### Parts next to each other -/

theorem Blanks.stops {cs rest : List Char} (h : Blanks cs) (hrest : Stops rest) :
    Stops (cs ++ rest) := by
  cases cs with
  | nil => exact hrest
  | cons c cs =>
      intro d hd
      obtain rfl : c = d := by simpa using hd
      rcases h c List.mem_cons_self with rfl | rfl | rfl | rfl <;> decide

theorem Blanks.scans {cs : List Char} (h : Blanks cs) : Scans cs [] :=
  fun _ _ _ hlater => h.lexes hlater

theorem Scans.blanks {before cs after : List Char} {ts : List Token} (h : Scans cs ts)
    (hbefore : Blanks before) (hafter : Blanks after) : Scans (before ++ (cs ++ after)) ts := by
  intro rest later hrest hlater
  rw [List.append_assoc, List.append_assoc]
  exact hbefore.lexes (h _ later (hafter.stops hrest) (hafter.lexes hlater))

theorem Scans.comma {cs rest : List Char} {ts us : List Token} (h : Scans cs ts)
    (hrest : Scans rest us) : Scans (cs ++ ',' :: rest) (ts ++ .comma :: us) := by
  intro tail later htail hlater
  have hcomma : (',', Token.comma) ∈ marks := by decide
  rw [List.append_assoc, List.append_assoc]
  exact h _ _ (stops_mark hcomma _) (.mark hcomma (hrest tail later htail hlater))

theorem Scans.enclosed {l r : Char} {first last : Token} {cs : List Char} {ts : List Token}
    (hl : (l, first) ∈ marks) (hr : (r, last) ∈ marks) (h : Scans cs ts) :
    Scans (l :: (cs ++ [r])) (first :: (ts ++ [last])) := by
  intro rest later _ hlater
  simp only [List.cons_append, List.append_assoc, List.nil_append]
  exact .mark hl (h _ _ (stops_mark hr _) (.mark hr hlater))

theorem Scans.brackets {cs : List Char} {ts : List Token} (h : Scans cs ts) :
    Scans ('[' :: (cs ++ [']'])) (.openArray :: (ts ++ [.closeArray])) :=
  h.enclosed (by decide) (by decide)

theorem Scans.braces {cs : List Char} {ts : List Token} (h : Scans cs ts) :
    Scans ('\x7b' :: (cs ++ ['\x7d'])) (.openObject :: (ts ++ [.closeObject])) :=
  h.enclosed (by decide) (by decide)

theorem Scans.label {label cs : List Char} {ps : List Piece} {ts : List Token}
    (hlabel : Label label ps) (h : Scans cs ts) :
    Scans (label ++ cs) (.string (textOf ps) :: .colon :: ts) := by
  intro rest later hrest hlater
  obtain @⟨before, name, after, ps, hbefore, hname, hafter⟩ := hlabel
  simp only [List.append_assoc, List.cons_append, List.nil_append]
  exact hbefore.lexes (.string hname (hafter.lexes (.mark (by decide)
    (h rest later hrest hlater))))

/-! ### Values -/

/-- Some tokens describe a value, whatever comes after them. -/
def Builds (ts : List Token) (json : Json) : Prop :=
  ∀ fuel rest, 2 * ts.length ≤ fuel → value? fuel (ts ++ rest) = some (json, rest)

/-- Some tokens describe the items of an array. -/
def BuildsItems (ts : List Token) (items : List Json) : Prop :=
  ∀ fuel rest, 2 * ts.length + 1 ≤ fuel →
    items? fuel (ts ++ .closeArray :: rest) = some (items, rest)

/-- Some tokens describe the members of an object. -/
def BuildsMembers (ts : List Token) (members : List (Option String × Json)) : Prop :=
  ∀ fuel rest, 2 * ts.length + 1 ≤ fuel →
    members? fuel (ts ++ .closeObject :: rest) = some (members, rest)

/-- Some characters are read as a value. -/
def Reads (cs : List Char) (json : Json) : Prop :=
  ∃ ts, Scans cs ts ∧ Builds ts json

def ReadsItems (cs : List Char) (items : List Json) : Prop :=
  ∃ ts, Scans cs ts ∧ BuildsItems ts items

def ReadsMembers (cs : List Char) (members : List (Option String × Json)) : Prop :=
  ∃ ts, Scans cs ts ∧ BuildsMembers ts members

/-- A value that is known from its tokens at once, with nothing to read inside it. -/
theorem Scans.reads {cs : List Char} {t : Token} {ts : List Token} {json : Json}
    (h : Scans cs (t :: ts))
    (ht : ∀ fuel rest, value? (fuel + 1) (t :: (ts ++ rest)) = some (json, rest)) :
    Reads cs json := by
  refine ⟨t :: ts, h, fun fuel rest hfuel => ?_⟩
  simp only [List.length_cons] at hfuel
  obtain ⟨fuel, rfl⟩ := Nat.exists_eq_add_one_of_ne_zero (show fuel ≠ 0 by omega)
  exact ht fuel rest

theorem Reads.blanks {before cs after : List Char} {json : Json} (h : Reads cs json)
    (hbefore : Blanks before) (hafter : Blanks after) : Reads (before ++ (cs ++ after)) json := by
  obtain ⟨ts, hts, hbuilds⟩ := h
  exact ⟨ts, hts.blanks hbefore hafter, hbuilds⟩

theorem Reads.lastItem {cs : List Char} {json : Json} (h : Reads cs json) :
    ReadsItems cs [json] := by
  obtain ⟨ts, hts, hbuilds⟩ := h
  refine ⟨ts, hts, fun fuel rest hfuel => ?_⟩
  obtain ⟨fuel, rfl⟩ := Nat.exists_eq_add_one_of_ne_zero (show fuel ≠ 0 by omega)
  simp [items?, hbuilds fuel _ (by omega)]

theorem Reads.itemThen {cs rest : List Char} {json : Json} {items : List Json}
    (h : Reads cs json) (hrest : ReadsItems rest items) :
    ReadsItems (cs ++ ',' :: rest) (json :: items) := by
  obtain ⟨ts, hts, hbuilds⟩ := h
  obtain ⟨us, hus, hitems⟩ := hrest
  refine ⟨ts ++ .comma :: us, hts.comma hus, fun fuel rest hfuel => ?_⟩
  simp only [List.length_append, List.length_cons] at hfuel
  obtain ⟨fuel, rfl⟩ := Nat.exists_eq_add_one_of_ne_zero (show fuel ≠ 0 by omega)
  simp [items?, hbuilds fuel _ (show 2 * ts.length ≤ fuel by omega),
    hitems fuel rest (by omega)]

theorem Reads.lastMember {label cs : List Char} {ps : List Piece} {json : Json}
    (hlabel : Label label ps) (h : Reads cs json) :
    ReadsMembers (label ++ cs) [(textOf ps, json)] := by
  obtain ⟨ts, hts, hbuilds⟩ := h
  refine ⟨_, hts.label hlabel, fun fuel rest hfuel => ?_⟩
  simp only [List.length_cons] at hfuel
  obtain ⟨fuel, rfl⟩ := Nat.exists_eq_add_one_of_ne_zero (show fuel ≠ 0 by omega)
  simp [members?, hbuilds fuel _ (show 2 * ts.length ≤ fuel by omega)]

theorem Reads.memberThen {label cs rest : List Char} {ps : List Piece} {json : Json}
    {members : List (Option String × Json)} (hlabel : Label label ps) (h : Reads cs json)
    (hrest : ReadsMembers rest members) :
    ReadsMembers (label ++ (cs ++ ',' :: rest)) ((textOf ps, json) :: members) := by
  obtain ⟨ts, hts, hbuilds⟩ := h
  obtain ⟨us, hus, hmembers⟩ := hrest
  refine ⟨_, (hts.comma hus).label hlabel, fun fuel rest hfuel => ?_⟩
  simp only [List.length_append, List.length_cons] at hfuel
  obtain ⟨fuel, rfl⟩ := Nat.exists_eq_add_one_of_ne_zero (show fuel ≠ 0 by omega)
  simp [members?, hbuilds fuel _ (show 2 * ts.length ≤ fuel by omega),
    hmembers fuel rest (by omega)]

/-- The tokens of an item do not look like the end of the array. -/
theorem BuildsItems.ne_closeArray {ts : List Token} {items : List Json}
    (h : BuildsItems ts items) (rest later : List Token) :
    ts ++ .closeArray :: rest ≠ .closeArray :: later := by
  intro heq
  have hread := h (2 * ts.length + 1 + 1) rest (by omega)
  rw [heq] at hread
  simp [items?, value?] at hread

theorem BuildsMembers.ne_closeObject {ts : List Token} {members : List (Option String × Json)}
    (h : BuildsMembers ts members) (rest later : List Token) :
    ts ++ .closeObject :: rest ≠ .closeObject :: later := by
  intro heq
  have hread := h (2 * ts.length + 1 + 1) rest (by omega)
  rw [heq] at hread
  simp [members?] at hread

theorem ReadsItems.array {cs : List Char} {items : List Json} (h : ReadsItems cs items) :
    Reads ('[' :: (cs ++ [']'])) (.array items) := by
  obtain ⟨ts, hts, hbuilds⟩ := h
  refine ⟨_, hts.brackets, fun fuel rest hfuel => ?_⟩
  simp only [List.length_append, List.length_cons, List.length_nil] at hfuel
  obtain ⟨fuel, rfl⟩ := Nat.exists_eq_add_one_of_ne_zero (show fuel ≠ 0 by omega)
  simp [value?, hbuilds.ne_closeArray, hbuilds fuel rest (by omega)]

theorem ReadsMembers.object {cs : List Char} {members : List (Option String × Json)}
    (h : ReadsMembers cs members) : Reads ('\x7b' :: (cs ++ ['\x7d'])) (.object members) := by
  obtain ⟨ts, hts, hbuilds⟩ := h
  refine ⟨_, hts.braces, fun fuel rest hfuel => ?_⟩
  simp only [List.length_append, List.length_cons, List.length_nil] at hfuel
  obtain ⟨fuel, rfl⟩ := Nat.exists_eq_add_one_of_ne_zero (show fuel ≠ 0 by omega)
  simp [value?, hbuilds.ne_closeObject, hbuilds fuel rest (by omega)]

theorem Blanks.reads_array {cs : List Char} (h : Blanks cs) :
    Reads ('[' :: (cs ++ [']'])) (.array []) :=
  h.scans.brackets.reads fun _ _ => rfl

theorem Blanks.reads_object {cs : List Char} (h : Blanks cs) :
    Reads ('\x7b' :: (cs ++ ['\x7d'])) (.object []) :=
  h.scans.braces.reads fun _ _ => rfl

theorem Number.reads {cs : List Char} (h : Number cs) : ∃ json, Reads cs json := by
  obtain ⟨t, ⟨n, rfl⟩ | ⟨text, rfl⟩, hscans⟩ := h.scans
  · exact ⟨.natural n, hscans.reads fun _ _ => rfl⟩
  · exact ⟨.number text, hscans.reads fun _ _ => rfl⟩

theorem Written.reads {cs : List Char} {ps : List Piece} (h : Written cs ps) :
    Reads ('"' :: (cs ++ ['"'])) (.string (textOf ps)) := by
  have hscans : Scans ('"' :: (cs ++ ['"'])) [.string (textOf ps)] := by
    intro rest later _ hlater
    simp only [List.cons_append, List.append_assoc, List.nil_append]
    exact .string h hlater
  exact hscans.reads fun _ _ => rfl

/-! ### Texts -/

/-- A part of a text is read as what it is. -/
def Part.Read : Part → List Char → Prop
  | .value, cs | .element, cs => ∃ json, Reads cs json
  | .elements, cs => ∃ items, ReadsItems cs items
  | .members, cs => ∃ members, ReadsMembers cs members

theorem read_of_sentence {part : Part} {cs : List Char} (h : Sentence part cs) :
    part.Read cs := by
  induction h with
  | null =>
      have hscans : Scans ['n', 'u', 'l', 'l'] [.null] := fun rest later _ hlater =>
        .token rfl rfl (by simp; omega) hlater
      exact ⟨.null, hscans.reads fun _ _ => rfl⟩
  | true =>
      have hscans : Scans ['t', 'r', 'u', 'e'] [.bool true] := fun rest later _ hlater =>
        .token rfl rfl (by simp; omega) hlater
      exact ⟨.bool true, hscans.reads fun _ _ => rfl⟩
  | false =>
      have hscans : Scans ['f', 'a', 'l', 's', 'e'] [.bool false] := fun rest later _ hlater =>
        .token rfl rfl (by simp; omega) hlater
      exact ⟨.bool false, hscans.reads fun _ _ => rfl⟩
  | number h => exact h.reads
  | string h => exact ⟨_, h.reads⟩
  | emptyArray h => exact ⟨_, h.reads_array⟩
  | array h ih =>
      obtain ⟨items, hitems⟩ := ih
      exact ⟨.array items, hitems.array⟩
  | emptyObject h => exact ⟨_, h.reads_object⟩
  | object h ih =>
      obtain ⟨members, hmembers⟩ := ih
      exact ⟨.object members, hmembers.object⟩
  | element hbefore h hafter ih =>
      obtain ⟨json, hjson⟩ := ih
      exact ⟨json, hjson.blanks hbefore hafter⟩
  | lastElement h ih =>
      obtain ⟨json, hjson⟩ := ih
      exact ⟨[json], hjson.lastItem⟩
  | elementThen h hrest ih ihrest =>
      obtain ⟨json, hjson⟩ := ih
      obtain ⟨items, hitems⟩ := ihrest
      exact ⟨json :: items, hjson.itemThen hitems⟩
  | lastMember hlabel h ih =>
      obtain ⟨json, hjson⟩ := ih
      exact ⟨_, hjson.lastMember hlabel⟩
  | memberThen hlabel h hrest ih ihrest =>
      obtain ⟨json, hjson⟩ := ih
      obtain ⟨members, hmembers⟩ := ihrest
      exact ⟨_, hjson.memberThen hlabel hmembers⟩

theorem Reads.parse? {text : String} {json : Json} (h : Reads text.toList json) :
    Json.parse? text = some json := by
  obtain ⟨ts, hscans, hbuilds⟩ := h
  have hlexes : Lexes text.toList ts := by
    simpa using hscans [] [] (by simp [Stops]) .nil
  have hvalue := hbuilds (2 * ts.length + 1) [] (by omega)
  rw [List.append_nil] at hvalue
  simp [Json.parse?, tokens_of_lexes hlexes, ofTokens?, hvalue]

end Kernelet.Json
