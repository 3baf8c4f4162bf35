import Kernelet.Config.File
import Kernelet.Proofs.Text.Reading

/-!
Objects that list fields of a configuration. What a file holds is described by the grammar
of JSON and by the entries of its object, without regard to how it is read: a field with its
number in plain digits, or a member of another name with any value at all. The fields may
stand in any order, and their names may be written with escapes.

An entry is read as one member. What the members make of a configuration is an induction
over both lists, of entries and of members: the fields that have been seen are not listed
again, and a field that was set keeps its value.
-/

namespace Kernelet.Config

/-! ### The values of a configuration -/

theorem get_lt_limit (config : Config) (field : Field) : config.get field < field.limit := by
  cases field
  all_goals first
    | exact UInt64.toNat_lt_size _
    | exact UInt32.toNat_lt_size _

theorem get_set_self (config : Config) {field : Field} {value : Nat}
    (h : value < field.limit) : (config.set field value).get field = value := by
  cases field
  all_goals first
    | exact UInt64.toNat_ofNat_of_lt h
    | exact UInt32.toNat_ofNat_of_lt h

theorem get_set_of_ne (config : Config) {field other : Field} (value : Nat)
    (h : other ≠ field) : (config.set field value).get other = config.get other := by
  cases field <;> cases other <;> first
    | rfl
    | exact absurd rfl h

theorem eq_of_get {a b : Config} (h : ∀ field, a.get field = b.get field) : a = b := by
  obtain ⟨a₁, a₂, a₃, a₄, a₅, a₆, a₇⟩ := a
  obtain ⟨b₁, b₂, b₃, b₄, b₅, b₆, b₇⟩ := b
  obtain rfl : a₁ = b₁ := UInt64.toNat_inj.mp (h .memorySize)
  obtain rfl : a₂ = b₂ := UInt64.toNat_inj.mp (h .kernelMemory)
  obtain rfl : a₃ = b₃ := UInt64.toNat_inj.mp (h .taskSize)
  obtain rfl : a₄ = b₄ := UInt64.toNat_inj.mp (h .maxTasks)
  obtain rfl : a₅ = b₅ := UInt32.toNat_inj.mp (h .defaultPriority)
  obtain rfl : a₆ = b₆ := UInt32.toNat_inj.mp (h .defaultCounter)
  obtain rfl : a₇ = b₇ := UInt32.toNat_inj.mp (h .hz)
  rfl

/-! ### Objects that list fields -/

/-- A member of the object in a file. -/
inductive Entry where
  | field (field : Field) (value : Nat)
  /-- A member whose name is not that of a field. -/
  | other (name : List Json.Piece)

/-- The field of an entry. -/
def Entry.field? : Entry → Option Field
  | .field f _ => some f
  | .other _ => none

/-- The name of an entry is a text, which the name of a field is in any case. -/
def Entry.Named : Entry → Prop
  | .field _ _ => True
  | .other name => ∃ text, Json.Spells name text

/-- An entry as it is written. -/
inductive IsEntry : Entry → List Char → Prop where
  | field {field : Field} {value : Nat} {label before after : List Char}
      {name : List Json.Piece} (hlabel : Json.Label label name)
      (hname : Json.Spells name field.key.toList) (hbefore : Json.Blanks before)
      (hafter : Json.Blanks after) :
      IsEntry (.field field value) (label ++ (before ++ ((toString value).toList ++ after)))
  | other {label cs : List Char} {name : List Json.Piece} (hlabel : Json.Label label name)
      (hname : ∀ field : Field, ¬ Json.Spells name field.key.toList)
      (h : Json.Sentence .element cs) : IsEntry (.other name) (label ++ cs)

/-- Some entries with commas between them. -/
inductive IsListing : List Entry → List Char → Prop where
  | last {entry : Entry} {cs : List Char} (h : IsEntry entry cs) : IsListing [entry] cs
  | cons {entry : Entry} {entries : List Entry} {cs rest : List Char} (h : IsEntry entry cs)
      (hrest : IsListing entries rest) : IsListing (entry :: entries) (cs ++ ',' :: rest)

/-- An object with these entries and no others, as all of a text. -/
inductive IsObject : List Entry → List Char → Prop where
  | empty {before cs after : List Char} (hbefore : Json.Blanks before) (h : Json.Blanks cs)
      (hafter : Json.Blanks after) :
      IsObject [] (before ++ (('\x7b' :: (cs ++ ['\x7d'])) ++ after))
  | listing {entries : List Entry} {before cs after : List Char}
      (hbefore : Json.Blanks before) (h : IsListing entries cs) (hafter : Json.Blanks after) :
      IsObject entries (before ++ (('\x7b' :: (cs ++ ['\x7d'])) ++ after))

/-- A text is an object that lists some of the fields, each of them once at most and with a
value that it can have, and any other members among them. -/
structure Lists (entries : List Entry) (text : String) : Prop where
  object : IsObject entries text.toList
  once : (entries.filterMap Entry.field?).Nodup
  inRange : ∀ field value, .field field value ∈ entries → value < field.limit

/-- `config` has the values of the listed fields, and those of `base` in all the others. -/
def Updates (base : Config) (entries : List Entry) (config : Config) : Prop :=
  (∀ field value, .field field value ∈ entries → config.get field = value) ∧
    ∀ field, (∀ value, .field field value ∉ entries) → config.get field = base.get field

/-- A configuration, or what is wrong with it. -/
def checked (config : Config) : Except KernelError Config :=
  config.validate.map fun _ => config

/-! ### Reading the members -/

/-- The member that an entry is read as. -/
inductive Means : Entry → Option String × Json → Prop where
  | field (field : Field) (value : Nat) :
      Means (.field field value) (some field.key, .natural value)
  | other {name : List Json.Piece} (json : Json)
      (h : ∀ key, Json.textOf name = some key → Field.ofKey? key = none) :
      Means (.other name) (Json.textOf name, json)

theorem IsEntry.exists_member {entry : Entry} {cs : List Char} (h : IsEntry entry cs) :
    ∃ label value name json, cs = label ++ value ∧ Json.Label label name ∧
      Json.Reads value json ∧ Means entry (Json.textOf name, json) := by
  cases h with
  | @field field value label before after name hlabel hname hbefore hafter =>
      have hread : Json.Reads (toString value).toList (.natural value) :=
        (Json.scans_toString value).reads fun _ _ => rfl
      have htext : Json.textOf name = some field.key := Json.textOf_eq_some_iff.mpr hname
      exact ⟨label, _, name, _, rfl, hlabel, hread.blanks hbefore hafter, htext ▸ .field _ _⟩
  | @other label cs name hlabel hname hvalue =>
      obtain ⟨json, hread⟩ : ∃ json, Json.Reads cs json := Json.read_of_sentence hvalue
      refine ⟨label, cs, name, json, rfl, hlabel, hread, .other json fun key hkey => ?_⟩
      refine List.find?_eq_none.mpr fun field _ heq => hname field ?_
      rw [eq_of_beq heq]
      exact Json.textOf_eq_some_iff.mp hkey

theorem IsListing.exists_members {entries : List Entry} {cs : List Char}
    (h : IsListing entries cs) :
    ∃ members, Json.ReadsMembers cs members ∧ List.Forall₂ Means entries members := by
  induction h with
  | last h =>
      obtain ⟨label, value, name, json, rfl, hlabel, hread, hmeans⟩ := h.exists_member
      exact ⟨_, hread.lastMember hlabel, .cons hmeans .nil⟩
  | cons h hrest ih =>
      obtain ⟨label, value, name, json, rfl, hlabel, hread, hmeans⟩ := h.exists_member
      obtain ⟨members, hmembers, hall⟩ := ih
      rw [List.append_assoc]
      exact ⟨_, hread.memberThen hlabel hmembers, .cons hmeans hall⟩

theorem IsObject.exists_members {entries : List Entry} {cs : List Char}
    (h : IsObject entries cs) :
    ∃ members, Json.Reads cs (.object members) ∧ List.Forall₂ Means entries members := by
  cases h with
  | empty hbefore h hafter => exact ⟨[], h.reads_object.blanks hbefore hafter, .nil⟩
  | listing hbefore h hafter =>
      obtain ⟨members, hmembers, hall⟩ := h.exists_members
      exact ⟨members, hmembers.object.blanks hbefore hafter, hall⟩

theorem Updates.cons_field {base result : Config} {entries : List Entry} {f : Field} {n : Nat}
    (h : (base.set f n).Updates entries result) (hn : n < f.limit)
    (hlater : ∀ value, .field f value ∉ entries) :
    base.Updates (.field f n :: entries) result := by
  obtain ⟨hlisted, hothers⟩ := h
  refine ⟨fun field value hmem => ?_, fun field hnot => ?_⟩
  · rcases List.mem_cons.mp hmem with heq | hmem
    · obtain ⟨rfl, rfl⟩ := Entry.field.inj heq
      rw [hothers field hlater, get_set_self base hn]
    · exact hlisted field value hmem
  · have hne : field ≠ f := by
      rintro rfl
      exact hnot n List.mem_cons_self
    rw [hothers field fun value hmem => hnot value (List.mem_cons_of_mem _ hmem),
      get_set_of_ne base n hne]

theorem Updates.cons_other {base result : Config} {entries : List Entry}
    {name : List Json.Piece} (h : base.Updates entries result) :
    base.Updates (.other name :: entries) result := by
  obtain ⟨hlisted, hothers⟩ := h
  refine ⟨fun field value hmem => ?_, fun field hnot => ?_⟩
  · rcases List.mem_cons.mp hmem with heq | hmem
    · cases heq
    · exact hlisted field value hmem
  · exact hothers field fun value hmem => hnot value (List.mem_cons_of_mem _ hmem)

theorem ofMembers?_of_means {entries : List Entry} {members : List (Option String × Json)}
    (h : List.Forall₂ Means entries members) {config : Config} {seen : List Field}
    (honce : (entries.filterMap Entry.field?).Nodup)
    (hseen : ∀ field ∈ seen, ∀ value, .field field value ∉ entries)
    (hrange : ∀ field value, .field field value ∈ entries → value < field.limit)
    (hnamed : ∀ entry ∈ entries, entry.Named) :
    ∃ result, config.ofMembers? seen members = some result ∧ config.Updates entries result := by
  induction h generalizing config seen with
  | nil => exact ⟨config, rfl, fun _ _ hmem => absurd hmem List.not_mem_nil, fun _ _ => rfl⟩
  | @cons entry member entries members hmeans hall ih =>
      replace ih := fun config seen honce hseen => @ih config seen honce hseen
        (fun field value hmem => hrange field value (List.mem_cons_of_mem entry hmem))
        (fun other hmem => hnamed other (List.mem_cons_of_mem entry hmem))
      cases hmeans with
      | field f n =>
          obtain ⟨hfirst, honce⟩ := List.nodup_cons.mp honce
          have hlater : ∀ value, Entry.field f value ∉ entries := fun value hmem =>
            hfirst (List.mem_filterMap.mpr ⟨_, hmem, rfl⟩)
          have hnew : f ∉ seen := fun hmem => hseen f hmem n List.mem_cons_self
          have hn : n < f.limit := hrange f n List.mem_cons_self
          have hseen' : ∀ field ∈ f :: seen, ∀ value, .field field value ∉ entries := by
            intro field hmem value hentry
            rcases List.mem_cons.mp hmem with rfl | hmem
            · exact hlater value hentry
            · exact hseen field hmem value (List.mem_cons_of_mem _ hentry)
          obtain ⟨result, hresult, hupdates⟩ := ih (config.set f n) (f :: seen) honce hseen'
          refine ⟨result, ?_, hupdates.cons_field hn hlater⟩
          simp only [ofMembers?, Field.ofKey?_key, if_neg hnew, setJson?, if_pos hn, hresult]
      | @other name json hkey =>
          obtain ⟨text, htext⟩ : ∃ text, Json.textOf name = some text := by
            obtain ⟨cs, hcs⟩ := hnamed _ List.mem_cons_self
            exact ⟨String.ofList cs, Json.textOf_eq_some_iff.mpr (by rwa [String.toList_ofList])⟩
          obtain ⟨result, hresult, hupdates⟩ := ih config seen honce
            fun field hmem value hentry =>
              hseen field hmem value (List.mem_cons_of_mem _ hentry)
          refine ⟨result, ?_, hupdates.cons_other⟩
          simp only [htext, ofMembers?, hkey text htext, hresult]

/-- A member whose name is no text spoils the object, whatever stands around it. -/
theorem ofMembers?_of_not_named {entries : List Entry}
    {members : List (Option String × Json)} (h : List.Forall₂ Means entries members)
    {bad : Entry} (hbad : bad ∈ entries) (hname : ¬ bad.Named) (config : Config)
    (seen : List Field) : config.ofMembers? seen members = none := by
  induction h generalizing config seen with
  | nil => exact absurd hbad List.not_mem_nil
  | @cons entry member entries members hmeans hall ih =>
      cases hmeans with
      | field f n =>
          have hlater : bad ∈ entries := by
            rcases List.mem_cons.mp hbad with rfl | hlater
            · exact absurd trivial hname
            · exact hlater
          simp only [ofMembers?, Field.ofKey?_key]
          split
          · rfl
          · cases config.setJson? f (.natural n) with
            | none => rfl
            | some config => exact ih hlater config (f :: seen)
      | @other name json hkey =>
          cases htext : Json.textOf name with
          | none => rfl
          | some text =>
              have hlater : bad ∈ entries := by
                rcases List.mem_cons.mp hbad with rfl | hlater
                · exact absurd ⟨_, Json.textOf_eq_some_iff.mp htext⟩ hname
                · exact hlater
              simp only [ofMembers?, hkey text htext]
              exact ih hlater config seen

/-! ### Reading a file -/

theorem load_file (text : String) : load (.file text.toUTF8) = ofText text := by
  have hread : String.fromUTF8? text.toUTF8 = some text := by
    unfold String.fromUTF8? String.toUTF8
    split
    · rfl
    · rename_i hvalid
      exact absurd text.isValidUTF8 hvalid
  simp only [load, hread]

theorem ofText_of_ofJson? {text : String} {config : Config}
    (h : (Json.parse? text).bind ofJson? = some config) : ofText text = config.checked := by
  simp only [ofText, h, checked]
  cases config.validate <;> rfl

theorem Lists.load {entries : List Entry} {text : String} (h : Lists entries text)
    (hnamed : ∀ entry ∈ entries, entry.Named) :
    ∃ config, Config.load (.file text.toUTF8) = config.checked ∧
      default.Updates entries config := by
  obtain ⟨members, hread, hmeans⟩ := h.object.exists_members
  obtain ⟨config, hconfig, hupdates⟩ :=
    @ofMembers?_of_means entries members hmeans default [] h.once
      (fun _ hmem => absurd hmem List.not_mem_nil) h.inRange hnamed
  refine ⟨config, ?_, hupdates⟩
  rw [load_file]
  exact ofText_of_ofJson? (by rw [hread.parse?]; exact hconfig)

theorem IsObject.load_of_not_named {entries : List Entry} {text : String}
    (h : IsObject entries text.toList) {bad : Entry} (hbad : bad ∈ entries)
    (hname : ¬ bad.Named) :
    Config.load (.file text.toUTF8) = .error (.invalidConfiguration .malformed) := by
  obtain ⟨members, hread, hmeans⟩ := h.exists_members
  have hmembers := ofMembers?_of_not_named hmeans hbad hname default []
  rw [load_file]
  simp only [ofText, hread.parse?, Option.bind_some, ofJson?, hmembers]

end Kernelet.Config
