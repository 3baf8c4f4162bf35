import Kernelet.Proofs.Config.Listing

/-!
Configurations in files. The text that `save` writes is an object with every field in it, so
that what is known of reading such objects settles what becomes of a configuration that is
written and read. The text and its reading are those of the reader and the printer in
`Text.Json` and `Config.File`, which stand in for a JSON library outside of the kernel.
-/

namespace Kernelet.Config

/-- The entry of a field with its value in `config`. -/
def entry (config : Config) (field : Field) : Entry :=
  .field field (config.get field)

theorem isEntry_fieldLine (config : Config) (field : Field) {after : List Char}
    (hafter : Json.Blanks after) :
    IsEntry (config.entry field) ('\n' :: ((config.fieldLine field).toList ++ after)) := by
  have hwritten : Json.Written field.key.toList (field.key.toList.map .char) := by
    apply Json.written_of_plain
    cases field <;> simp [Field.key]
  have hlabel : Json.Label
      (['\n', ' ', ' '] ++ ('"' :: (field.key.toList ++ '"' :: ([] ++ [':']))))
      (field.key.toList.map .char) :=
    .name (by simp [Json.Blanks]) hwritten (by simp [Json.Blanks])
  have hentry : IsEntry (config.entry field)
      (_ ++ ([' '] ++ ((toString (config.get field)).toList ++ after))) :=
    .field hlabel (Json.spells_chars _) (by simp [Json.Blanks]) hafter
  have hline : (config.fieldLine field).toList = [' ', ' ', '"'] ++ field.key.toList ++
      ['"', ':', ' '] ++ (toString (config.get field)).toList := by
    simp [fieldLine]
  simpa [hline] using hentry

/-- The lines of some fields and the line break after them. -/
theorem isListing_fieldLines (config : Config) (field : Field) (fields : List Field) :
    IsListing ((field :: fields).map config.entry)
      ('\n' :: ([',', '\n'].intercalate
        ((field :: fields).map fun f => (config.fieldLine f).toList) ++ ['\n'])) := by
  induction fields generalizing field with
  | nil => exact .last (by simpa using config.isEntry_fieldLine field (by simp [Json.Blanks]))
  | cons next fields ih =>
      have hfirst : IsEntry (config.entry field)
          ('\n' :: ((config.fieldLine field).toList ++ [])) :=
        config.isEntry_fieldLine field (by simp [Json.Blanks])
      simpa [List.intercalate, List.intersperse] using IsListing.cons hfirst (ih next)

theorem lists_toText (config : Config) : Lists (Field.all.map config.entry) config.toText where
  object := by
    have hlisting := config.isListing_fieldLines .memorySize
      [.kernelMemory, .taskSize, .maxTasks, .defaultPriority, .defaultCounter, .hz]
    have hobject := IsObject.listing (show Json.Blanks [] by simp [Json.Blanks]) hlisting
      (show Json.Blanks [] by simp [Json.Blanks])
    have htext : config.toText.toList = ['\x7b', '\n'] ++ [',', '\n'].intercalate
        (Field.all.map fun f => (config.fieldLine f).toList) ++ ['\n', '\x7d'] := by
      simp [toText, String.toList_intercalate, Function.comp_def]
    rw [htext]
    simpa [Field.all] using hobject
  once := by
    have hfields : (Field.all.map config.entry).filterMap Entry.field? = Field.all := by
      simp [List.filterMap_map, Function.comp_def, entry, Entry.field?]
    rw [hfields]
    decide
  inRange := by
    intro field value hmem
    obtain ⟨f, -, heq⟩ := List.mem_map.mp hmem
    obtain ⟨rfl, rfl⟩ := Entry.field.inj heq
    exact config.get_lt_limit f

theorem load_toText (config : Config) : load (.file config.toText.toUTF8) = config.checked := by
  obtain ⟨result, hload, hlisted, -⟩ := config.lists_toText.load (by
    intro entry hmem
    obtain ⟨field, -, rfl⟩ := List.mem_map.mp hmem
    trivial)
  obtain rfl : result = config := eq_of_get fun field =>
    hlisted field _ (List.mem_map.mpr ⟨field, field.mem_all, rfl⟩)
  exact hload

theorem not_spells_half (cs : List Char) : ¬ Json.Spells [.unit 0xD800] cs := by
  intro h
  cases h with
  | unit hhigh hlow h => exact absurd hhigh (by decide)

/-- The object whose only name is half of a character. -/
theorem lists_halfName : Lists [.other [.unit 0xD800]] "\x7b\"\\ud800\":1\x7d" where
  object := by
    have hname : Json.Written ['\\', 'u', 'd', '8', '0', '0'] [.unit 0xD800] :=
      @Json.Written.unit 'd' '8' '0' '0' 13 8 0 0 [] [] (.inl rfl) (.inl rfl) (.inl rfl)
        (.inl rfl) .nil
    have hlabel := Json.Label.name Json.blanks_nil hname Json.blanks_nil
    have hvalue : Json.Sentence .value ['1'] :=
      .number (@Json.Number.parts [] ['1'] [] [] (.inl rfl) (Json.whole_toString 1) .absent
        .absent)
    have hentry : IsEntry (.other [.unit 0xD800]) _ :=
      .other hlabel (fun field => not_spells_half field.key.toList)
        (.element Json.blanks_nil hvalue Json.blanks_nil)
    exact IsObject.listing Json.blanks_nil (.last hentry) Json.blanks_nil
  once := List.nodup_nil
  inRange := by simp

/-- An object that lists a field, with an escape in its name, after a member that no machine
has. -/
theorem lists_someFields :
    Lists [.other [.char 'x'], .field .hz 250]
      "\x7b\"x\":[null], \"h\\u007a\" : 250\x7d" where
  object := by
    have hx : Json.Written ['x'] [.char 'x'] :=
      .plain (by decide) (by decide) (by decide) .nil
    have hnull : Json.Sentence .element ['n', 'u', 'l', 'l'] :=
      .element Json.blanks_nil .null Json.blanks_nil
    have hother : IsEntry (.other [.char 'x']) _ :=
      .other (.name Json.blanks_nil hx Json.blanks_nil)
        (fun field h => by
          have htext := Json.joinPieces_of_spells h
          cases field <;> exact absurd htext (by decide))
        (.element Json.blanks_nil (.array (.lastElement hnull)) Json.blanks_nil)
    have hspace : Json.Blanks [' '] := by simp [Json.Blanks]
    have hhz : Json.Written ['h', '\\', 'u', '0', '0', '7', 'a'] [.char 'h', .unit 0x7A] :=
      .plain (by decide) (by decide) (by decide)
        (@Json.Written.unit '0' '0' '7' 'a' 0 0 7 10 [] [] (.inl rfl) (.inl rfl) (.inl rfl)
          (.inl rfl) .nil)
    have hspells : Json.Spells [.char 'h', .unit 0x7A] ['h', 'z'] :=
      .char (.unit (by decide) (by decide) .nil)
    have hfield : IsEntry (.field .hz 250) _ :=
      .field (.name hspace hhz hspace) hspells hspace Json.blanks_nil
    exact IsObject.listing Json.blanks_nil (.cons hother (.last hfield)) Json.blanks_nil
  once := by decide
  inRange := by
    intro field value hmem
    obtain ⟨rfl, rfl⟩ : field = .hz ∧ value = 250 := by simpa using hmem
    decide

/-- A configuration is read from a file as it was written, and if no machine can be built
from it then that is what is wrong with the file. The same holds of every object that lists
any of the fields in any order: the default machine with the listed values is read, and then
checked. Members of other names are passed over whatever they hold. Only their names matter:
one that is no text makes the object malformed. -/
theorem roundTrip :
    (∀ (config : Config) (place : Place), place ≠ .noFolder →
      ∃ file, config.save place = .ok file ∧ load file = config.checked) ∧
    (∀ (entries : List Entry) (text : String), Lists entries text →
      (∀ entry ∈ entries, entry.Named) →
      ∃ config, load (.file text.toUTF8) = config.checked ∧
        default.Updates entries config) ∧
    ∀ (entries : List Entry) (text : String), Lists entries text →
      (∃ entry ∈ entries, ¬ entry.Named) →
      load (.file text.toUTF8) = .error (.invalidConfiguration .malformed) := by
  refine ⟨fun config place hplace => ?_, fun entries text hlists hnamed => hlists.load hnamed,
    fun entries text hlists ⟨bad, hbad, hname⟩ => hlists.object.load_of_not_named hbad hname⟩
  have hsave : config.save place = .ok (.file config.toText.toUTF8) := by
    cases place with
    | noFolder => exact absurd rfl hplace
    | noFile => rfl
    | file bytes => rfl
  exact ⟨_, hsave, config.load_toText⟩

theorem roundTrip_someFields :
    Place.noFile ≠ .noFolder ∧
    (∃ file, small.save .noFile = .ok file ∧ load file = .ok small) ∧
    Lists [.other [.char 'x'], .field .hz 250]
      "\x7b\"x\":[null], \"h\\u007a\" : 250\x7d" ∧
    load (.file "\x7b\"x\":[null], \"h\\u007a\" : 250\x7d".toUTF8) =
      .ok (default.set .hz 250) ∧
    Lists [.other [.unit 0xD800]] "\x7b\"\\ud800\":1\x7d" ∧
    load (.file "\x7b\"\\ud800\":1\x7d".toUTF8) =
      .error (.invalidConfiguration .malformed) := by
  obtain ⟨hsaved, hread, hrefused⟩ := roundTrip
  refine ⟨by simp, hsaved small .noFile (by simp), lists_someFields, ?_, lists_halfName, ?_⟩
  · have hnamed : ∀ entry ∈ [Entry.other [.char 'x'], .field .hz 250], entry.Named := by
      intro entry hmem
      rcases List.mem_pair.mp hmem with rfl | rfl
      · exact ⟨['x'], .char .nil⟩
      · trivial
    obtain ⟨config, hload, hlisted, hothers⟩ := hread _ _ lists_someFields hnamed
    obtain rfl : config = default.set .hz 250 := eq_of_get fun field => by
      by_cases hfield : field = .hz
      · subst hfield
        exact hlisted .hz 250 (by simp)
      · rw [hothers field (by simp [hfield]), get_set_of_ne default 250 hfield]
    exact hload
  · exact hrefused _ _ lists_halfName
      ⟨_, List.mem_cons_self, fun ⟨cs, hcs⟩ => not_spells_half cs hcs⟩

/-- Not every object that lists fields is read. The name of another member may be half of a
character, and then the file is refused, although nothing in it is wrong with a machine. -/
theorem not_roundTrip_halfName :
    ¬ ∀ (entries : List Entry) (text : String), Lists entries text →
      ∃ config, load (.file text.toUTF8) = config.checked ∧
        default.Updates entries config := by
  intro hall
  obtain ⟨config, hload, -, hothers⟩ := hall _ _ lists_halfName
  obtain rfl : config = default := eq_of_get fun field => hothers field (by simp)
  have hrefused := lists_halfName.object.load_of_not_named List.mem_cons_self
    fun ⟨cs, hcs⟩ => not_spells_half cs hcs
  rw [hrefused] at hload
  cases hload

end Kernelet.Config
