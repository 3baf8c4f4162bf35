import Kernelet.Config.Fields
import Kernelet.Text.Json

/-!
Configurations in files. A file holds a JSON object with the fields by name, or
a JSON array with the first fields in order. Fields that are not listed have
the values of the default machine, and members of other names are passed over.
A field may be listed once, and its value is a number in plain decimal digits.

The kernel says which fields there are, what they default to, and that a
configuration is validated after it has been read. The rest is the business of a
JSON library outside of it, which derives a decoder and a printer from the list of
fields. `Config.ofJson?` and `Config.toText` stand in for these two, as `Json.parse?`
does for the reader (`Text.Json`). The library is relied on for what is said above of
objects and arrays, for refusing a number that the type of its field does not hold,
and for writing every field with its value, once and in plain digits.
-/

namespace Kernelet.Config

/-- The configuration with the value that `json` gives to one field. -/
def setJson? (config : Config) (field : Field) (json : Json) : Option Config :=
  match json with
  | .natural n => if n < field.limit then some (config.set field n) else none
  | _ => none

/-- The configuration with the values that some members give to the fields,
other than those in `seen`. -/
def ofMembers? (config : Config) (seen : List Field) :
    List (Option String × Json) → Option Config
  | [] => some config
  | (none, _) :: _ => none
  | (some key, json) :: rest =>
    match Field.ofKey? key with
    | none => config.ofMembers? seen rest
    | some field =>
      if field ∈ seen then
        none
      else
        match config.setJson? field json with
        | none => none
        | some config => config.ofMembers? (field :: seen) rest

/-- The configuration with the values of an array, one for each of the given
fields as far as they go. -/
def ofItems? (config : Config) : List Field → List Json → Option Config
  | _, [] => some config
  | [], _ :: _ => none
  | field :: fields, json :: rest =>
    match config.setJson? field json with
    | none => none
    | some config => config.ofItems? fields rest

/-- The configuration that a JSON value describes, by the decoder that is derived
from the fields. -/
def ofJson? : Json → Option Config
  | .object members => default.ofMembers? [] members
  | .array items => default.ofItems? Field.all items
  | _ => none

/-- The configuration that a text describes, if it describes one that is
valid. -/
def ofText (text : String) : Except KernelError Config :=
  match (Json.parse? text).bind ofJson? with
  | none => .error (.invalidConfiguration .malformed)
  | some config =>
    match config.validate with
    | .error e => .error e
    | .ok () => .ok config

/-- One field as a line of a file. -/
def fieldLine (config : Config) (field : Field) : String :=
  "  \"" ++ field.key ++ "\": " ++ toString (config.get field)

/-- The configuration as the text of a file, one field to a line, by the printer
that is derived from the fields. -/
def toText (config : Config) : String :=
  "\x7b\n" ++ String.intercalate ",\n" (Field.all.map config.fieldLine) ++ "\n\x7d"

/-- What there is at the end of a path. -/
inductive Place where
  /-- Not even a folder for a file. -/
  | noFolder
  /-- A folder without a file. -/
  | noFile
  | file (bytes : ByteArray)

/-- Writes the configuration to a file, whether it is valid or not. -/
def save (config : Config) : Place → Except KernelError Place
  | .noFolder => .error (.invalidConfiguration .notFound)
  | .noFile | .file _ => .ok (.file config.toText.toUTF8)

/-- Reads a valid configuration from a file. -/
def load : Place → Except KernelError Config
  | .noFolder | .noFile => .error (.invalidConfiguration .notFound)
  | .file bytes =>
    match String.fromUTF8? bytes with
    | none => .error (.invalidConfiguration .notText)
    | some text => ofText text

end Kernelet.Config
