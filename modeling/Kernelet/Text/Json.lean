/-!
JSON text. The kernel itself reads no JSON. It leaves that to a library outside of
it, and the reader here stands in for that library. What is proved with it relies
on the library for this much:

* it accepts the texts of the grammar and no others, however deep the values are
  that a decoder passes over;
* it tells a number in plain decimal digits, and which one it is, from every other;
* it hands on the members of an object in the order of the text, with repetitions,
  and the items of an array in theirs;
* it knows a string that is no text from one that is.

A text is read in two passes: `Json.tokens` cuts it into tokens, and
`Json.ofTokens?` builds the value that they describe. All white space is between
tokens, and two values never stand side by side, so that nothing is lost by
the cut.

A string may name half of a surrogate pair by an escape. Such a string is well
formed and yet no text, and it is read as `none`.
-/

namespace Kernelet

/-- A JSON value. Members of an object stand in the order of the text, with
repetitions. -/
inductive Json where
  | null
  | bool (value : Bool)
  /-- A number written with decimal digits alone. -/
  | natural (value : Nat)
  /-- Any other number, as it is written. -/
  | number (text : String)
  | string (value : Option String)
  | array (items : List Json)
  | object (members : List (Option String × Json))

namespace Json

/-- A token of JSON text. -/
inductive Token where
  | openArray
  | closeArray
  | openObject
  | closeObject
  | comma
  | colon
  | null
  | bool (value : Bool)
  | natural (value : Nat)
  | number (text : String)
  | string (value : Option String)
deriving DecidableEq, Repr

def isBlank (c : Char) : Bool :=
  c == ' ' || c == '\t' || c == '\n' || c == '\r'

/-! ### Strings -/

/-- What one element of a string stands for: a character, or by an escape a
16-bit unit, which may be half of a character. -/
inductive Piece where
  | char (c : Char)
  | unit (u : Nat)
deriving DecidableEq, Repr

def isHighHalf (u : Nat) : Bool :=
  0xD800 ≤ u && u < 0xDC00

def isLowHalf (u : Nat) : Bool :=
  0xDC00 ≤ u && u < 0xE000

/-- The text that the elements of a string make, unless a half stands alone. -/
def joinPieces : List Piece → Option (List Char)
  | [] => some []
  | .char c :: rest => (joinPieces rest).map (c :: ·)
  | .unit u :: .unit v :: rest =>
    if isHighHalf u && isLowHalf v then
      (joinPieces rest).map (Char.ofNat (0x10000 + (u - 0xD800) * 0x400 + (v - 0xDC00)) :: ·)
    else if isHighHalf u || isLowHalf u then
      none
    else
      (joinPieces (.unit v :: rest)).map (Char.ofNat u :: ·)
  | .unit u :: rest =>
    if isHighHalf u || isLowHalf u then none else (joinPieces rest).map (Char.ofNat u :: ·)

def hexValue? (c : Char) : Option Nat :=
  if '0' ≤ c ∧ c ≤ '9' then some (c.toNat - 48)
  else if 'a' ≤ c ∧ c ≤ 'f' then some (c.toNat - 87)
  else if 'A' ≤ c ∧ c ≤ 'F' then some (c.toNat - 55)
  else none

/-- The value of four hexadecimal digits. -/
def hexUnit? (a b c d : Char) : Option Nat := do
  let a ← hexValue? a
  let b ← hexValue? b
  let c ← hexValue? c
  let d ← hexValue? d
  return 4096 * a + 256 * b + 16 * c + d

/-- The character that a backslash and `c` stand for. -/
def escaped? (c : Char) : Option Char :=
  if c = '"' ∨ c = '\\' ∨ c = '/' then some c
  else if c = 'b' then some '\x08'
  else if c = 'f' then some '\x0c'
  else if c = 'n' then some '\n'
  else if c = 'r' then some '\r'
  else if c = 't' then some '\t'
  else none

/-- The elements of a string after its opening quote, and the text after its
closing one. Control characters have to be escaped. -/
def pieces : List Char → Option (List Piece × List Char)
  | [] => none
  | '"' :: rest => some ([], rest)
  | '\\' :: 'u' :: a :: b :: c :: d :: rest => do
    let u ← hexUnit? a b c d
    let (later, rest) ← pieces rest
    return (.unit u :: later, rest)
  | '\\' :: c :: rest => do
    let e ← escaped? c
    let (later, rest) ← pieces rest
    return (.char e :: later, rest)
  | c :: rest =>
    if c.toNat < 0x20 ∨ c = '\\' then
      none
    else do
      let (later, rest) ← pieces rest
      return (.char c :: later, rest)

/-- A string after its opening quote. -/
def stringToken (cs : List Char) : Option (Token × List Char) := do
  let (ps, rest) ← pieces cs
  return (.string ((joinPieces ps).map String.ofList), rest)

/-! ### Numbers -/

/-- The number that decimal digits stand for. -/
def digitsValue (digits : List Char) : Nat :=
  digits.foldl (fun value c => 10 * value + (c.toNat - 48)) 0

/-- One decimal digit or more, and the text after them. -/
def digits? (cs : List Char) : Option (List Char × List Char) :=
  match cs.takeWhile Char.isDigit with
  | [] => none
  | ds => some (ds, cs.dropWhile Char.isDigit)

/-- The digits before the decimal point: `0`, or digits of which the first is
another. -/
def whole? (cs : List Char) : Option (List Char × List Char) := do
  let (ds, rest) ← digits? cs
  if ds.head? = some '0' ∧ ds ≠ ['0'] then none else some (ds, rest)

/-- The decimal point and the digits after it, or nothing. -/
def fraction? : List Char → Option (List Char × List Char)
  | '.' :: rest => (digits? rest).map fun (ds, rest) => ('.' :: ds, rest)
  | cs => some ([], cs)

/-- The sign of an exponent, or nothing. -/
def exponentSign : List Char → List Char × List Char
  | '+' :: rest => (['+'], rest)
  | '-' :: rest => (['-'], rest)
  | cs => ([], cs)

/-- The exponent, or nothing. -/
def exponent? : List Char → Option (List Char × List Char)
  | [] => some ([], [])
  | c :: rest =>
    if c = 'e' ∨ c = 'E' then
      let (sign, rest) := exponentSign rest
      (digits? rest).map fun (ds, rest) => (c :: sign ++ ds, rest)
    else
      some ([], c :: rest)

/-- A number that is not negative. -/
def unsigned? (cs : List Char) : Option (Token × List Char) := do
  let (whole, rest) ← whole? cs
  let (fraction, rest) ← fraction? rest
  let (exponent, rest) ← exponent? rest
  if fraction = [] ∧ exponent = [] then
    some (.natural (digitsValue whole), rest)
  else
    some (.number (String.ofList (whole ++ fraction ++ exponent)), rest)

/-- A number after its minus sign. -/
def negative? (cs : List Char) : Option (Token × List Char) := do
  let (token, rest) ← unsigned? cs
  match token with
  | .natural n => some (.number ("-" ++ toString n), rest)
  | .number text => some (.number ("-" ++ text), rest)
  | _ => none

/-! ### Tokens -/

/-- The first token of a text that does not start with white space. -/
def token? : List Char → Option (Token × List Char)
  | '[' :: rest => some (.openArray, rest)
  | ']' :: rest => some (.closeArray, rest)
  | '{' :: rest => some (.openObject, rest)
  | '}' :: rest => some (.closeObject, rest)
  | ',' :: rest => some (.comma, rest)
  | ':' :: rest => some (.colon, rest)
  | '"' :: rest => stringToken rest
  | '-' :: rest => negative? rest
  | 'n' :: 'u' :: 'l' :: 'l' :: rest => some (.null, rest)
  | 't' :: 'r' :: 'u' :: 'e' :: rest => some (.bool true, rest)
  | 'f' :: 'a' :: 'l' :: 's' :: 'e' :: rest => some (.bool false, rest)
  | cs => unsigned? cs

/-- At most `fuel` tokens and blanks from the start of a text, which have to be
all of it. -/
def tokensUpTo : Nat → List Char → Option (List Token)
  | _, [] => some []
  | 0, _ :: _ => none
  | fuel + 1, c :: rest =>
    if isBlank c then
      tokensUpTo fuel rest
    else do
      let (token, rest) ← token? (c :: rest)
      return token :: (← tokensUpTo fuel rest)

/-- The tokens of a text. There are no more of them than characters. -/
def tokens (cs : List Char) : Option (List Token) :=
  tokensUpTo cs.length cs

/-! ### Values -/

mutual

/-- The value at the start of some tokens, and the tokens after it. The fuel
bounds how deep the value is and how many items it has. -/
def value? : Nat → List Token → Option (Json × List Token)
  | 0, _ => none
  | fuel + 1, tokens =>
    match tokens with
    | .null :: rest => some (.null, rest)
    | .bool b :: rest => some (.bool b, rest)
    | .natural n :: rest => some (.natural n, rest)
    | .number text :: rest => some (.number text, rest)
    | .string s :: rest => some (.string s, rest)
    | .openArray :: .closeArray :: rest => some (.array [], rest)
    | .openArray :: rest => (items? fuel rest).map fun (items, rest) => (.array items, rest)
    | .openObject :: .closeObject :: rest => some (.object [], rest)
    | .openObject :: rest =>
      (members? fuel rest).map fun (members, rest) => (.object members, rest)
    | _ => none

/-- One item of an array or more, up to the closing bracket. -/
def items? : Nat → List Token → Option (List Json × List Token)
  | 0, _ => none
  | fuel + 1, tokens =>
    match value? fuel tokens with
    | some (item, .closeArray :: rest) => some ([item], rest)
    | some (item, .comma :: rest) =>
      (items? fuel rest).map fun (items, rest) => (item :: items, rest)
    | _ => none

/-- One member of an object or more, up to the closing brace. -/
def members? : Nat → List Token → Option (List (Option String × Json) × List Token)
  | 0, _ => none
  | fuel + 1, tokens =>
    match tokens with
    | .string key :: .colon :: rest =>
      match value? fuel rest with
      | some (value, .closeObject :: rest) => some ([(key, value)], rest)
      | some (value, .comma :: rest) =>
        (members? fuel rest).map fun (members, rest) => ((key, value) :: members, rest)
      | _ => none
    | _ => none

end

/-- The value that a list of tokens describes. Reading a value takes two rounds
for each of its tokens at most. -/
def ofTokens? (tokens : List Token) : Option Json :=
  match value? (2 * tokens.length + 1) tokens with
  | some (value, []) => some value
  | _ => none

/-- The value that a text describes. -/
def parse? (text : String) : Option Json :=
  (tokens text.toList).bind ofTokens?

end Json

end Kernelet
