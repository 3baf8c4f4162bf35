import Kernelet.Text.Json

/-!
The grammar of JSON text, as the standard has it and without regard to how it is read. A
text may have any white space between its tokens, any escapes in its strings, and values
nested to any depth.

What the elements of a string make of it is kept apart (`Spells`), because not every
string is a text: an escape may name half of a character, and the other half need not
follow.
-/

namespace Kernelet.Json

/-- Any amount of white space. -/
def Blanks (cs : List Char) : Prop :=
  ∀ c ∈ cs, c = ' ' ∨ c = '\t' ∨ c = '\n' ∨ c = '\r'

theorem blanks_nil : Blanks [] :=
  fun _ hc => absurd hc List.not_mem_nil

/-! ### Numbers -/

/-- Decimal digits, and one at least. -/
def Digits (cs : List Char) : Prop :=
  cs ≠ [] ∧ ∀ c ∈ cs, c.isDigit = true

/-- The part of a number before the point, which has no needless 0 in front. -/
def Whole (cs : List Char) : Prop :=
  Digits cs ∧ (cs.head? = some '0' → cs = ['0'])

inductive Fraction : List Char → Prop where
  | absent : Fraction []
  | digits {ds : List Char} (h : Digits ds) : Fraction ('.' :: ds)

inductive Exponent : List Char → Prop where
  | absent : Exponent []
  | digits {c : Char} {sign ds : List Char} (hc : c = 'e' ∨ c = 'E')
      (hsign : sign = [] ∨ sign = ['+'] ∨ sign = ['-']) (h : Digits ds) :
      Exponent (c :: sign ++ ds)

inductive Number : List Char → Prop where
  | parts {sign whole fraction exponent : List Char} (hsign : sign = [] ∨ sign = ['-'])
      (hwhole : Whole whole) (hfraction : Fraction fraction) (hexponent : Exponent exponent) :
      Number (sign ++ (whole ++ (fraction ++ exponent)))

/-! ### Strings -/

def lowerHex : List Char :=
  ['0', '1', '2', '3', '4', '5', '6', '7', '8', '9', 'a', 'b', 'c', 'd', 'e', 'f']

def upperHex : List Char :=
  ['0', '1', '2', '3', '4', '5', '6', '7', '8', '9', 'A', 'B', 'C', 'D', 'E', 'F']

/-- The hexadecimal digit `c` stands for `value`. -/
def Hex (c : Char) (value : Nat) : Prop :=
  lowerHex[value]? = some c ∨ upperHex[value]? = some c

/-- The characters that a backslash may stand in front of, with what they stand for then. -/
def escapes : List (Char × Char) :=
  [('"', '"'), ('\\', '\\'), ('/', '/'), ('b', '\x08'), ('f', '\x0c'), ('n', '\n'), ('r', '\r'),
    ('t', '\t')]

/-- The elements of a string, as they are written between its quotes. -/
inductive Written : List Char → List Piece → Prop where
  | nil : Written [] []
  | plain {c : Char} {cs : List Char} {ps : List Piece} (hc : 0x20 ≤ c.toNat) (hquote : c ≠ '"')
      (hslash : c ≠ '\\') (h : Written cs ps) : Written (c :: cs) (.char c :: ps)
  | escape {c e : Char} {cs : List Char} {ps : List Piece} (hc : (c, e) ∈ escapes)
      (h : Written cs ps) : Written ('\\' :: c :: cs) (.char e :: ps)
  | unit {a b c d : Char} {i j k l : Nat} {cs : List Char} {ps : List Piece} (ha : Hex a i)
      (hb : Hex b j) (hc : Hex c k) (hd : Hex d l) (h : Written cs ps) :
      Written ('\\' :: 'u' :: a :: b :: c :: d :: cs)
        (.unit (4096 * i + 256 * j + 16 * k + l) :: ps)

/-- The elements of a string make a text. Two halves that belong together make one
character, and no half stands alone. -/
inductive Spells : List Piece → List Char → Prop where
  | nil : Spells [] []
  | char {c : Char} {ps : List Piece} {cs : List Char} (h : Spells ps cs) :
      Spells (.char c :: ps) (c :: cs)
  | unit {u : Nat} {ps : List Piece} {cs : List Char} (hhigh : isHighHalf u = false)
      (hlow : isLowHalf u = false) (h : Spells ps cs) :
      Spells (.unit u :: ps) (Char.ofNat u :: cs)
  | pair {u v : Nat} {ps : List Piece} {cs : List Char} (hhigh : isHighHalf u = true)
      (hlow : isLowHalf v = true) (h : Spells ps cs) :
      Spells (.unit u :: .unit v :: ps)
        (Char.ofNat (0x10000 + (u - 0xD800) * 0x400 + (v - 0xDC00)) :: cs)

/-- A text may be written without any escapes if it has none of the characters that need
one. -/
theorem written_of_plain {cs : List Char}
    (h : ∀ c ∈ cs, 0x20 ≤ c.toNat ∧ c ≠ '"' ∧ c ≠ '\\') : Written cs (cs.map .char) := by
  induction cs with
  | nil => exact .nil
  | cons c cs ih =>
      obtain ⟨hc, hquote, hslash⟩ := h c List.mem_cons_self
      exact .plain hc hquote hslash (ih fun d hd => h d (List.mem_cons_of_mem c hd))

theorem spells_chars (cs : List Char) : Spells (cs.map .char) cs := by
  induction cs with
  | nil => exact .nil
  | cons c cs ih => exact .char ih

/-! ### Values -/

/-- The name of a member, with its colon. -/
inductive Label : List Char → List Piece → Prop where
  | name {before cs after : List Char} {ps : List Piece} (hbefore : Blanks before)
      (h : Written cs ps) (hafter : Blanks after) :
      Label (before ++ ('"' :: (cs ++ '"' :: (after ++ [':'])))) ps

/-- The parts of a text. -/
inductive Part where
  | value
  /-- A value with white space around it. -/
  | element
  /-- Elements with commas between them. -/
  | elements
  /-- Members of an object with commas between them. -/
  | members

inductive Sentence : Part → List Char → Prop where
  | null : Sentence .value ['n', 'u', 'l', 'l']
  | true : Sentence .value ['t', 'r', 'u', 'e']
  | false : Sentence .value ['f', 'a', 'l', 's', 'e']
  | number {cs : List Char} (h : Number cs) : Sentence .value cs
  | string {cs : List Char} {ps : List Piece} (h : Written cs ps) :
      Sentence .value ('"' :: (cs ++ ['"']))
  | emptyArray {cs : List Char} (h : Blanks cs) : Sentence .value ('[' :: (cs ++ [']']))
  | array {cs : List Char} (h : Sentence .elements cs) : Sentence .value ('[' :: (cs ++ [']']))
  | emptyObject {cs : List Char} (h : Blanks cs) : Sentence .value ('\x7b' :: (cs ++ ['\x7d']))
  | object {cs : List Char} (h : Sentence .members cs) :
      Sentence .value ('\x7b' :: (cs ++ ['\x7d']))
  | element {before cs after : List Char} (hbefore : Blanks before) (h : Sentence .value cs)
      (hafter : Blanks after) : Sentence .element (before ++ (cs ++ after))
  | lastElement {cs : List Char} (h : Sentence .element cs) : Sentence .elements cs
  | elementThen {cs rest : List Char} (h : Sentence .element cs)
      (hrest : Sentence .elements rest) : Sentence .elements (cs ++ ',' :: rest)
  | lastMember {label cs : List Char} {ps : List Piece} (hlabel : Label label ps)
      (h : Sentence .element cs) : Sentence .members (label ++ cs)
  | memberThen {label cs rest : List Char} {ps : List Piece} (hlabel : Label label ps)
      (h : Sentence .element cs) (hrest : Sentence .members rest) :
      Sentence .members (label ++ (cs ++ ',' :: rest))

end Kernelet.Json
