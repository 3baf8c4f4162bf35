/-!
Hexadecimal text: the fewest lower-case digits, most significant first.
-/

namespace Kernelet.Text

/-- The hexadecimal digits of `n`, without a mark in front. -/
def hexDigits (n : Nat) : String :=
  String.ofList (Nat.toDigits 16 n)

/-- An address as it is shown to people: `0x` and its hexadecimal digits. -/
def hexAddress (n : Nat) : String :=
  "0x" ++ hexDigits n

end Kernelet.Text
