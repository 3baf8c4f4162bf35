import Kernelet.Text.Hex
import Kernelet.Text.Printable

/-!
Text between double quotes, written so that it can be read on any terminal:
quotes, backslashes and the usual control characters have short escapes, and
any other character that is not printable is given by its code point.
-/

namespace Kernelet.Text

/-- How one character is written between double quotes. -/
def quotedChar (c : Char) : String :=
  if c = '\x00' then "\\0"
  else if c = '\t' then "\\t"
  else if c = '\r' then "\\r"
  else if c = '\n' then "\\n"
  else if c = '"' then "\\\""
  else if c = '\\' then "\\\\"
  else if isPrintable c then c.toString
  else "\\u\x7b" ++ hexDigits c.toNat ++ "\x7d"

/-- The text between double quotes. -/
def quoted (s : String) : String :=
  "\"" ++ String.join (s.toList.map quotedChar) ++ "\""

end Kernelet.Text
