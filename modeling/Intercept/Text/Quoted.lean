import Intercept.Text.Hex
import Intercept.Text.Hidden

set_option autoImplicit false

/-! # Quoted text

A quoted text stands between double quotes. A quote or backslash in it is preceded by a
backslash, the nul, tab, line feed and carriage return have letters of their own, and any other
hidden character is shown by its code point in hexadecimal between braces. All else stands for
itself. -/

namespace Intercept.Text

/-- How one character is written inside quotes. -/
def quoteChar (c : Char) : String :=
  if c = '"' then "\\\""
  else if c = '\\' then "\\\\"
  else if c = '\x00' then "\\0"
  else if c = '\t' then "\\t"
  else if c = '\n' then "\\n"
  else if c = '\r' then "\\r"
  else if isHidden c then "\\u\x7b" ++ hex c.toNat ++ "\x7d"
  else c.toString

/-- A text between double quotes. -/
def quoted (s : String) : String := "\"" ++ String.join (s.toList.map quoteChar) ++ "\""

end Intercept.Text
