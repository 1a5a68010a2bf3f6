import Artboard.Text.Escaped

/-! # Quoted texts

A text inside a message is shown between double quotes. Quotes, backslashes and the usual control
characters have short escapes; whatever would not be seen is shown by its code in hexadecimal. -/

namespace Artboard.Text

/-- The digits of a number in hexadecimal, in lower case. -/
def hex (n : Nat) : String := String.ofList (Nat.toDigits 16 n)

/-- How one character is shown. -/
def showChar (c : Char) : String :=
  if c = '"' then "\\\""
  else if c = '\\' then "\\\\"
  else if c = '\n' then "\\n"
  else if c = '\r' then "\\r"
  else if c = '\t' then "\\t"
  else if c = '\x00' then "\\0"
  else if isEscaped c then "\\u\x7b" ++ hex c.toNat ++ "\x7d"
  else c.toString

/-- A text between double quotes. -/
def quoted (s : String) : String := "\"" ++ String.join (s.toList.map showChar) ++ "\""

end Artboard.Text
