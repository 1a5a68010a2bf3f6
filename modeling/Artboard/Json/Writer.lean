import Artboard.Json.Basic
import Artboard.Number.Style
import Artboard.Text.Quoted

/-! # Writing JSON

* `Json.compact`: no blanks, members in the order of the tree.
* `Json.pretty`: a line for each item and member, indented by two blanks a level.

Both write strings alike: only quotes, backslashes and control characters are escaped. -/

namespace Artboard

namespace Json

/-- The four hexadecimal digits of a control character's code. -/
def hex4 (n : Nat) : String :=
  let digits := Text.hex n
  Number.zeros (4 - digits.length) ++ digits

/-- How one character stands in a string. -/
def escapeChar (c : Char) : String :=
  if c = '"' then "\\\""
  else if c = '\\' then "\\\\"
  else if c = '\x08' then "\\b"
  else if c = '\x0c' then "\\f"
  else if c = '\n' then "\\n"
  else if c = '\r' then "\\r"
  else if c = '\t' then "\\t"
  else if c.toNat < 0x20 then "\\u" ++ hex4 c.toNat
  else c.toString

/-- A string in quotes. -/
def writeString (s : String) : String :=
  "\"" ++ String.join (s.toList.map escapeChar) ++ "\""

/-- The texts of a bracketed list with a comma between them. -/
def commas : List String → String
  | [] => ""
  | [s] => s
  | s :: rest => s ++ "," ++ commas rest

mutual

/-- The text of a tree without blanks. -/
def compact : Json → String
  | .null => "null"
  | .bool b => if b then "true" else "false"
  | .int n => toString n
  | .float x => Number.Style.wire.text x
  | .string s => writeString s
  | .array items => "[" ++ commas (compactItems items) ++ "]"
  | .object members => "\x7b" ++ commas (compactMembers members) ++ "\x7d"

/-- The texts of a list of trees. -/
def compactItems : List Json → List String
  | [] => []
  | j :: rest => j.compact :: compactItems rest

/-- The texts of members, `key:value`. -/
def compactMembers : List (String × Json) → List String
  | [] => []
  | (key, j) :: rest => (writeString key ++ ":" ++ j.compact) :: compactMembers rest

end

/-- A line break and the blanks of a level. -/
def lineBreak (level : Nat) : String :=
  "\n" ++ String.ofList (List.replicate (2 * level) ' ')

/-- Entries a line each between brackets; without entries the brackets touch. -/
def block (level : Nat) (opening closing : String) : List String → String
  | [] => opening ++ closing
  | entries =>
    opening ++ lineBreak (level + 1) ++ ("," ++ lineBreak (level + 1)).intercalate entries
      ++ lineBreak level ++ closing

mutual

/-- The text of a tree over several lines, from a level of indentation. -/
def prettyAt (level : Nat) : Json → String
  | .array items => block level "[" "]" (prettyItems (level + 1) items)
  | .object members => block level "\x7b" "\x7d" (prettyMembers (level + 1) members)
  | .null => compact .null
  | .bool b => compact (.bool b)
  | .int n => compact (.int n)
  | .float x => compact (.float x)
  | .string s => compact (.string s)

/-- The texts of a list of trees at a level. -/
def prettyItems (level : Nat) : List Json → List String
  | [] => []
  | j :: rest => j.prettyAt level :: prettyItems level rest

/-- The texts of members at a level, `key: value`. -/
def prettyMembers (level : Nat) : List (String × Json) → List String
  | [] => []
  | (key, j) :: rest => (writeString key ++ ": " ++ j.prettyAt level) :: prettyMembers level rest

end

/-- The text of a tree over several lines. -/
def pretty (j : Json) : String := j.prettyAt 0

end Json

end Artboard
