import Artboard.Json.Reader

/-! # Reading trees

A tree is read as it is written, or with its embedded texts opened: an object that begins with the
key `embeddedKey` stands for the tree that its value, a string, spells.

* `written`: any JSON value as it is written, with at most so many brackets inside one another.
* `tree`, `parse`: a value and a whole text with embedded texts opened.
* `Json.opened`: a tree that was read before with embedded texts opened. -/

namespace Artboard.Json

/-- Any value, given how the inside of an object is read and a reader for values inside brackets. -/
def treeWith (object : Reader Json → Reader Json) (inner : Option (Reader Json)) : Reader Json :=
  fun text =>
    match text.skipBlank with
    | .char '[' :: rest =>
      (inList (inner.map fun item => items .keep item) (.char '[' :: rest)).map
        fun (js, rest) => (.array js, rest)
    | .char '\x7b' :: rest => inObject (inner.map object) (.char '\x7b' :: rest)
    | more => scalar more

/-- Any value with at most so many brackets inside one another. -/
def treeOf (object : Reader Json → Reader Json) : Nat → Reader Json
  | 0 => treeWith object none
  | depth + 1 => treeWith object (some (treeOf object depth))

/-- The members of an object in the order in which they are written. -/
def writtenMembers (value : Reader Json) : Reader Json := fun text =>
  (members
    (fun key done => .ok fun text => (value text).map fun (j, rest) => ((key, j) :: done, rest))
    [] text).map fun (ms, rest) => (.object ms.reverse, rest)

/-- Any value as it is written. -/
def written : Nat → Reader Json := treeOf writtenMembers

/-! ### Embedded texts -/

/-- The key of an object that stands for the tree which its value spells. -/
def embeddedKey : String := "$serde_json::private::RawValue"

/-- What the value of the reserved key is expected to be. -/
def embeddedName : String := "raw value"

/-- The embedded text in the value of the reserved key. -/
def embeddedText : Json → Except Mismatch String
  | .string s => .ok s
  | j => .error (.unexpected embeddedName j)

/-- What follows the reserved key, if an object begins with it. -/
def embedded? (text : Text) : Option Text :=
  match nextMember .keep true text with
  | .ok (.entry, rest) =>
    match stringBody rest with
    | .ok (key, rest) => if key = embeddedKey then some rest else none
    | .error _ => none
  | _ => none

/-- The tree of an embedded text, from behind the reserved key. No other member may follow. -/
def openEmbedded (parse : String → Except ReadError Json) : Reader Json := fun text =>
  match colon text with
  | .error f => .error f
  | .ok rest =>
    match scalarAs embeddedName embeddedText rest with
    | .error f => .error (f.under (.key embeddedKey))
    | .ok (s, rest) =>
      match parse s with
      | .ok j => .ok (j, rest)
      | .error e => mismatchElsewhere (.embedded e.message)

/-- The inside of an object that may stand for an embedded text. -/
def openMembers (parse : String → Except ReadError Json) (value : Reader Json) : Reader Json :=
  fun text =>
    match embedded? text with
    | some rest => openEmbedded parse rest
    | none => writtenMembers value text

/-- The tree of a whole text in which texts are embedded in one another so many levels deep. -/
def parseWithin : Nat → Text → Except ReadError Json
  | 0, text => complete written text
  | levels + 1, text =>
    complete (treeOf (openMembers fun s => parseWithin levels (Text.ofString s))) text

/-- Any value with embedded texts opened. An embedded text is shorter than the one around it, so the
length bounds the levels. -/
def tree (depth : Nat) : Reader Json := fun text =>
  treeOf (openMembers fun s => parseWithin text.length (Text.ofString s)) depth text

/-- The tree of a whole text with embedded texts opened. -/
def parse (text : Text) : Except ReadError Json := complete tree text

/-- The value of the reserved key and the number of members, if the members begin with it. -/
def embeddedIn? : List (String × Json) → Option (Json × Nat)
  | [] => none
  | (key, j) :: rest => if key = embeddedKey then some (j, rest.length + 1) else none

/-- The tree that a value of the reserved key among so many members stands for. -/
def openValue (j : Json) (length : Nat) : Except Mismatch Json :=
  match embeddedText j with
  | .error m => .error m
  | .ok s =>
    match parse (Text.ofString s) with
    | .error e => .error (.embedded e.message)
    | .ok tree =>
      if length = 1 then .ok tree.canonical
      else .error (.invalidLength length "fewer elements in map")

mutual

/-- A canonical tree with embedded texts opened. What is opened is not looked at again. -/
def opened : Json → Except Mismatch Json
  | .array items => (openedItems items).map .array
  | .object members =>
    match embeddedIn? members with
    | some (j, length) => openValue j length
    | none => (openedMembers members).map .object
  | .null => .ok .null
  | .bool b => .ok (.bool b)
  | .int n => .ok (.int n)
  | .float x => .ok (.float x)
  | .string s => .ok (.string s)

/-- The items of a list with embedded texts opened. -/
def openedItems : List Json → Except Mismatch (List Json)
  | [] => .ok []
  | j :: rest => do
    let j ← j.opened
    let rest ← openedItems rest
    return j :: rest

/-- The members of an object with embedded texts opened in their values. -/
def openedMembers : List (String × Json) → Except Mismatch (List (String × Json))
  | [] => .ok []
  | (key, j) :: rest => do
    let j ← j.opened
    let rest ← openedMembers rest
    return (key, j) :: rest

end

end Artboard.Json
