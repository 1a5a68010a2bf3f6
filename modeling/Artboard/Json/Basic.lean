/-! # JSON trees

A tree keeps an object's members in the order in which they were written, repeated keys included.

* `Json.canonical`: the tree as a dictionary reading gives it, with sorted keys and the last of
  repeated members, at every level.
* `Json.member?`: the value that a key has in an object. -/

namespace Artboard

/-- A JSON tree. Whole numbers of 64 bits are `int`, all other numbers `float`. -/
inductive Json
  | null
  | bool (value : Bool)
  | int (value : Int)
  | float (value : Float)
  | string (value : String)
  | array (items : List Json)
  | object (members : List (String × Json))
  deriving Inhabited, Repr

namespace Json

/-- Puts a member in front of the first key that is greater. -/
def insertMember (key : String) (value : Json) :
    List (String × Json) → List (String × Json)
  | [] => [(key, value)]
  | (k, v) :: rest =>
    if key < k then (key, value) :: (k, v) :: rest else (k, v) :: insertMember key value rest

/-- Whether a key occurs among the members. -/
def hasKey (key : String) (members : List (String × Json)) : Bool :=
  members.any fun (k, _) => k = key

mutual

/-- The tree with sorted keys, where the last of several members with one key stands for all. -/
def canonical : Json → Json
  | .array items => .array (canonicalItems items)
  | .object members => .object (canonicalMembers members)
  | .null => .null
  | .bool b => .bool b
  | .int n => .int n
  | .float x => .float x
  | .string s => .string s

/-- The canonical trees of a list. -/
def canonicalItems : List Json → List Json
  | [] => []
  | j :: rest => j.canonical :: canonicalItems rest

/-- The members sorted by key; one that is repeated later is dropped. -/
def canonicalMembers : List (String × Json) → List (String × Json)
  | [] => []
  | (key, value) :: rest =>
    let later := canonicalMembers rest
    if hasKey key later then later else insertMember key value.canonical later

end

/-- The value of the last member with a key. -/
def lookup (key : String) (members : List (String × Json)) : Option Json :=
  (members.reverse.find? fun (k, _) => k = key).map Prod.snd

/-- The value that a key has in an object; other trees have no keys. -/
def member? (key : String) : Json → Option Json
  | .object members => lookup key members
  | _ => none

/-- The text of a string tree. -/
def string? : Json → Option String
  | .string s => some s
  | _ => none

/-- A number as a tree: one that is not finite has no JSON form and is written `null`. -/
def ofFloat (x : Float) : Json := if x.isFinite then .float x else .null

/-- A value that may be absent, as a tree. -/
def ofOption {α : Type} (toJson : α → Json) : Option α → Json
  | none => .null
  | some a => toJson a

/-- A member that is left out when its value is absent. -/
def ifPresent {α : Type} (key : String) (toJson : α → Json) : Option α → List (String × Json)
  | none => []
  | some a => [(key, toJson a)]

/-- A list member that is left out when the list is empty. -/
def ifNonempty {α : Type} (key : String) (toJson : α → Json) : List α → List (String × Json)
  | [] => []
  | items => [(key, .array (items.map toJson))]

end Json

end Artboard
