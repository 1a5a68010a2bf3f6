import Artboard.Json.Decoder

/-! # Shape ids

A shape is named by a number. It is written as hexadecimal digits in five groups, which for numbers
of 128 bits is the usual form of a universally unique identifier.

* `ShapeId.text`: the written form.
* `ShapeId.parse?`: reads the written form and the other accepted spellings.
* `IdSupply`: an endless supply of ids without repetition. -/

namespace Artboard

/-- The id of a shape. -/
structure ShapeId where
  number : Nat
  deriving DecidableEq, Repr, Inhabited

/-- Ids one after another, never the same twice. -/
structure IdSupply where
  id : Nat → ShapeId
  distinct : ∀ m n, id m = id n → m = n

/-- The ids that follow a number. -/
def IdSupply.from (start : Nat) : IdSupply where
  id n := ⟨start + n⟩
  distinct _ _ h := Nat.add_left_cancel (ShapeId.mk.inj h)

namespace ShapeId

/-- The hexadecimal digits of an id, at least 32 of them. -/
def hexDigits (id : ShapeId) : List Char :=
  let digits := Nat.toDigits 16 id.number
  List.replicate (32 - digits.length) '0' ++ digits

/-- Digits in groups of eight, four, four, four and the rest. -/
def grouped (digits : List Char) : List Char :=
  digits.take 8 ++ '-' :: (digits.drop 8).take 4 ++ '-' :: (digits.drop 12).take 4
    ++ '-' :: (digits.drop 16).take 4 ++ '-' :: digits.drop 20

/-- The written form of an id. -/
def text (id : ShapeId) : String := String.ofList (grouped id.hexDigits)

instance : ToString ShapeId := ⟨text⟩

/-! ### Reading -/

/-- The value of a hexadecimal digit. -/
def hexValue? (c : Char) : Option Nat := Json.hexDigit? (.char c)

/-- The number of a string of hexadecimal digits. -/
def ofHex (cs : List Char) : Nat := cs.foldl (fun n c => 16 * n + (hexValue? c).getD 0) 0

/-- The spelling that a text is meant to have: digits alone, or the written form, perhaps in braces
or behind a scheme, with the characters of the form. A place in the form counts the bytes from the
beginning of the whole text, so `before` bytes more than in the form; a form of the right size is
counted alone, and `before` is zero. -/
inductive Spelling
  | plain (cs : List Char)
  | grouped (cs : List Char) (before : Nat)
  deriving DecidableEq, Repr

/-- The number of bytes of the written form. -/
def formSize : Nat := 36

/-- The scheme before an id, in lower case. -/
def scheme : List Char := "urn:uuid:".toList

/-- The written form behind so many bytes of a text. -/
def Spelling.behind (opening : Nat) (cs : List Char) : Spelling :=
  .grouped cs (if (String.ofList cs).utf8ByteSize = formSize then 0 else opening)

/-- The spelling of a text. A text as long as the written form is taken for it as a whole; the
letters of the scheme may be of either case. -/
def spelling (s : String) : Spelling :=
  let cs := s.toList
  if s.utf8ByteSize = formSize then .grouped cs 0
  else if 2 ≤ cs.length ∧ cs.head? = some '\x7b' ∧ cs.getLast? = some '\x7d' then
    .behind 1 cs.tail.dropLast
  else if (cs.take scheme.length).map Char.toLower = scheme then
    .behind scheme.length (cs.drop scheme.length)
  else .plain cs

/-- Where the groups of the written form begin. -/
def groupStarts : List Nat := [0, 9, 14, 19, 24]

/-- Whether a character is a hexadecimal digit. -/
def isHex (c : Char) : Bool := (hexValue? c).isSome

/-- Whether characters are digits with hyphens between the groups. -/
def isGrouped (cs : List Char) : Bool :=
  cs.length = formSize &&
    cs.zipIdx.all fun (c, i) => if i + 1 ∈ groupStarts then c = '-' else isHex c

/-- The id that a text spells: 32 digits, the written form, the written form in braces, or behind
its scheme. -/
def parse? (s : String) : Option ShapeId :=
  match spelling s with
  | .plain cs => if cs.length = 32 ∧ cs.all isHex then some ⟨ofHex cs⟩ else none
  | .grouped cs _ => if isGrouped cs then some ⟨ofHex (cs.filter (· ≠ '-'))⟩ else none

/-- Reasons why a text spells no id. -/
inductive Malformed
  /-- A character that is no digit and no hyphen, behind so many bytes. -/
  | character (c : Char) (place : Nat)
  /-- Digits only, but not 32 of them, or more bytes than any spelling has. -/
  | length (found : Nat)
  /-- Not five groups. -/
  | groupCount (found : Nat)
  /-- A group with too few or too many digits. -/
  | groupLength (group expected found : Nat)
  deriving DecidableEq, Repr

/-- The wording of a reason. -/
def Malformed.message : Malformed → String
  | .character c place =>
    "invalid character: found `" ++ c.toString ++ "` at " ++ toString place
  | .length found => "invalid length: found " ++ toString found
  | .groupCount found => "invalid group count: expected 5, found " ++ toString found
  | .groupLength group expected found =>
    "invalid group length in group " ++ toString group ++ ": expected " ++ toString expected
      ++ ", found " ++ toString found

/-- The first character that stands in no id, with the bytes before it, from `before` on. -/
def strangeChar (before : Nat) : List Char → Option Malformed
  | [] => none
  | c :: rest =>
    if c = '-' ∨ isHex c then strangeChar (before + c.utf8Size) rest
    else some (.character c before)

/-- The lengths of the groups between hyphens. -/
def groupLengths (cs : List Char) : List Nat := (cs.splitOn '-').map List.length

/-- The first group that has not the expected length; the last is measured to the end of the whole
text. -/
def wrongGroup (total : Nat) (lengths : List Nat) : Malformed :=
  let expected := [8, 4, 4, 4]
  match ((lengths.zip expected).zipIdx).find? fun ((n, m), _) => n ≠ m with
  | some ((found, expected), group) => .groupLength group expected found
  | none => .groupLength 4 12 (total - 24)

/-- The number of bytes of the longest spelling, the written form behind its scheme. -/
def longest : Nat := scheme.length + formSize

/-- Why digits and hyphens in a text of `total` bytes are not five groups of the right lengths. -/
def malformedGroups (total : Nat) (cs : List Char) : Malformed :=
  let lengths := groupLengths cs
  if lengths.length ≠ 5 then .groupCount lengths.length else wrongGroup total lengths

/-- Why a text spells no id. -/
def malformed (s : String) : Malformed :=
  let total := s.utf8ByteSize
  if longest < total then .length total
  else match spelling s with
    | .plain cs =>
      (strangeChar 0 cs).getD (if '-' ∈ cs then malformedGroups total cs else .length total)
    | .grouped cs before => (strangeChar before cs).getD (malformedGroups total cs)

/-- An id, written as a string. -/
def decoder : Json.Decoder ShapeId :=
  let expected := "a formatted UUID string"
  .scalar expected fun
    | .string s =>
      match parse? s with
      | some id => .ok id
      | none => .error (.malformedId (malformed s).message)
    | j => .error (Json.Mismatch.unexpected expected j)

/-- The tree of an id. -/
def toJson (id : ShapeId) : Json := .string id.text

end ShapeId

end Artboard
