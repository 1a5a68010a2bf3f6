import Artboard.Json.Basic
import Artboard.Json.Text
import Artboard.Number.Style
import Artboard.Text.Quoted

/-! # What can be wrong with a JSON text

* `SyntaxError`: the text is not JSON, or JSON beyond the limits of reading.
* `Mismatch`: the text or tree is JSON, but not what is expected at some place.
* `ReadError`: a problem with its position in the text and the way to it through the tree.

Each has its wording in one function `message`. -/

namespace Artboard.Json

/-- Reasons why a text cannot be read as JSON. -/
inductive SyntaxError
  | endInValue
  | endInList
  | endInObject
  | endInString
  | expectedColon
  | expectedListCommaOrEnd
  | expectedObjectCommaOrEnd
  | expectedIdent
  | expectedValue
  | invalidEscape
  | invalidNumber
  | numberOutOfRange
  | invalidCodePoint
  | controlCharacter
  | keyNotString
  | loneSurrogate
  | unfinishedSurrogates
  | trailingComma
  | trailingCharacters
  | tooDeep
  deriving DecidableEq, Repr

/-- The wording of a syntax error. -/
def SyntaxError.message : SyntaxError → String
  | .endInValue => "EOF while parsing a value"
  | .endInList => "EOF while parsing a list"
  | .endInObject => "EOF while parsing an object"
  | .endInString => "EOF while parsing a string"
  | .expectedColon => "expected `:`"
  | .expectedListCommaOrEnd => "expected `,` or `]`"
  | .expectedObjectCommaOrEnd => "expected `,` or `\x7d`"
  | .expectedIdent => "expected ident"
  | .expectedValue => "expected value"
  | .invalidEscape => "invalid escape"
  | .invalidNumber => "invalid number"
  | .numberOutOfRange => "number out of range"
  | .invalidCodePoint => "invalid unicode code point"
  | .controlCharacter => "control character (\\u0000-\\u001F) found while parsing a string"
  | .keyNotString => "key must be a string"
  | .loneSurrogate => "lone leading surrogate in hex escape"
  | .unfinishedSurrogates => "unexpected end of hex escape"
  | .trailingComma => "trailing comma"
  | .trailingCharacters => "trailing characters"
  | .tooDeep => "recursion limit exceeded"

/-- What was found where something else is expected: a scalar with its value, or a bracket. -/
inductive Found
  | null
  | bool (value : Bool)
  | int (value : Int)
  | float (value : Float)
  | string (value : String)
  | sequence
  | map
  deriving DecidableEq, Repr

/-- What a tree is, looked at from outside. -/
def Found.of : Json → Found
  | .null => .null
  | .bool b => .bool b
  | .int n => .int n
  | .float x => .float x
  | .string s => .string s
  | .array _ => .sequence
  | .object _ => .map

/-- A text between backquotes. -/
def ticked (s : String) : String := "`" ++ s ++ "`"

/-- The wording of what was found. -/
def Found.message : Found → String
  | .null => "null"
  | .bool b => "boolean " ++ ticked (if b then "true" else "false")
  | .int n => "integer " ++ ticked (toString n)
  | .float x => "floating point " ++ ticked (Number.Style.wire.text x)
  | .string s => "string " ++ Artboard.Text.quoted s
  | .sequence => "sequence"
  | .map => "map"

/-- Reasons why JSON is not of the expected form. -/
inductive Mismatch
  /-- A value of another type. -/
  | invalidType (found : Found) (expected : String)
  /-- A whole number outside the range. -/
  | invalidValue (value : Int) (expected : String)
  /-- A list with too few or too many items. -/
  | invalidLength (length : Nat) (expected : String)
  /-- A field that must be there. -/
  | missingField (name : String)
  /-- A known field that occurs again. -/
  | duplicateField (name : String)
  /-- A tag that names no variant. -/
  | unknownVariant (name : String) (known : List String)
  /-- A value that fits none of a type's untagged forms. -/
  | noVariant (type : String)
  /-- A string that spells no shape id. -/
  | malformedId (reason : String)
  /-- A string that should spell a tree and cannot be read; the reason has its position in it. -/
  | embedded (reason : String)
  deriving DecidableEq, Repr

/-- The mismatch with a tree of another type. -/
def Mismatch.unexpected (expected : String) (j : Json) : Mismatch := .invalidType (.of j) expected

/-- The tags that would have been understood: one by itself, several as a choice. -/
def choices : List String → String
  | [name] => ticked name
  | names => "one of " ++ ", ".intercalate (names.map ticked)

/-- The wording of a mismatch. -/
def Mismatch.message : Mismatch → String
  | .invalidType found expected => "invalid type: " ++ found.message ++ ", expected " ++ expected
  | .invalidValue n expected =>
    "invalid value: integer " ++ ticked (toString n) ++ ", expected " ++ expected
  | .invalidLength n expected => "invalid length " ++ toString n ++ ", expected " ++ expected
  | .missingField name => "missing field " ++ ticked name
  | .duplicateField name => "duplicate field " ++ ticked name
  | .unknownVariant name known =>
    "unknown variant " ++ ticked name ++ ", expected " ++ choices known
  | .noVariant type => "data did not match any variant of untagged enum " ++ type
  | .malformedId reason => "UUID parsing failed: " ++ reason
  | .embedded reason => reason

/-- Either kind of problem with a text. -/
inductive Problem
  | syntactic (error : SyntaxError)
  | mismatch (mismatch : Mismatch)
  deriving DecidableEq, Repr

/-- The wording of a problem. -/
def Problem.message : Problem → String
  | .syntactic e => e.message
  | .mismatch m => m.message

/-- One step from a tree to a part of it. -/
inductive Step
  | key (name : String)
  | index (n : Nat)
  /-- To a member whose key was not read. -/
  | unnamed
  deriving DecidableEq, Repr

/-- The text of one step; a member that is not the first step follows a dot. -/
def Step.text (first : Bool) : Step → String
  | .key name => if first then name else "." ++ name
  | .index n => "[" ++ toString n ++ "]"
  | .unnamed => if first then "?" else ".?"

/-- The text of a way through a tree. -/
def pathText : List Step → String
  | [] => ""
  | step :: rest => step.text true ++ String.join (rest.map (Step.text false))

/-- A problem with a text, its position unless it concerns the text as a whole or a text inside it,
and the way to the part of the tree in which it arose. -/
structure ReadError where
  problem : Problem
  position : Option Position
  path : List Step
  deriving DecidableEq, Repr

/-- The wording of a read error. -/
def ReadError.message (e : ReadError) : String :=
  match e.position with
  | none => e.problem.message
  | some p =>
    e.problem.message ++ " at line " ++ toString p.line ++ " column " ++ toString p.column

end Artboard.Json
