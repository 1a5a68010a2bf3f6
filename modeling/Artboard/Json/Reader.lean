import Artboard.Json.Problem
import Artboard.Number.Scaled

/-! # Reading JSON from a text

A reader takes a text and gives what it read with the rest of the text. Where it fails, the failure
says how many bytes were left, which fixes the position.

* `keyword`, `stringBody`, `number`: the scalars, at the glyph where they begin.
* `items`, `members`: the insides of brackets, for any reader of a single item or value.
* `inList`, `inObject`: brackets around a body; a failure of the body that has no position yet gets
  the position after the bracket was closed as far as possible.
* `complete`: a reader for a whole text. -/

namespace Artboard.Json

/-- Where reading failed. -/
inductive Place
  /-- At the point where so many bytes were left. -/
  | left (bytes : Nat)
  /-- In something that was read up to this rest; the bracket around it fixes the position. -/
  | before (rest : Text)
  /-- Not in this text. -/
  | elsewhere
  deriving DecidableEq, Repr

/-- A failure while reading. -/
structure Failure where
  problem : Problem
  place : Place
  path : List Step
  deriving DecidableEq, Repr

/-- Reads something from the front of a text. -/
abbrev Reader (α : Type) := Text → Except Failure (α × Text)

/-- A syntax error at the front of a text. -/
def failAt {α : Type} (e : SyntaxError) (text : Text) : Except Failure α :=
  .error ⟨.syntactic e, .left text.size, []⟩

/-- A syntax error that counts the byte at the front of a text, if there is one. -/
def failOn {α : Type} (e : SyntaxError) (text : Text) : Except Failure α :=
  .error ⟨.syntactic e, .left (text.size - 1), []⟩

/-- A mismatch with a position: the front of a text. -/
def mismatchAt {α : Type} (m : Mismatch) (text : Text) : Except Failure α :=
  .error ⟨.mismatch m, .left text.size, []⟩

/-- A mismatch that has its position in another text. -/
def mismatchElsewhere {α : Type} (m : Mismatch) : Except Failure α :=
  .error ⟨.mismatch m, .elsewhere, []⟩

/-- A mismatch without a position, noticed with this much of the text to go. -/
def mismatchBefore {α : Type} (m : Mismatch) (rest : Text) : Except Failure α :=
  .error ⟨.mismatch m, .before rest, []⟩

/-- The failure as seen from one step farther out. -/
def Failure.under (step : Step) (f : Failure) : Failure := { f with path := step :: f.path }

/-- Fixes the position of a failure that has none, after `close` took what it can. -/
def Failure.settle (close : Text → Text) (f : Failure) : Failure :=
  match f.place with
  | .left _ | .elsewhere => f
  | .before rest => { f with place := .left (close rest).size }

/-! ### Scalars -/

/-- The rest of a keyword. -/
def keyword : List Char → Text → Except Failure Text
  | [], text => .ok text
  | _ :: _, [] => failAt .endInValue []
  | c :: word, g :: rest =>
    if g = .char c then keyword word rest else failOn .expectedIdent (g :: rest)

/-- The value of a hexadecimal digit. -/
def hexDigit? : Glyph → Option Nat
  | .stray _ => none
  | .char c =>
    if '0' ≤ c ∧ c ≤ '9' then some (c.toNat - '0'.toNat)
    else if 'a' ≤ c ∧ c ≤ 'f' then some (c.toNat - 'a'.toNat + 10)
    else if 'A' ≤ c ∧ c ≤ 'F' then some (c.toNat - 'A'.toNat + 10)
    else none

/-- The number of four hexadecimal digits. -/
def fourDigits? : Text → Option (Nat × Text)
  | a :: b :: c :: d :: rest => do
    let a ← hexDigit? a
    let b ← hexDigit? b
    let c ← hexDigit? c
    let d ← hexDigit? d
    return (((a * 16 + b) * 16 + c) * 16 + d, rest)
  | _ => none

/-- The number in the four bytes of a `\u` escape. -/
def codeUnit : Reader Nat := fun text =>
  match fourDigits? text with
  | some unit => .ok unit
  | none =>
    if text.size < 4 then failAt .endInString []
    else .error ⟨.syntactic .invalidEscape, .left (text.size - 4), []⟩

/-- The second half of a surrogate pair: `\u` and a trailing surrogate. -/
def trailingUnit (leading : Nat) : Reader Char
  | [] => failAt .endInString []
  | .char '\\' :: [] => failAt .endInString []
  | .char '\\' :: .char 'u' :: rest => do
    let (unit, rest) ← codeUnit rest
    if 0xdc00 ≤ unit ∧ unit ≤ 0xdfff then
      .ok (Char.ofNat (0x10000 + (leading - 0xd800) * 0x400 + (unit - 0xdc00)), rest)
    else failAt .loneSurrogate rest
  | .char '\\' :: rest => failOn .unfinishedSurrogates rest
  | rest => failOn .unfinishedSurrogates rest

/-- The character of a `\u` escape. -/
def codePoint : Reader Char := fun text => do
  let (unit, rest) ← codeUnit text
  if 0xdc00 ≤ unit ∧ unit ≤ 0xdfff then failAt .loneSurrogate rest
  else if 0xd800 ≤ unit ∧ unit ≤ 0xdbff then trailingUnit unit rest
  else .ok (Char.ofNat unit, rest)

/-- The character that one letter after a backslash stands for. -/
def shortEscape? : Glyph → Option Char
  | .char '"' => some '"'
  | .char '\\' => some '\\'
  | .char '/' => some '/'
  | .char 'b' => some '\x08'
  | .char 'f' => some '\x0c'
  | .char 'n' => some '\n'
  | .char 'r' => some '\r'
  | .char 't' => some '\t'
  | _ => none

/-- The character of an escape, after its backslash. -/
def escape : Reader Char
  | [] => failAt .endInString []
  | .char 'u' :: rest => codePoint rest
  | g :: rest =>
    match shortEscape? g with
    | some c => .ok (c, rest)
    | none => failOn .invalidEscape (g :: rest)

/-- Whether a glyph may not stand in a string. -/
def isControl : Glyph → Bool
  | .char c => c.toNat < 0x20
  | .stray _ => false

/-- A string after its opening quote, with the characters read so far in reverse and, once a byte
was met that belongs to no character, the number of bytes read from there on, an escape for those of
its character. Such a string is refused when its closing quote is there, at the place so many bytes
before the quote. The steps bound the glyphs to come. -/
def stringFrom : Nat → List Char → Option Nat → Reader String
  | 0, _, _, text => failAt .endInString text
  | _, _, _, [] => failAt .endInString []
  | steps + 1, done, invalid, g :: rest =>
    if g = .char '"' then
      match invalid with
      | none => .ok (String.ofList done.reverse, rest)
      | some n => .error ⟨.syntactic .invalidCodePoint, .left (Text.size (g :: rest) + n - 1), []⟩
    else if g = .char '\\' then
      match escape rest with
      | .ok (c, rest) => stringFrom steps (c :: done) (invalid.map (· + c.utf8Size)) rest
      | .error f => .error f
    else if isControl g then failOn .controlCharacter (g :: rest)
    else match g with
      | .char c => stringFrom steps (c :: done) (invalid.map (· + c.utf8Size)) rest
      | .stray _ => stringFrom steps done (some (invalid.getD 0 + 1)) rest

/-- A string after its opening quote. -/
def stringBody : Reader String := fun text => stringFrom (text.length + 1) [] none text

/-- The digit at the front of a text. -/
def digitAt? : Text → Option Char
  | .char c :: _ => if Number.isDigit c then some c else none
  | _ => none

/-- The digits at the front of a text. -/
def digits : Text → List Char × Text
  | .char c :: rest =>
    if Number.isDigit c then
      let (cs, rest) := digits rest
      (c :: cs, rest)
    else ([], .char c :: rest)
  | text => ([], text)

/-- The digits before point and exponent: `0` alone or digits that do not begin with it. -/
def wholePart : Reader (List Char)
  | [] => failAt .endInValue []
  | .char '0' :: rest =>
    if (digitAt? rest).isSome then failOn .invalidNumber rest else .ok (['0'], rest)
  | text =>
    match digits text with
    | ([], _) => failOn .invalidNumber text
    | read => .ok read

/-- The digits after a point, none without a point. -/
def fractionPart : Reader (List Char)
  | .char '.' :: rest =>
    match digits rest with
    | ([], []) => failAt .endInValue []
    | ([], more) => failOn .invalidNumber more
    | read => .ok read
  | text => .ok ([], text)

/-- The greatest exponent that is read on; a greater one is refused or makes the number zero. -/
def exponentLimit : Nat := 2147483647

/-- The text left when digits read from the front first exceed the limit of exponents. -/
def pastLimit (n : Nat) : Text → Option Text
  | .char c :: rest =>
    match Number.digit? c with
    | some d => if exponentLimit < 10 * n + d then some rest else pastLimit (10 * n + d) rest
    | none => none
  | _ => none

/-- The digits of an exponent after its sign. A number that is not zero is refused at the digit that
makes its exponent greater than the limit. -/
def exponentDigits (negative zero : Bool) : Reader Int := fun text =>
  match text, digits text with
  | [], _ => failAt .endInValue []
  | _, ([], _) => failOn .invalidNumber text
  | _, (cs, rest) =>
    match pastLimit 0 text with
    | some past =>
      if !zero && !negative then failAt .numberOutOfRange past
      else .ok (if negative then -(exponentLimit : Int) else 0, rest)
    | none =>
      let n : Int := Number.ofDigits 0 cs
      .ok (if negative then -n else n, rest)

/-- The exponent of a number, if it has one. -/
def exponentPart (zero : Bool) : Reader (Option Int)
  | .char c :: rest =>
    if c = 'e' ∨ c = 'E' then do
      let (negative, rest) := match rest with
        | .char '-' :: rest => (true, rest)
        | .char '+' :: rest => (false, rest)
        | rest => (false, rest)
      let (e, rest) ← exponentDigits negative zero rest
      return (some e, rest)
    else .ok (none, .char c :: rest)
  | text => .ok (none, text)

/-- The tree of a whole number: `int` if it has 64 bits, else a `float`. A negative zero is a
`float`. -/
def ofWhole (negative : Bool) (digits : List Char) : Json :=
  let n := Number.ofDigits 0 digits
  if negative then
    if 0 < n ∧ n ≤ Nat.pow 2 63 then .int (-(n : Int))
    else .float (Number.scaled true (Number.cut digits []))
  else
    if n < Nat.pow 2 64 then .int n else .float (Number.scaled false (Number.cut digits []))

/-- A number after its sign. -/
def unsignedNumber (negative : Bool) : Reader Json := fun text => do
  let (whole, rest) ← wholePart text
  let (fraction, rest) ← fractionPart rest
  let d := Number.cut whole fraction
  let (exponent, rest) ← exponentPart (d.digits = 0) rest
  let number :=
    if fraction = [] ∧ exponent = none then ofWhole negative whole
    else .float (Number.scaled negative ⟨d.digits, d.exponent + exponent.getD 0⟩)
  match number with
  | .float x => if x.isFinite then .ok (number, rest) else failAt .numberOutOfRange rest
  | _ => .ok (number, rest)

/-- A number. -/
def number : Reader Json
  | .char '-' :: rest => unsignedNumber true rest
  | text => unsignedNumber false text

/-- A value that is no bracket, at its first glyph. -/
def scalar : Reader Json
  | .char 'n' :: rest => (keyword ['u', 'l', 'l'] rest).map (Json.null, ·)
  | .char 't' :: rest => (keyword ['r', 'u', 'e'] rest).map (Json.bool true, ·)
  | .char 'f' :: rest => (keyword ['a', 'l', 's', 'e'] rest).map (Json.bool false, ·)
  | .char '"' :: rest => (stringBody rest).map fun (s, rest) => (.string s, rest)
  | .char '-' :: rest => number (.char '-' :: rest)
  | [] => failOn .endInValue []
  | text => if (digitAt? text).isSome then number text else failOn .expectedValue text

/-- A value without brackets that is accepted. A scalar that is not accepted is read first and the
position is behind it; a bracket is refused where it stands. -/
def scalarAs {α : Type} (expected : String) (accept : Json → Except Mismatch α) : Reader α :=
  fun text =>
    match text.skipBlank with
    | .char '[' :: rest => mismatchAt (.invalidType .sequence expected) (.char '[' :: rest)
    | .char '\x7b' :: rest => mismatchAt (.invalidType .map expected) (.char '\x7b' :: rest)
    | more =>
      match scalar more with
      | .error f => .error f
      | .ok (j, rest) =>
        match accept j with
        | .ok a => .ok (a, rest)
        | .error m => mismatchAt m rest

/-! ### Brackets -/

/-- Whether values are read to keep them or passed over. The two differ in the name for a closing
bracket, or the end of the text, after a comma. -/
inductive Pass
  | keep
  | skip
  deriving DecidableEq, Repr

/-- The error at a `]` after a comma. -/
def Pass.listClosed : Pass → SyntaxError
  | .keep => .trailingComma
  | .skip => .expectedValue

/-- The error at a closing brace after a comma. -/
def Pass.objectClosed : Pass → SyntaxError
  | .keep => .trailingComma
  | .skip => .keyNotString

/-- The error at the end of the text after a comma between members. -/
def Pass.objectEnded : Pass → SyntaxError
  | .keep => .endInValue
  | .skip => .endInObject

/-- What comes next inside brackets. -/
inductive Next
  /-- The closing bracket. -/
  | close
  /-- Another entry. -/
  | entry
  deriving DecidableEq, Repr

/-- Looks for an item of a list, `first` right after the opening bracket. -/
def nextItem (pass : Pass) (first : Bool) : Reader Next := fun text =>
  match text.skipBlank with
  | [] => failOn .endInList []
  | .char ']' :: rest => .ok (.close, .char ']' :: rest)
  | g :: rest =>
    if first then .ok (.entry, g :: rest)
    else if g = .char ',' then
      match Text.skipBlank rest with
      | [] => failOn .endInValue []
      | .char ']' :: rest => failOn pass.listClosed (.char ']' :: rest)
      | more => .ok (.entry, more)
    else failOn .expectedListCommaOrEnd (g :: rest)

/-- Looks for the quote that begins a member of an object and goes past it. -/
def nextMember (pass : Pass) (first : Bool) : Reader Next := fun text =>
  match text.skipBlank with
  | [] => failOn .endInObject []
  | .char '\x7d' :: rest => .ok (.close, .char '\x7d' :: rest)
  | g :: rest =>
    if first then
      if g = .char '"' then .ok (.entry, rest) else failOn .keyNotString (g :: rest)
    else if g = .char ',' then
      match Text.skipBlank rest with
      | [] => failOn pass.objectEnded []
      | .char '"' :: rest => .ok (.entry, rest)
      | .char '\x7d' :: rest => failOn pass.objectClosed (.char '\x7d' :: rest)
      | more => failOn .keyNotString more
    else failOn .expectedObjectCommaOrEnd (g :: rest)

/-- The colon between key and value. -/
def colon (text : Text) : Except Failure Text :=
  match text.skipBlank with
  | [] => failOn .endInObject []
  | .char ':' :: rest => .ok rest
  | more => failOn .expectedColon more

/-- The items of a list up to its closing bracket. The steps bound the items. -/
def itemsFrom {α : Type} (pass : Pass) (item : Reader α) : Nat → Nat → Reader (List α)
  | 0, _, text => failAt .endInList text
  | steps + 1, index, text =>
    match nextItem pass (index = 0) text with
    | .error f => .error f
    | .ok (.close, rest) => .ok ([], rest)
    | .ok (.entry, rest) =>
      match item rest with
      | .error f => .error (f.under (.index index))
      | .ok (a, rest) =>
        match itemsFrom pass item steps (index + 1) rest with
        | .error f => .error f
        | .ok (as, rest) => .ok (a :: as, rest)

/-- The items of a list up to its closing bracket. -/
def items {α : Type} (pass : Pass) (item : Reader α) : Reader (List α) :=
  fun text => itemsFrom pass item (text.length + 1) 0 text

/-- The members of an object up to its closing bracket, each worked into a state. After a key,
`value` refuses the key or gives the reader of its value. A failure before the key is known concerns
an unnamed member, one at the colon the object. The steps bound the members. -/
def membersFrom {κ σ : Type} (pass : Pass) (key : Reader κ) (step : κ → Step)
    (value : κ → σ → Except Mismatch (Reader σ)) : Nat → Bool → σ → Reader σ
  | 0, _, _, text => failAt .endInObject text
  | steps + 1, first, state, text =>
    match nextMember pass first text with
    | .error f => .error (f.under .unnamed)
    | .ok (.close, rest) => .ok (state, rest)
    | .ok (.entry, rest) =>
      match key rest with
      | .error f => .error (f.under .unnamed)
      | .ok (k, rest) =>
        match value k state with
        | .error m => mismatchBefore m rest
        | .ok reader =>
          match colon rest with
          | .error f => .error f
          | .ok rest =>
            match reader rest with
            | .error f => .error (f.under (step k))
            | .ok (state, rest) => membersFrom pass key step value steps false state rest

/-- The members of an object that is kept. -/
def members {σ : Type} (value : String → σ → Except Mismatch (Reader σ)) (state : σ) : Reader σ :=
  fun text =>
    membersFrom .keep stringBody .key value (text.length + 1) true state text

/-- The closing bracket of a list. -/
def closeList (text : Text) : Except Failure Text :=
  match text.skipBlank with
  | [] => failOn .endInList []
  | .char ']' :: rest => .ok rest
  | .char ',' :: rest =>
    match Text.skipBlank rest with
    | .char ']' :: rest => failOn .trailingComma (.char ']' :: rest)
    | more => failOn .trailingCharacters more
  | more => failOn .trailingCharacters more

/-- The closing bracket of an object. -/
def closeObject (text : Text) : Except Failure Text :=
  match text.skipBlank with
  | [] => failOn .endInObject []
  | .char '\x7d' :: rest => .ok rest
  | .char ',' :: rest => failOn .trailingComma (.char ',' :: rest)
  | more => failOn .trailingCharacters more

/-- What closing a list takes from a text: the bracket, or a comma and the blanks after it. -/
def afterList (text : Text) : Text :=
  match text.skipBlank with
  | .char ']' :: rest => rest
  | .char ',' :: rest => Text.skipBlank rest
  | more => more

/-- What closing an object takes from a text: the bracket. -/
def afterObject (text : Text) : Text :=
  match text.skipBlank with
  | .char '\x7d' :: rest => rest
  | more => more

/-- A body between brackets, at the opening one. There is no body where no more brackets may be
opened inside one another. -/
def enclosed {α : Type} (close : Text → Except Failure Text) (after : Text → Text) :
    Option (Reader α) → Reader α
  | none, text => failOn .tooDeep text
  | some body, text =>
    match body (text.drop 1) with
    | .error f => .error (f.settle after)
    | .ok (a, rest) =>
      match close rest with
      | .error f => .error f
      | .ok rest => .ok (a, rest)

/-- A list around a body. -/
def inList {α : Type} : Option (Reader α) → Reader α := enclosed closeList afterList

/-- An object around a body. -/
def inObject {α : Type} : Option (Reader α) → Reader α := enclosed closeObject afterObject

/-- The reader one level of brackets further in. -/
def within {α : Type} (reader : Nat → Reader α) : Nat → Option (Reader α)
  | 0 => none
  | depth + 1 => some (reader depth)

/-! ### Whole texts -/

/-- The number of brackets that may be open inside one another. -/
def depthLimit : Nat := 127

/-- The failure as an error about a whole text. -/
def Failure.toError (whole : Text) (f : Failure) : ReadError :=
  let position := match f.place with
    | .left bytes => some (whole.position (whole.size - bytes))
    | .before _ | .elsewhere => none
  ⟨f.problem, position, f.path⟩

/-- Reads a whole text: nothing but blanks may follow. -/
def complete {α : Type} (reader : Nat → Reader α) (text : Text) : Except ReadError α :=
  match reader depthLimit text with
  | .error f => .error (f.toError text)
  | .ok (a, rest) =>
    match rest.skipBlank with
    | [] => .ok a
    | more => .error (Failure.toError text
        ⟨.syntactic .trailingCharacters, .left (Text.size more - 1), []⟩)

end Artboard.Json
