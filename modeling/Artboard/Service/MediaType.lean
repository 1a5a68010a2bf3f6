/-! # Media types

* `MediaType.parse?`: a content type header, `type/subtype+suffix` with parameters.
* `MediaType.isJson`: whether the header announces JSON. -/

namespace Artboard

/-- A media type without its parameters, in lower case. -/
structure MediaType where
  type : String
  subtype : String
  /-- What follows the last plus sign of the subtype. -/
  suffix : Option String
  deriving DecidableEq, Repr

namespace MediaType

/-- The signs that a token may hold beside letters and digits. -/
def tokenSigns : List Char := "!#$%&'*+-.^_`|~".toList

/-- Whether a character may stand in a token. -/
def isToken (c : Char) : Bool := c.isAlphanum || c ∈ tokenSigns

/-- Whether a character may stand between the quotes of a parameter: a header is plain ASCII. -/
def isQuotedText (c : Char) : Bool := 31 < c.toNat && c.toNat < 127

/-- The rest after the parameter value in quotes, of which `some` are behind the opening quote. -/
def afterQuoted : Bool → List Char → Option (List Char)
  | _, [] => none
  | nonempty, c :: rest =>
    if c = '"' ∧ nonempty then some rest
    else if isQuotedText c then afterQuoted true rest
    else none

/-- The rest after the blanks behind a value in quotes, past the semicolon if one follows. -/
def afterValue : List Char → Option (List Char)
  | [] => some []
  | ';' :: rest => some rest
  | ' ' :: rest => afterValue rest
  | _ => none

/-- Whether a text is a list of parameters `name=value`, from behind a semicolon. Blanks may stand
before a name. The steps bound the characters. -/
def areParameters : Nat → List Char → Bool
  | 0, cs => cs.isEmpty
  | _, [] => true
  | steps + 1, ' ' :: rest => areParameters steps rest
  | steps + 1, cs =>
    let name := cs.takeWhile isToken
    match cs.dropWhile isToken with
    | '=' :: '"' :: rest =>
      !name.isEmpty && match (afterQuoted false rest).bind afterValue with
        | some rest => areParameters steps rest
        | none => false
    | '=' :: rest =>
      let value := rest.takeWhile isToken
      !name.isEmpty && match rest.dropWhile isToken with
        | [] => true
        | ';' :: rest => !value.isEmpty && areParameters steps rest
        | _ => false
    | _ => false

/-- The subtype cut at its last plus sign, which may not be its first character. -/
def cutSuffix (subtype : List Char) : List Char × Option (List Char) :=
  let suffix := (subtype.reverse.takeWhile (· ≠ '+')).reverse
  let stem := subtype.take (subtype.length - suffix.length - 1)
  if suffix.length < subtype.length ∧ stem ≠ [] then (stem, some suffix) else (subtype, none)

/-- Characters in lower case as a text. -/
def lower (cs : List Char) : String := String.ofList (cs.map Char.toLower)

/-- The media type of a header, if the whole header is well formed. -/
def parse? (header : String) : Option MediaType :=
  let cs := header.toList
  let type := cs.takeWhile isToken
  match cs.dropWhile isToken with
  | '/' :: rest =>
    let subtype := rest.takeWhile isToken
    let parameters := match rest.dropWhile isToken with
      | [] => some []
      | ';' :: parameters => if subtype = [] then none else some parameters
      | _ => none
    match parameters with
    | none => none
    | some parameters =>
      if type ≠ [] ∧ areParameters (parameters.length + 1) parameters then
        let (stem, suffix) := cutSuffix subtype
        some ⟨lower type, lower stem, suffix.map lower⟩
      else none
  | _ => none

/-- Whether a media type announces JSON: by its name or by its suffix. -/
def isJson (m : MediaType) : Bool :=
  m.type = "application" && (m.subtype = "json" || m.suffix = some "json")

end MediaType

end Artboard
