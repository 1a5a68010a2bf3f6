import Artboard.Json.Reader

/-! # Passing over JSON

The value of a field that nobody asks for is passed over. Only its tokens are looked at: numbers may
be of any size, escapes may name halves of surrogate pairs, and brackets may nest to any depth.

* `skip`: passes over one value. -/

namespace Artboard.Json

/-- Passes over an escape, after its backslash. -/
def skipEscape : Text → Except Failure Text
  | [] => failAt .endInString []
  | .char 'u' :: rest => (codeUnit rest).map Prod.snd
  | g :: rest => if (shortEscape? g).isSome then .ok rest else failOn .invalidEscape (g :: rest)

/-- Passes over a string after its opening quote. The steps bound the glyphs to come. -/
def skipStringFrom : Nat → Text → Except Failure Text
  | 0, text => failAt .endInString text
  | _, [] => failAt .endInString []
  | steps + 1, g :: rest =>
    if g = .char '"' then .ok rest
    else if g = .char '\\' then
      match skipEscape rest with
      | .ok rest => skipStringFrom steps rest
      | .error f => .error f
    else if isControl g then failAt .controlCharacter (g :: rest)
    else skipStringFrom steps rest

/-- Passes over a string after its opening quote. -/
def skipString : Reader Unit := fun text => (skipStringFrom (text.length + 1) text).map ((), ·)

/-- Passes over the digits before point and exponent. -/
def skipWhole : Text → Except Failure Text
  | .char '0' :: rest =>
    if (digitAt? rest).isSome then failOn .invalidNumber rest else .ok rest
  | text =>
    match digits text with
    | ([], _) => failOn .invalidNumber text
    | (_, rest) => .ok rest

/-- Passes over a point and digits. -/
def skipFraction : Text → Except Failure Text
  | .char '.' :: rest =>
    match digits rest with
    | ([], _) => failOn .invalidNumber rest
    | (_, rest) => .ok rest
  | text => .ok text

/-- Passes over an exponent. -/
def skipExponent : Text → Except Failure Text
  | .char c :: rest =>
    if c = 'e' ∨ c = 'E' then
      let rest := match rest with
        | .char '-' :: rest => rest
        | .char '+' :: rest => rest
        | rest => rest
      match digits rest with
      | ([], _) => failOn .invalidNumber rest
      | (_, rest) => .ok rest
    else .ok (.char c :: rest)
  | text => .ok text

/-- Passes over a number after its sign. -/
def skipNumber (text : Text) : Except Failure Text := do
  skipExponent (← skipFraction (← skipWhole text))

/-- Passes over a value that is no bracket, at its first glyph. -/
def skipScalar : Text → Except Failure Text
  | .char 'n' :: rest => keyword ['u', 'l', 'l'] rest
  | .char 't' :: rest => keyword ['r', 'u', 'e'] rest
  | .char 'f' :: rest => keyword ['a', 'l', 's', 'e'] rest
  | .char '"' :: rest => (skipString rest).map Prod.snd
  | .char '-' :: rest => skipNumber rest
  | [] => failOn .endInValue []
  | text => if (digitAt? text).isSome then skipNumber text else failOn .expectedValue text

/-- Passes over one value, given how to do so inside brackets. -/
def skipWith (inner : Reader Unit) : Reader Unit := fun text =>
  match text.skipBlank with
  | .char '[' :: rest =>
    match items .skip inner rest with
    | .error f => .error f
    | .ok (_, rest) => (closeList rest).map ((), ·)
  | .char '\x7b' :: rest =>
    match membersFrom .skip skipString (fun _ => .unnamed) (fun _ _ => .ok inner)
        (rest.length + 1) true () rest with
    | .error f => .error f
    | .ok (_, rest) => (closeObject rest).map ((), ·)
  | more => (skipScalar more).map ((), ·)

/-- Passes over one value with fewer brackets inside one another than the steps. -/
def skipValue : Nat → Reader Unit
  | 0 => fun text => failAt .endInValue text
  | steps + 1 => skipWith (skipValue steps)

/-- Passes over one value. A text has fewer brackets than glyphs, and one more for the end. -/
def skip : Reader Unit := fun text =>
  match skipValue (text.length + 1) text with
  | .ok read => .ok read
  | .error f => .error { f with path := [] }

end Artboard.Json
