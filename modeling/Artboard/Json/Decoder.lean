import Artboard.Json.Skip
import Artboard.Json.Tree

/-! # Decoding

A decoder reads a value of a type by two routes: straight from a text, where a mismatch stops the
reading and has a position, and from a tree that was read before.

* `Decoder.scalar`: values without brackets; `number`, `string`, `boolean`, `natural`.
* `Decoder.value`, `Decoder.written`: any tree, with embedded texts opened or as it is written.
* `Decoder.optional`, `Decoder.list`: absent values and lists.
* `Decoder.parse`, `Decoder.ofTree`: the two routes for a whole text and a whole tree. A tree is
  decoded in its canonical form. -/

namespace Artboard.Json

/-- Where a tree comes from; it decides the words for items that a record leaves over. -/
inductive Source
  /-- A tree that was read as a value of its own. -/
  | value
  /-- The part of a tagged object beside its tag. -/
  | buffer
  deriving DecidableEq, Repr

/-- Reads values of a type. -/
structure Decoder (α : Type) where
  /-- From a text, with at most so many more brackets inside one another. -/
  read : Nat → Reader α
  /-- From a tree. -/
  ofJson : Source → Json → Except Mismatch α

namespace Decoder

variable {α β : Type}

/-- Decodes a whole text. -/
def parse (d : Decoder α) (text : Text) : Except ReadError α := complete d.read text

/-- Decodes a tree, read as a dictionary at every level. -/
def ofTree (d : Decoder α) (j : Json) : Except Mismatch α := d.ofJson .value j.canonical

/-- Applies a function to what was decoded. -/
def map (f : α → β) (d : Decoder α) : Decoder β where
  read depth text := (d.read depth text).map fun (a, rest) => (f a, rest)
  ofJson source j := (d.ofJson source j).map f

/-- Refuses what stands at the front of a text because a bracketed or other value is expected. A
scalar is read first and the position is behind it. -/
def refuse (expected : String) (text : Text) : Except Failure (α × Text) :=
  match scalar text with
  | .error f => .error f
  | .ok (j, rest) => mismatchAt (.unexpected expected j) rest

/-- A value without brackets. -/
def scalar (expected : String) (accept : Json → Except Mismatch α) : Decoder α where
  read _ := scalarAs expected accept
  ofJson _ j := accept j

/-- A number; whole numbers are rounded to the nearest `Float`. -/
def number : Decoder Float :=
  scalar "f64" fun
    | .int n => .ok (Number.ofDecimal (n < 0) n.natAbs 0)
    | .float x => .ok x
    | j => .error (.unexpected "f64" j)

/-- A string. -/
def string : Decoder String :=
  scalar "a string" fun
    | .string s => .ok s
    | j => .error (.unexpected "a string" j)

/-- A truth value. -/
def boolean : Decoder Bool :=
  scalar "a boolean" fun
    | .bool b => .ok b
    | j => .error (.unexpected "a boolean" j)

/-- A natural number below a bound; the name of its type is what is expected. -/
def natural (expected : String) (bound : Nat) : Decoder Nat :=
  scalar expected fun
    | .int n =>
      if 0 ≤ n ∧ n < bound then .ok n.toNat else .error (.invalidValue n expected)
    | j => .error (.unexpected expected j)

/-- Any tree in canonical form, with embedded texts opened. -/
def value : Decoder Json where
  read depth text := (tree depth text).map fun (j, rest) => (j.canonical, rest)
  ofJson _ j := j.opened

/-- Any tree as it is written. -/
def written : Decoder Json where
  read := Json.written
  ofJson _ j := .ok j

/-- A value that `null` stands for the absence of. -/
def optional (d : Decoder α) : Decoder (Option α) where
  read depth text :=
    match text.skipBlank with
    | .char 'n' :: rest => (keyword ['u', 'l', 'l'] rest).map (none, ·)
    | more => (d.read depth more).map fun (a, rest) => (some a, rest)
  ofJson source
    | .null => .ok none
    | j => (d.ofJson source j).map some

/-- A value for which `null` stands for a default. -/
def nullable (default : α) (d : Decoder α) : Decoder α := d.optional.map fun a => a.getD default

/-- Decodes the items of a list. -/
def ofItems (decode : Json → Except Mismatch α) : List Json → Except Mismatch (List α)
  | [] => .ok []
  | j :: rest =>
    match decode j with
    | .error m => .error m
    | .ok a =>
      match ofItems decode rest with
      | .error m => .error m
      | .ok as => .ok (a :: as)

/-- A list. -/
def list (d : Decoder α) : Decoder (List α) where
  read depth text :=
    match text.skipBlank with
    | .char '[' :: rest =>
      inList (within (fun depth => items .keep (d.read depth)) depth) (.char '[' :: rest)
    | .char '\x7b' :: rest => mismatchAt (.invalidType .map "a sequence") (.char '\x7b' :: rest)
    | more => refuse "a sequence" more
  ofJson source
    | .array js => ofItems (d.ofJson source) js
    | j => .error (.unexpected "a sequence" j)

/-- A value that is decoded and then converted. A mismatch in the conversion has no position of its
own. -/
def convert (d : Decoder α) (f : α → Except Mismatch β) : Decoder β where
  read depth text :=
    match d.read depth text with
    | .error f => .error f
    | .ok (a, rest) =>
      match f a with
      | .ok b => .ok (b, rest)
      | .error m => mismatchBefore m rest
  ofJson source j := (d.ofJson source j).bind f

end Decoder

end Artboard.Json
