import Artboard.Json.Record

/-! # Decoding tagged variants

A value of one of several forms names its form in a member `type` beside the fields of the form, or
as the first item of an array. The rest is kept as a tree until the tag is known, so a mismatch in
the rest has no position of its own.

* `Variant.unit`, `Variant.record`: a form without and with fields.
* `Decoder.tagged`: the choice between variants. -/

namespace Artboard.Json

/-- One form of a tagged value: its tag and how the rest of the value is decoded. -/
structure Variant (α : Type) where
  tag : String
  ofRest : Json → Except Mismatch α

/-- A form without fields: members are passed over, and an array must end after the tag. -/
def Variant.unit {α : Type} (tag : String) (a : α) : Variant α where
  tag := tag
  ofRest
    | .array (j :: js) => .error (surplus .buffer (j :: js).length 0)
    | _ => .ok a

/-- A form whose rest is decoded by itself. -/
def Variant.record {α : Type} (tag : String) (d : Decoder α) : Variant α where
  tag := tag
  ofRest := d.ofJson .buffer

namespace Tagged

/-- The key of tags. -/
def key : String := "type"

variable {α : Type}

/-- The variant that a tree names. -/
def variant (variants : List (Variant α)) : Json → Except Mismatch (Variant α)
  | .string s =>
    match variants.find? fun v => v.tag = s with
    | some v => .ok v
    | none => .error (.unknownVariant s (variants.map Variant.tag))
  | j => .error (Mismatch.unexpected "variant identifier" j)

/-- Reads a tag. -/
def tag (variants : List (Variant α)) : Decoder (Variant α) :=
  .scalar "variant identifier" (variant variants)

/-- What has been read of an object: the variant if its tag was there, and the other members. -/
abbrev Draft (α : Type) := Option (Variant α) × List (String × Json)

/-- Reads the value of one key: the tag once, any tree for other keys. -/
def readMember (variants : List (Variant α)) (depth : Nat) (k : String) (draft : Draft α) :
    Except Mismatch (Reader (Draft α)) :=
  if k = key then
    match draft.1 with
    | some _ => .error (.duplicateField key)
    | none => .ok fun text =>
      ((tag variants).read depth text).map fun (v, rest) => ((some v, draft.2), rest)
  else .ok fun text =>
    (written depth text).map fun (j, rest) => ((draft.1, draft.2 ++ [(k, j)]), rest)

/-- Decodes the value of one key. -/
def ofMember (variants : List (Variant α)) (draft : Draft α) :
    String × Json → Except Mismatch (Draft α)
  | (k, j) =>
    if k = key then
      match draft.1 with
      | some _ => .error (.duplicateField key)
      | none => (variant variants j).map fun v => (some v, draft.2)
    else .ok (draft.1, draft.2 ++ [(k, j)])

/-- The variant of an object and the tree of its other members. -/
def finish : Draft α → Except Mismatch (Variant α × Json)
  | (none, _) => .error (.missingField key)
  | (some v, members) => .ok (v, .object members)

/-- Reads an object into its variant and the rest. -/
def readMembers (variants : List (Variant α)) (depth : Nat) : Reader (Variant α × Json) :=
  fun text =>
    match members (readMember variants depth) (none, []) text with
    | .error f => .error f
    | .ok (draft, rest) =>
      match finish draft with
      | .ok read => .ok (read, rest)
      | .error m => mismatchBefore m rest

/-- Reads an array into its variant and the rest. -/
def readItems (variants : List (Variant α)) (depth : Nat) : Reader (Variant α × Json) :=
  fun text =>
    match nextItem .keep true text with
    | .error f => .error f
    | .ok (.close, rest) => mismatchBefore (.missingField key) rest
    | .ok (.entry, rest) =>
      match (tag variants).read depth rest with
      | .error f => .error (f.under (.index 0))
      | .ok (v, rest) =>
        (itemsFrom .keep (written depth) (rest.length + 1) 1 rest).map fun (js, rest) =>
          ((v, .array js), rest)

/-- The variant of a tree and the rest of the tree. -/
def split (type : String) (variants : List (Variant α)) :
    Json → Except Mismatch (Variant α × Json)
  | .object members =>
    match members.foldlM (ofMember variants) (none, []) with
    | .error m => .error m
    | .ok draft => finish draft
  | .array [] => .error (.missingField key)
  | .array (j :: js) => (variant variants j).map fun v => (v, .array js)
  | j => .error (Mismatch.unexpected type j)

end Tagged

/-- One of several forms of a type. -/
def Decoder.tagged {α : Type} (name : String) (variants : List (Variant α)) : Decoder α :=
  let type := "internally tagged enum " ++ name
  { read := fun depth text =>
      let result := match text.skipBlank with
        | .char '[' :: rest =>
          inList (within (Tagged.readItems variants) depth) (.char '[' :: rest)
        | .char '\x7b' :: rest =>
          inObject (within (Tagged.readMembers variants) depth) (.char '\x7b' :: rest)
        | more => Decoder.refuse type more
      match result with
      | .error f => .error f
      | .ok ((v, j), rest) =>
        match v.ofRest j with
        | .ok a => .ok (a, rest)
        | .error m => mismatchBefore m rest
    ofJson := fun _ j =>
      match Tagged.split type variants j with
      | .error m => .error m
      | .ok (v, rest) => v.ofRest rest }

end Artboard.Json
