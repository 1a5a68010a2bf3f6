import Artboard.Json.Decoder

/-! # Decoding records

A record is written as an object of its fields in any order, or as an array of them in the order of
their declaration. Fields that it does not know are passed over.

* `Fields`: the fields of a record; what is decoded is a nested product, `Fields.finish` gives it.
* `Fields.Draft`: what has been read of each field so far.
* `Decoder.record`: the record with a function from its fields. -/

namespace Artboard.Json

/-- What a field is when it is not there. -/
inductive Presence (α : Type)
  /-- A record without it is refused. -/
  | required
  /-- It has a value of its own then. -/
  | default (value : α)
  /-- It has a value of its own then in an object; an array may not end before it. -/
  | inArray (value : α)

/-- The value of an absent field of an object. -/
def Presence.inObject? {α : Type} : Presence α → Option α
  | .required => none
  | .default a => some a
  | .inArray a => some a

/-- The value of a field that an array ends before. -/
def Presence.pastArray? {α : Type} : Presence α → Option α
  | .default a => some a
  | _ => none

/-- A field of a record. -/
structure Field (α : Type) where
  name : String
  decoder : Decoder α
  presence : Presence α

/-- The fields of a record, in the order of their declaration. -/
inductive Fields : Type → Type 1
  | nil : Fields Unit
  | cons {α β : Type} (field : Field α) (rest : Fields β) : Fields (α × β)

/-- What to do with the value of a key. -/
inductive Slot (σ : Type)
  /-- The key is no field. -/
  | unknown
  /-- The field has its value already. -/
  | repeated
  /-- Decode the value. -/
  | free (decoder : Decoder σ)

/-- The slot in a larger state. -/
def Slot.map {σ τ : Type} (f : σ → τ) : Slot σ → Slot τ
  | .unknown => .unknown
  | .repeated => .repeated
  | .free d => .free (d.map f)

namespace Fields

/-- For each field its value, if it has been read. -/
def Draft : {δ : Type} → Fields δ → Type
  | _, .nil => Unit
  | _, .cons (α := α) _ rest => Option α × rest.Draft

/-- The value of the first field. -/
def Draft.first {α β : Type} {field : Field α} {rest : Fields β}
    (draft : (Fields.cons field rest).Draft) : Option α :=
  let pair : Option α × rest.Draft := draft
  pair.1

/-- The values of the other fields. -/
def Draft.others {α β : Type} {field : Field α} {rest : Fields β}
    (draft : (Fields.cons field rest).Draft) : rest.Draft :=
  let pair : Option α × rest.Draft := draft
  pair.2

/-- A draft from the value of the first field and those of the others. -/
def Draft.join {α β : Type} (field : Field α) {rest : Fields β} (first : Option α)
    (others : rest.Draft) : (Fields.cons field rest).Draft :=
  (first, others)

/-- No field has been read. -/
def blank : {δ : Type} → (fields : Fields δ) → fields.Draft
  | _, .nil => ()
  | _, .cons field rest => Draft.join field none rest.blank

/-- The number of fields. -/
def length : {δ : Type} → Fields δ → Nat
  | _, .nil => 0
  | _, .cons _ rest => rest.length + 1

/-- The slot of a key: the first field of that name. -/
def slot : {δ : Type} → (fields : Fields δ) → String → fields.Draft → Slot fields.Draft
  | _, .nil, _, _ => .unknown
  | _, .cons field rest, key, draft =>
    if key = field.name then
      if draft.first.isSome then .repeated
      else .free (field.decoder.map fun a => Draft.join field (some a) draft.others)
    else (rest.slot key draft.others).map fun others => Draft.join field draft.first others

/-- The values of all fields; the first missing one that is required is an error. -/
def finish : {δ : Type} → (fields : Fields δ) → fields.Draft → Except Mismatch δ
  | _, .nil, _ => .ok ()
  | _, .cons field rest, draft =>
    match draft.first.or field.presence.inObject? with
    | none => .error (.missingField field.name)
    | some a => (rest.finish draft.others).map fun b => (a, b)

/-- The values of fields that an array ends before; the array has `index` items and `expected` says
what a complete one is. -/
def pastArray (index : Nat) (expected : String) : {δ : Type} → Fields δ → Except Mismatch δ
  | _, .nil => .ok ()
  | _, .cons field rest =>
    match field.presence.pastArray? with
    | none => .error (.invalidLength index expected)
    | some a => (rest.pastArray (index + 1) expected).map fun b => (a, b)

/-- Reads the fields from the items of an array. -/
def readItems (depth : Nat) (expected : String) : {δ : Type} → Nat → Fields δ → Reader δ
  | _, _, .nil, text => .ok ((), text)
  | _, index, .cons field rest, text =>
    match nextItem .keep (index = 0) text with
    | .error f => .error f
    | .ok (.close, more) =>
      match (Fields.cons field rest).pastArray index expected with
      | .ok values => .ok (values, more)
      | .error m => mismatchBefore m more
    | .ok (.entry, more) =>
      match field.decoder.read depth more with
      | .error f => .error (f.under (.index index))
      | .ok (a, more) =>
        (rest.readItems depth expected (index + 1) more).map fun (b, more) => ((a, b), more)

/-- Decodes the fields from the items of an array; also gives the items that are left over. -/
def ofItems (source : Source) (expected : String) :
    {δ : Type} → Nat → Fields δ → List Json → Except Mismatch (δ × List Json)
  | _, _, .nil, js => .ok ((), js)
  | _, index, .cons field rest, [] =>
    ((Fields.cons field rest).pastArray index expected).map fun values => (values, [])
  | _, index, .cons field rest, j :: js =>
    match field.decoder.ofJson source j with
    | .error m => .error m
    | .ok a =>
      (rest.ofItems source expected (index + 1) js).map fun (b, js) => ((a, b), js)

variable {δ : Type}

/-- Reads the value of one key into the draft. -/
def readMember (depth : Nat) (fields : Fields δ) (key : String) (draft : fields.Draft) :
    Except Mismatch (Reader fields.Draft) :=
  match fields.slot key draft with
  | .unknown => .ok fun text => (skip text).map fun (_, rest) => (draft, rest)
  | .repeated => .error (.duplicateField key)
  | .free d => .ok (d.read depth)

/-- Reads the fields from the members of an object. -/
def readMembers (depth : Nat) (fields : Fields δ) : Reader δ := fun text =>
  match members (fields.readMember depth) fields.blank text with
  | .error f => .error f
  | .ok (draft, rest) =>
    match fields.finish draft with
    | .ok values => .ok (values, rest)
    | .error m => mismatchBefore m rest

/-- Decodes the value of one key into the draft. -/
def ofMember (source : Source) (fields : Fields δ) (draft : fields.Draft) :
    String × Json → Except Mismatch fields.Draft
  | (key, j) =>
    match fields.slot key draft with
    | .unknown => .ok draft
    | .repeated => .error (.duplicateField key)
    | .free d => d.ofJson source j

/-- Decodes the fields from the members of an object. -/
def ofMembers (source : Source) (fields : Fields δ) (members : List (String × Json)) :
    Except Mismatch δ :=
  match members.foldlM (fields.ofMember source) fields.blank with
  | .error m => .error m
  | .ok draft => fields.finish draft

end Fields

/-- The words for items that are left over in an array of `length` items, of which `taken` were
taken. -/
def surplus (source : Source) (length taken : Nat) : Mismatch :=
  match source with
  | .value => .invalidLength length "fewer elements in array"
  | .buffer =>
    .invalidLength length
      (if taken = 1 then "1 element in sequence" else toString taken ++ " elements in sequence")

/-- What a record called `name` is expected to be, when something else is found. -/
def recordName (name : String) : String := "struct " ++ name

/-- A complete array of the fields of a record that is described so. -/
def completeArray (described : String) (length : Nat) : String :=
  described ++ " with " ++ toString length ++ (if length = 1 then " element" else " elements")

/-- A record that is described so in mismatches. -/
def Decoder.recordAs {α δ : Type} (described : String) (fields : Fields δ) (build : δ → α) :
    Decoder α where
  read depth text :=
    let array := completeArray described fields.length
    let result := match text.skipBlank with
      | .char '[' :: rest =>
        inList (within (fun depth => fields.readItems depth array 0) depth) (.char '[' :: rest)
      | .char '\x7b' :: rest =>
        inObject (within (fun depth => fields.readMembers depth) depth) (.char '\x7b' :: rest)
      | more => Decoder.refuse described more
    result.map fun (values, rest) => (build values, rest)
  ofJson source j :=
    let values := match j with
      | .object members => fields.ofMembers source members
      | .array js =>
        match fields.ofItems source (completeArray described fields.length) 0 js with
        | .error m => .error m
        | .ok (values, []) => .ok values
        | .ok (_, _ :: _) => .error (surplus source js.length fields.length)
      | j => .error (Mismatch.unexpected described j)
    values.map build

/-- A record called `name`. -/
def Decoder.record {α δ : Type} (name : String) (fields : Fields δ) (build : δ → α) : Decoder α :=
  .recordAs (recordName name) fields build

/-- A field that must be there. -/
def Field.required {α : Type} (name : String) (d : Decoder α) : Field α := ⟨name, d, .required⟩

/-- A field for which absence stands for `value`, as `null` may. -/
def Field.default {α : Type} (name : String) (value : α) (d : Decoder α) : Field α :=
  ⟨name, d, .default value⟩

/-- A field that may be absent or `null`. -/
def Field.optional {α : Type} (name : String) (d : Decoder α) : Field (Option α) :=
  ⟨name, d.optional, .default none⟩

/-- A field that may be absent from an object or `null`, and has its place in an array. -/
def Field.placed {α : Type} (name : String) (d : Decoder α) : Field (Option α) :=
  ⟨name, d.optional, .inArray none⟩

end Artboard.Json
