import Artboard.Proofs.Json.Record
import Artboard.Screen.Wire

/-! # Which trees describe screens

A schema says which trees a screen is read from, what it is then, and which mismatch is reported
otherwise.

* `FieldType`, `Schema`: fields with their types. `verdict_fields`: the decoder of such fields.
* `Screen.Fits`: the trees of the schema. `Screen.described`: the screen that such a tree describes.
* `Screen.complaint`: the first part of a tree, in the order of reading, that does not fit.
* `Screen.ofTree_iff_fits`: the decoder of screens accepts the schema and nothing else. -/

namespace Artboard

open Json (Decoder Field Fields Mismatch Rule Verdict IsRecord PartsFit part lookup
  recordComplaint memberComplaint verdict_record recordComplaint_eq_none)

/-! ### Fields with their types -/

namespace Json

/-- The number that a tree is. -/
def number? : Json → Option Float
  | .int n => some (Number.ofDecimal (n < 0) n.natAbs 0)
  | .float x => some x
  | _ => none

/-- The font weight that a tree is, a number or a name. -/
def weight? : Json → Option FontWeight
  | .string s => some (.named s)
  | j => j.number?.map .numeric

/-- The number under a key. -/
def numberAt (j : Json) (key : String) : Option Float := (j.member? key).bind number?

/-- The string under a key. -/
def stringAt (j : Json) (key : String) : Option String := (j.member? key).bind string?

/-- The font weight under a key. -/
def weightAt (j : Json) (key : String) : Option FontWeight := (j.member? key).bind weight?

end Json

/-- The types of fields. -/
inductive FieldType
  | number
  | string
  | weight

namespace FieldType

/-- The values of a type. -/
def Value : FieldType → Type
  | .number => Float
  | .string => String
  | .weight => FontWeight

/-- The value that a tree is. -/
def read : (t : FieldType) → Json → Option t.Value
  | .number => Json.number?
  | .string => Json.string?
  | .weight => Json.weight?

/-- The decoder of a type. -/
def decoder : (t : FieldType) → Decoder t.Value
  | .number => .number
  | .string => .string
  | .weight => FontWeight.decoder

/-- A value is absent, `null` or of a type. -/
def Fits (t : FieldType) (x : Option Json) : Prop :=
  ∀ j, x = some j → j = .null ∨ (t.read j).isSome

/-- The mismatch with a tree that is not of a type. -/
def refusal : FieldType → Json → Mismatch
  | .number, j => .unexpected "f64" j
  | .string, j => .unexpected "a string" j
  | .weight, _ => .noVariant "FontWeight"

/-- The mismatch with a value, if it does not fit. -/
def check (t : FieldType) : Json → Option Mismatch
  | .null => none
  | j => if (t.read j).isSome then none else some (t.refusal j)

theorem check_eq_none {t : FieldType} {j : Json} :
    t.check j = none ↔ j = .null ∨ (t.read j).isSome := by
  cases j <;> simp [check, ← Option.isSome_iff_ne_none]

theorem complaint_decoder (t : FieldType) : t.decoder.optional.complaint = t.check := by
  funext j
  cases t <;> cases j <;> rfl

theorem eq_read {t : FieldType} {j : Json} {a : Option t.Value}
    (h : t.decoder.optional.ofJson .value j = .ok a) : a = t.read j := by
  cases t <;> cases j <;> cases h <;> rfl

end FieldType

/-- The names of fields with their types. -/
abbrev Schema : Type := List (String × FieldType)

namespace Schema

/-- The values of the fields, as far as they are given. -/
def Values : Schema → Type
  | [] => Unit
  | (_, t) :: s => Option t.Value × Values s

/-- The fields as a decoder has them. -/
def fields : (s : Schema) → Fields s.Values
  | [] => .nil
  | (name, t) :: s => .cons (.optional name t.decoder) (fields s)

/-- The values in the parts of a record, from some index on. -/
def values (parts : Nat → String → Option Json) : Nat → (s : Schema) → s.Values
  | _, [] => ()
  | index, (name, t) :: s => ((parts index name).bind t.read, values parts (index + 1) s)

/-- The mismatch with each of the fields. -/
def checks (s : Schema) : List Rule := s.map fun f => (f.1, f.2.check)

theorem names_checks (s : Schema) : s.checks.map Prod.fst = s.map Prod.fst := by
  rw [checks, List.map_map]; rfl

theorem rules_fields : ∀ s : Schema, s.fields.rules = s.checks
  | [] => rfl
  | (name, t) :: s => by
    show (name, t.decoder.optional.complaint) :: (fields s).rules = (name, t.check) :: checks s
    rw [t.complaint_decoder, rules_fields s]

theorem lenient_fields : ∀ s : Schema, s.fields.Lenient
  | [] => trivial
  | _ :: s => ⟨⟨none, rfl⟩, lenient_fields s⟩

/-- The fields give what is read in the parts of a record. -/
theorem eq_values {parts : Nat → String → Option Json} : ∀ {s : Schema} {index : Nat}
    {a : s.Values}, s.fields.Gives parts index a → a = s.values parts index
  | [], _, _, _ => rfl
  | (name, t) :: s, index, (first, others), ⟨hfirst, hothers⟩ => by
    have hread : first = (parts index name).bind t.read := by
      have hgives : (Field.optional name t.decoder).Gives (parts index name) first := hfirst
      cases hx : parts index name with
      | none => rw [hx] at hgives; cases hgives; rfl
      | some j => rw [hx] at hgives; exact FieldType.eq_read hgives
    exact Prod.ext hread (eq_values hothers)

/-- **A record of such fields** is refused for its first complaint, or built from what is read. -/
theorem verdict_fields {s : Schema} {α : Type} {described : String} {build : s.Values → α}
    {j : Json} (hnames : (s.map Prod.fst).Nodup) (hj : j.Distinct) :
    Verdict (recordComplaint described (checks s) j) (fun a => a = build (s.values (part j) 0))
      ((Decoder.recordAs described s.fields build).ofJson .value j) := by
  have hrules : (s.fields.rules.map Prod.fst).Nodup := by
    rw [rules_fields, names_checks]; exact hnames
  rw [← rules_fields]
  refine (verdict_record hrules s.lenient_fields hj).imp fun a ⟨_, values, hvalues, ha⟩ => ?_
  rw [ha, eq_values hvalues]

/-- The parts of an object fit if the value of each field does. -/
theorem partsFit_checks {ms : List (String × Json)} : ∀ {s : Schema} (index : Nat),
    PartsFit (part (.object ms)) index s.checks ↔ ∀ f ∈ s, f.2.Fits (lookup f.1 ms)
  | [], _ => by simp [checks, PartsFit]
  | (name, t) :: s, index => by
    rw [List.forall_mem_cons, ← partsFit_checks (index + 1)]
    refine and_congr_left fun _ => forall_congr' fun x => imp_congr_right fun _ => ?_
    exact FieldType.check_eq_none

end Schema

/-! ### Frames -/

namespace FrameSpec

/-- The fields of frames. -/
def schema : Schema := [("name", .string), ("width", .number), ("height", .number)]

/-- A tree is an object, or an array of at most three items, whose parts fit. -/
def Fits (j : Json) : Prop :=
  IsRecord 3 j ∧ FieldType.string.Fits (part j 0 "name") ∧
    FieldType.number.Fits (part j 1 "width") ∧ FieldType.number.Fits (part j 2 "height")

/-- The frame that a tree describes. -/
def described (j : Json) : FrameSpec where
  name := (part j 0 "name").bind Json.string?
  width := (part j 1 "width").bind Json.number?
  height := (part j 2 "height").bind Json.number?

/-- What does not fit in the tree of a frame. -/
def complaint (j : Json) : Option Mismatch :=
  recordComplaint "struct FrameSpec" schema.checks j

variable {j : Json}

theorem verdict_decoder (hj : j.Distinct) :
    Verdict (complaint j) (fun f => f = described j) (decoder.ofJson .value j) :=
  Schema.verdict_fields (s := schema) (by decide) hj

theorem complaint_eq_none (hj : j.Distinct) : complaint j = none ↔ Fits j := by
  rw [complaint, recordComplaint_eq_none (by decide) hj]
  refine and_congr_right fun _ => ?_
  simp only [schema, Schema.checks, List.map_cons, List.map_nil, PartsFit, FieldType.check_eq_none,
    and_true, FieldType.Fits]

end FrameSpec

/-! ### Lists, and values that may be `null` -/

namespace Json

/-- What does not fit in a value that may be `null`. -/
def unlessNull (check : Json → Option Mismatch) : Json → Option Mismatch
  | .null => none
  | j => check j

section Lists
variable {α : Type} {check : Json → Option Mismatch} {read : Json → α} {j : Json}

theorem unlessNull_eq_none : unlessNull check j = none ↔ j = .null ∨ check j = none := by
  cases j <;> simp [unlessNull]

/-- `null` stands for the default. -/
theorem verdict_nullable {d : Decoder α} {default : α} (hdefault : default = read .null)
    (h : Verdict (check j) (fun a => a = read j) (d.ofJson .value j)) :
    Verdict (unlessNull check j) (fun a => a = read j)
      ((d.nullable default).ofJson .value j) := by
  have hmap (r : Except Mismatch α) : (r.map some).map (fun a => a.getD default) = r := by
    cases r <;> rfl
  cases j with
  | null => exact ⟨rfl, hdefault⟩
  | _ =>
    show Verdict _ _ (((d.ofJson .value _).map some).map fun a => a.getD default)
    rw [hmap]; exact h

/-- A list is refused for the first of its items that is refused. -/
theorem verdict_items {decode : Json → Except Mismatch α} : ∀ {js : List Json},
    (∀ j ∈ js, Verdict (check j) (fun a => a = read j) (decode j)) →
      Verdict (js.findSome? check) (fun as => as = js.map read) (Decoder.ofItems decode js)
  | [], _ => ⟨rfl, rfl⟩
  | j :: js, h => by
    obtain ⟨hj, hjs⟩ := List.forall_mem_cons.mp h
    have hitems : Decoder.ofItems decode (j :: js) = (decode j).bind fun a =>
        (Decoder.ofItems decode js).map fun as => a :: as := by
      rw [Decoder.ofItems]
      cases decode j with
      | error m => rfl
      | ok a => cases Decoder.ofItems decode js <;> rfl
    rw [hitems, findSome?_cons_or]
    exact hj.bind fun a ha => (verdict_items hjs).map fun as has => by rw [ha, has]; rfl

/-- A field with a default has it where a record has no such part. -/
theorem eq_getD_of_gives {d : Decoder α} {default a : α} {name : String} {x : Option Json}
    (hx : ∀ j, x = some j → Verdict (check j) (fun a => a = read j) (d.ofJson .value j))
    (h : (Field.default name default d).Gives x a) : a = (x.map read).getD default := by
  cases x with
  | none => cases h; rfl
  | some j => exact (hx j rfl).of_ok h

end Lists

end Json

/-! ### Components -/

namespace Component

/-- The fields of components of the known kinds. -/
def schemaOf : Option String → Option Schema
  | some "text" => some [("x", .number), ("y", .number), ("text", .string),
      ("fontSize", .number), ("fontWeight", .weight), ("color", .string)]
  | some "button" => some [("x", .number), ("y", .number), ("width", .number),
      ("height", .number), ("text", .string), ("backgroundColor", .string),
      ("textColor", .string), ("borderRadius", .number)]
  | some "input" => some [("x", .number), ("y", .number), ("width", .number),
      ("height", .number), ("label", .string)]
  | some "rectangle" => some [("x", .number), ("y", .number), ("width", .number),
      ("height", .number), ("fillColor", .string)]
  | _ => none

/-- The fields of the kind that a tree names, if this is known. -/
def schema? (c : Json) : Option Schema := schemaOf (c.stringAt "type")

/-- The known fields of a tree fit. -/
def Fits (c : Json) : Prop := ∀ s, schema? c = some s → ∀ f ∈ s, f.2.Fits (c.member? f.1)

/-- The component that a tree describes. -/
def described (c : Json) : Component :=
  match c.stringAt "type" with
  | some "text" => .text
      { x := c.numberAt "x", y := c.numberAt "y", text := c.stringAt "text"
        fontSize := c.numberAt "fontSize", fontWeight := c.weightAt "fontWeight"
        color := c.stringAt "color" }
  | some "button" => .button
      { x := c.numberAt "x", y := c.numberAt "y", width := c.numberAt "width"
        height := c.numberAt "height", text := c.stringAt "text"
        backgroundColor := c.stringAt "backgroundColor", textColor := c.stringAt "textColor"
        borderRadius := c.numberAt "borderRadius" }
  | some "input" => .input
      { x := c.numberAt "x", y := c.numberAt "y", width := c.numberAt "width"
        height := c.numberAt "height", label := c.stringAt "label" }
  | some "rectangle" => .rectangle
      { x := c.numberAt "x", y := c.numberAt "y", width := c.numberAt "width"
        height := c.numberAt "height", fillColor := c.stringAt "fillColor" }
  | kind => .unknown kind

/-- What does not fit in a tree. -/
def complaint (c : Json) : Option Mismatch :=
  (schema? c).bind fun s =>
    match c with
    | .object ms => memberComplaint s.checks ms
    | _ => none

/-- The tree that an element of a list stands for. -/
def content (e : Json) : Json :=
  match e.opened with
  | .ok c => c
  | .error _ => e

/-- What does not fit in an element: what it stands for cannot be opened, or does not fit. -/
def elementComplaint (e : Json) : Option Mismatch :=
  match e.opened with
  | .ok c => complaint c
  | .error m => some m

/-- What does not fit in a list of components. -/
def listComplaint : Json → Option Mismatch
  | .array es => es.findSome? elementComplaint
  | j => some (.unexpected "a sequence" j)

/-- The components that a list describes. -/
def listed : Json → List Component
  | .array es => es.map fun e => described (content e)
  | _ => []

section Components
variable {c e : Json}

theorem nodup_names {kind : Option String} {s : Schema} (h : schemaOf kind = some s) :
    (s.map Prod.fst).Nodup := by
  unfold schemaOf at h
  split at h <;> cases h <;> decide

/-- The known kinds. -/
theorem kind_of_schemaOf {kind : Option String} {s : Schema} (h : schemaOf kind = some s) :
    kind = some "text" ∨ kind = some "button" ∨ kind = some "input" ∨ kind = some "rectangle" := by
  unfold schemaOf at h
  split at h <;> cases h <;> simp

/-- A tree of no known kind is a component of unknown kind. -/
theorem ofJson_of_no_schema (h : schema? c = none) : ofJson c = .ok (described c) := by
  have hkind : (c.member? "type").bind Json.string? = c.stringAt "type" := rfl
  rw [ofJson, described, hkind]
  unfold schema? schemaOf at h
  split at h
  -- the kind is none of the four, so both matches are at their last case
  case h_5 => simp
  all_goals cases h

/-- **A component** is refused for the first field of its kind that does not fit. -/
theorem verdict_ofJson (hc : c.Distinct) :
    Verdict (complaint c) (fun a => a = described c) (ofJson c) := by
  cases hs : schema? c with
  | none =>
    rw [complaint, hs, ofJson_of_no_schema hs]
    exact ⟨rfl, rfl⟩
  | some s =>
    cases c with
    | object ms =>
      have hkind : ((Json.object ms).member? "type").bind Json.string? =
        (Json.object ms).stringAt "type" := rfl
      rw [complaint, hs, ofJson, described, hkind]
      rcases kind_of_schemaOf hs with htype | htype | htype | htype <;>
        rw [schema?, htype] at hs <;> cases hs <;> rw [htype]
      · exact (Schema.verdict_fields (by decide) hc).map fun a ha => by rw [ha]; rfl
      · exact (Schema.verdict_fields (by decide) hc).map fun a ha => by rw [ha]; rfl
      · exact (Schema.verdict_fields (by decide) hc).map fun a ha => by rw [ha]; rfl
      · exact (Schema.verdict_fields (by decide) hc).map fun a ha => by rw [ha]; rfl
    | _ => cases hs

theorem complaint_eq_none (hc : c.Distinct) : complaint c = none ↔ Fits c := by
  unfold complaint Fits
  cases hs : schema? c with
  | none => simp
  | some s =>
    cases c with
    | object ms =>
      have hnames : (s.checks.map Prod.fst).Nodup := by
        rw [Schema.names_checks]; exact nodup_names hs
      rw [Option.bind_some, Json.memberComplaint_eq_none hc 0 hnames, Schema.partsFit_checks]
      exact ⟨fun h s' hs' => Option.some.inj hs' ▸ h, fun h => h s rfl⟩
    | _ => cases hs

theorem verdict_decoder (he : e.Distinct) :
    Verdict (elementComplaint e) (fun a => a = described (content e))
      (decoder.ofJson .value e) := by
  show Verdict _ _ (e.opened.bind ofJson)
  unfold elementComplaint content
  cases hc : e.opened with
  | error m => rfl
  | ok c => exact verdict_ofJson (Json.distinct_opened he hc)

theorem elementComplaint_eq_none (he : e.Distinct) :
    elementComplaint e = none ↔ ∃ c, e.opened = .ok c ∧ Fits c := by
  unfold elementComplaint
  cases hc : e.opened with
  | error m => simp
  | ok c =>
    show complaint c = none ↔ _
    rw [complaint_eq_none (Json.distinct_opened he hc)]
    simp

theorem verdict_list (he : e.Canonical) :
    Verdict (listComplaint e) (fun cs => cs = listed e)
      ((Decoder.list decoder).ofJson .value e) := by
  cases e with
  | array es => exact Json.verdict_items fun e h => verdict_decoder (he.isPart h).distinct
  | _ => rfl

theorem listComplaint_eq_none (he : e.Canonical) : listComplaint e = none ↔
    ∃ es, e = .array es ∧ ∀ e ∈ es, ∃ c, e.opened = .ok c ∧ Fits c := by
  cases e with
  | array es =>
    have hes : listComplaint (.array es) = none ↔ ∀ e ∈ es, ∃ c, e.opened = .ok c ∧ Fits c := by
      rw [listComplaint, List.findSome?_eq_none_iff]
      exact forall₂_congr fun e h => elementComplaint_eq_none (he.isPart h).distinct
    rw [hes]
    exact ⟨fun h => ⟨es, rfl, h⟩, fun ⟨_, heq, h⟩ => by cases heq; exact h⟩
  | _ => simp [listComplaint]

end Components

end Component

/-! ### Screens -/

namespace Screen

/-- **The trees of screens.** A tree is an object, or an array of at most two items. Its frame is
absent, `null` or fits; its components are absent, `null` or a list of elements that fit. -/
def Fits (j : Json) : Prop :=
  IsRecord 2 j ∧
    (∀ x, part j 0 "frame" = some x → x = .null ∨ FrameSpec.Fits x) ∧
    ∀ x, part j 1 "components" = some x → x = .null ∨
      ∃ es, x = .array es ∧ ∀ e ∈ es, ∃ c, e.opened = .ok c ∧ Component.Fits c

/-- The screen that a tree describes. -/
def described (j : Json) : Screen where
  frame := ((part j 0 "frame").map FrameSpec.described).getD .empty
  components := ((part j 1 "components").map Component.listed).getD []

/-- The fields as the decoder has them. -/
def fields : Fields (FrameSpec × List Component × Unit) :=
  .cons (.default "frame" .empty (.nullable .empty FrameSpec.decoder))
    (.cons (.default "components" [] (.nullable [] (.list Component.decoder))) .nil)

/-- The mismatch with each of the fields. -/
def checks : List Rule :=
  [("frame", Json.unlessNull FrameSpec.complaint),
    ("components", Json.unlessNull Component.listComplaint)]

/-- What does not fit in the tree of a screen. -/
def complaint (j : Json) : Option Mismatch :=
  recordComplaint "struct GenerationRequest" checks j

section Screens
variable {j : Json}

theorem verdict_frame (hj : j.Canonical) :
    Verdict (Json.unlessNull FrameSpec.complaint j) (fun f => f = FrameSpec.described j)
      ((FrameSpec.decoder.nullable .empty).ofJson .value j) :=
  Json.verdict_nullable rfl (FrameSpec.verdict_decoder hj.distinct)

theorem verdict_components (hj : j.Canonical) :
    Verdict (Json.unlessNull Component.listComplaint j) (fun cs => cs = Component.listed j)
      (((Decoder.list Component.decoder).nullable []).ofJson .value j) :=
  Json.verdict_nullable rfl (Component.verdict_list hj)

/-- The fields of a canonical tree are refused as the checks say. -/
theorem agree_checks : Json.Agree Json.Canonical fields.rules checks :=
  .cons ⟨rfl, fun _ hx => (verdict_frame hx).complaint_eq⟩
    (.cons ⟨rfl, fun _ hx => (verdict_components hx).complaint_eq⟩ .nil)

theorem lenient_fields : fields.Lenient := ⟨⟨.empty, rfl⟩, ⟨[], rfl⟩, trivial⟩

/-- **A screen** is refused for the first part that does not fit, or is as described. -/
theorem verdict_decoder (hj : j.Canonical) :
    Verdict (complaint j) (fun s => s = described j) (decoder.ofJson .value j) := by
  rw [complaint, ← Json.recordComplaint_congr agree_checks fun x hx => hj.isPart hx]
  refine (verdict_record (by decide) lenient_fields hj.distinct).imp ?_
  rintro s ⟨-, ⟨frame, components, _⟩, ⟨hframe, hcomponents, -⟩, rfl⟩
  have hframe : frame = (described j).frame := Json.eq_getD_of_gives
    (fun x hx => verdict_frame (hj.isPart (Json.isPart_of_part hx))) hframe
  have hcomponents : components = (described j).components := Json.eq_getD_of_gives
    (fun x hx => verdict_components (hj.isPart (Json.isPart_of_part hx))) hcomponents
  rw [hframe, hcomponents]

theorem complaint_eq_none (hj : j.Canonical) : complaint j = none ↔ Fits j := by
  rw [complaint, recordComplaint_eq_none (by decide) hj.distinct]
  refine and_congr_right fun _ => and_congr (forall₂_congr fun x hx => ?_)
    ((and_iff_left trivial).trans (forall₂_congr fun x hx => ?_))
  · have hx := hj.isPart (Json.isPart_of_part hx)
    rw [Json.unlessNull_eq_none, FrameSpec.complaint_eq_none hx.distinct]
  · have hx := hj.isPart (Json.isPart_of_part hx)
    rw [Json.unlessNull_eq_none, Component.listComplaint_eq_none hx]

end Screens

/-- **The decoder of screens accepts exactly the schema.** A tree is read just if it fits, and gives
the screen that it describes; else the mismatch is that of the first part that does not fit. An
element in which no object begins with the reserved key stands for itself. -/
theorem ofTree_iff_fits (v : Json) :
    ((∃ s, ofTree v = .ok s) ↔ Fits v.canonical) ∧
      (∀ s, ofTree v = .ok s → s = described v.canonical) ∧
      (∀ m, ofTree v = .error m ↔ complaint v.canonical = some m) ∧
      ∀ e : Json, e.Unembedded → e.opened = .ok e := by
  have hv : v.canonical.Canonical := ⟨v, rfl⟩
  have hverdict : Verdict (complaint v.canonical) (fun s => s = described v.canonical) (ofTree v) :=
    verdict_decoder hv
  rw [← complaint_eq_none hv]
  exact ⟨hverdict.ok_iff, fun s hs => hverdict.of_ok hs, fun m => hverdict.error_iff,
    fun e he => Json.opened_of_unembedded he⟩

/-- An element that names no kind, but begins with the reserved key, is refused. -/
theorem unkinded_refused :
    let e : Json := .object [("a", .int 1), ("$serde_json::private::RawValue", .string "1")]
    Component.schema? e.canonical = none ∧
      ofTree (.object [("components", .array [e])]) =
        .error (.invalidLength 2 "fewer elements in map") := by
  decide +kernel

end Screen

end Artboard
