import Artboard.Proofs.Json.Parts
import Artboard.Proofs.Json.Reading
import Artboard.Proofs.Screen.Schema

/-! # The two ways to a screen

A screen is read straight from a text, or from the tree that was read from the text before.

* `Screen.asWritten`: the decoder of screens for trees as they are written. `toOption_ofText`: texts
  are read as it says.
* `Screen.Direct`: nothing in which a field of a screen is looked for begins with the reserved key.
* `Screen.ofText_iff_ofTree`: then both ways lead to the same screen. -/

namespace Artboard

open Json (Decoder Field Fields IsRecord part resolved spelled Counterpart Once recordAs_eq_ok_iff)

/-! ### Fields with scalars -/

namespace Json
variable {α : Type} {field : Field α} {o o' : Option Json} {w v : Json} {a : α}

/-- A field that takes no brackets is the same in a tree as it is written and in the canonical
tree. -/
theorem gives_scalar (hlist : ∀ js a, field.decoder.ofJson .value (.array js) ≠ .ok a)
    (hobject : ∀ ms a, field.decoder.ofJson .value (.object ms) ≠ .ok a) (h : Counterpart o o')
    (ho : ∀ w, o = some w → ¬ w.IsEmbedded) : field.Gives o a ↔ field.Gives o' a := by
  cases h with
  | none => exact Iff.rfl
  | @some w v hv =>
    show field.decoder.ofJson .value w = .ok a ↔ field.decoder.ofJson .value v.canonical = .ok a
    cases w with
    | array js =>
      rw [resolved] at hv
      obtain ⟨is, -, rfl⟩ := Option.map_eq_some_iff.mp hv
      exact iff_of_false (hlist js a) (hlist _ a)
    | object ms =>
      have hms : embeddedIn? ms = none := not_not.mp (ho _ rfl)
      rw [resolved, hms] at hv
      obtain ⟨ns, -, rfl⟩ := Option.map_eq_some_iff.mp hv
      exact iff_of_false (hobject ms a) (hobject _ a)
    | _ => cases hv; exact Iff.rfl

/-- A value that may be `null` is decoded as the value itself is. -/
theorem nullable_ofJson {d : Decoder α} {default : α} (source : Source) (hw : w ≠ .null) :
    (d.nullable default).ofJson source w = d.ofJson source w := by
  show (d.optional.ofJson source w).map _ = _
  rw [Decoder.ofJson_optional source hw]
  cases d.ofJson source w <;> rfl

/-- A tree that does not begin with the reserved key is `null` just if its canonical tree is. -/
theorem eq_null_iff_of_resolved (hw : ¬ w.IsEmbedded) (hv : resolved spelled w = some v) :
    v.canonical = .null ↔ w = .null := by
  cases w with
  | array js =>
    rw [resolved] at hv
    obtain ⟨is, -, rfl⟩ := Option.map_eq_some_iff.mp hv
    simp [canonical]
  | object ms =>
    have hms : embeddedIn? ms = none := not_not.mp hw
    rw [resolved, hms] at hv
    obtain ⟨ns, -, rfl⟩ := Option.map_eq_some_iff.mp hv
    simp [canonical]
  | _ => cases hv; simp [canonical]

/-- So is a field that may be `null`. -/
theorem gives_nullable {d d' : Decoder α} {name : String} {default : α} (h : Counterpart o o')
    (ho : ∀ w, o = some w → ¬ w.IsEmbedded)
    (hd : ∀ w v, o = some w → o' = some v.canonical → resolved spelled w = some v →
      (d.ofJson .value w = .ok a ↔ d'.ofJson .value v.canonical = .ok a)) :
    (Field.default name default (d.nullable default)).Gives o a ↔
      (Field.default name default (d'.nullable default)).Gives o' a := by
  cases h with
  | none => exact Iff.rfl
  | @some w v hv =>
    show (d.nullable default).ofJson .value w = .ok a ↔
      (d'.nullable default).ofJson .value v.canonical = .ok a
    have hnull := eq_null_iff_of_resolved (ho w rfl) hv
    by_cases hw : w = .null
    · rw [hw, hnull.mpr hw]; exact Iff.rfl
    · rw [nullable_ofJson .value hw, nullable_ofJson .value (mt hnull.mp hw)]
      exact hd w v rfl rfl hv

end Json

/-! ### Frames -/

namespace FrameSpec
variable {j w v : Json} {f : FrameSpec}

theorem ofJson_eq_ok_iff (hj : j.Once ["name", "width", "height"]) :
    decoder.ofJson .value j = .ok f ↔ IsRecord 3 j ∧
      ∃ values, schema.fields.Gives (part j) 0 values ∧
        f = ⟨values.1, values.2.1, values.2.2.1⟩ :=
  recordAs_eq_ok_iff (by decide) schema.lenient_fields hj

/-- The places of a frame's fields. -/
def places : List (Nat × String) := [(0, "name"), (1, "width"), (2, "height")]

/-- A frame without values that begin with the reserved key is decoded from the canonical tree as it
is from the tree as it is written. -/
theorem decoder_iff (hw : ¬ w.IsEmbedded) (hv : resolved spelled w = some v)
    (honce : w.Once ["name", "width", "height"])
    (hparts : ∀ p ∈ places, ∀ x, part w p.1 p.2 = some x → ¬ x.IsEmbedded) :
    decoder.ofJson .value w = .ok f ↔ decoder.ofJson .value v.canonical = .ok f := by
  have hpart (p : Nat × String) : Counterpart (part w p.1 p.2) (part v.canonical p.1 p.2) :=
    Json.counterpart_part hw hv p.1 p.2
  have hgives (values : schema.Values) :
      schema.fields.Gives (part w) 0 values ↔ schema.fields.Gives (part v.canonical) 0 values :=
    and_congr (Json.gives_scalar (fun _ _ h => by cases h) (fun _ _ h => by cases h)
        (hpart (0, "name")) (hparts (0, "name") (by decide)))
      (and_congr (Json.gives_scalar (fun _ _ h => by cases h) (fun _ _ h => by cases h)
          (hpart (1, "width")) (hparts (1, "width") (by decide)))
        (and_congr (Json.gives_scalar (fun _ _ h => by cases h) (fun _ _ h => by cases h)
          (hpart (2, "height")) (hparts (2, "height") (by decide))) Iff.rfl))
  rw [ofJson_eq_ok_iff honce,
    ofJson_eq_ok_iff (Json.once_of_distinct (Json.distinct_canonical v) _),
    Json.isRecord_counterpart hw hv]
  exact and_congr_right fun _ => exists_congr fun values => and_congr_left fun _ => hgives values

theorem faithful_decoder : decoder.Faithful := by
  have hfields : schema.fields.Faithful :=
    ⟨Json.faithful_string.optional, Json.faithful_number.optional, Json.faithful_number.optional,
      trivial⟩
  unfold decoder Decoder.record
  exact Json.faithful_recordAs hfields

end FrameSpec

/-! ### Components -/

namespace Component

/-- The decoder of components, for trees as they are written. -/
def asWritten : Decoder Component := Decoder.unfolded.convert ofJson

variable {w v : Json} {cs : List Component}

/-- Components whose canonical trees have nothing to open are decoded from these. -/
theorem ofItems_asWritten : ∀ {ws vs : List Json}, Json.resolvedItems spelled ws = some vs →
    (∀ e ∈ Json.canonicalItems vs, e.Unembedded) →
      Decoder.ofItems (asWritten.ofJson .value) ws =
        Decoder.ofItems (decoder.ofJson .value) (Json.canonicalItems vs)
  | [], _, h, _ => by cases h; rfl
  | w :: ws, vs, h, hvs => by
    rw [Json.resolvedItems] at h
    obtain ⟨v, hv, h⟩ := Option.bind_eq_some_iff.mp h
    obtain ⟨vs, hws, rfl⟩ := Option.map_eq_some_iff.mp h
    rw [Json.canonicalItems] at hvs ⊢
    obtain ⟨hfirst, hvs⟩ := List.forall_mem_cons.mp hvs
    have hwritten : asWritten.ofJson .value w = ofJson v.canonical := by
      show (Decoder.unfolded.ofJson .value w).bind ofJson = _
      rw [Json.unfolded_of_resolved .value hv]; rfl
    have hdecoder : decoder.ofJson .value v.canonical = ofJson v.canonical := by
      show v.canonical.opened.bind ofJson = _
      rw [Json.opened_of_unembedded hfirst]; rfl
    rw [Decoder.ofItems, Decoder.ofItems, hwritten, hdecoder, ofItems_asWritten hws hvs]

theorem list_iff (hw : ¬ w.IsEmbedded) (hv : resolved spelled w = some v)
    (helements : ∀ es, v.canonical = .array es → ∀ e ∈ es, e.Unembedded) :
    (Decoder.list asWritten).ofJson .value w = .ok cs ↔
      (Decoder.list decoder).ofJson .value v.canonical = .ok cs := by
  cases w with
  | array ws =>
    rw [resolved] at hv
    obtain ⟨vs, hvs, rfl⟩ := Option.map_eq_some_iff.mp hv
    show Decoder.ofItems (asWritten.ofJson .value) ws = .ok cs ↔ _
    rw [ofItems_asWritten hvs (helements _ rfl)]; rfl
  | object ms =>
    have hms : Json.embeddedIn? ms = none := not_not.mp hw
    rw [resolved, hms] at hv
    obtain ⟨ns, -, rfl⟩ := Option.map_eq_some_iff.mp hv
    exact iff_of_false (fun h => by cases h) (fun h => by cases h)
  | _ => cases hv; exact iff_of_false (fun h => by cases h) (fun h => by cases h)

end Component

/-! ### Screens -/

namespace Screen

/-- The fields of screens, for trees as they are written. -/
def fieldsAsWritten : Fields (FrameSpec × List Component × Unit) :=
  .cons (.default "frame" .empty (.nullable .empty FrameSpec.decoder))
    (.cons (.default "components" [] (.nullable [] (.list Component.asWritten))) .nil)

/-- The decoder of screens, for trees as they are written. -/
def asWritten : Decoder Screen :=
  .record "GenerationRequest" fieldsAsWritten fun (frame, components, _) => ⟨frame, components⟩

theorem faithful_asWritten : asWritten.Faithful := by
  have hcomponent : Component.asWritten.Faithful := Json.faithful_unfolded.convert _
  have hfields : fieldsAsWritten.Faithful :=
    ⟨FrameSpec.faithful_decoder.nullable _, hcomponent.list.nullable _, trivial⟩
  unfold asWritten Decoder.record
  exact Json.faithful_recordAs hfields

theorem read_asWritten : asWritten.read = decoder.read := Json.recordAs_read_congr

/-- A text is read as the tree as it is written. -/
theorem toOption_ofText {t : Json.Text} {w : Json} (h : Json.complete Json.written t = .ok w) :
    (ofText t).toOption = (asWritten.ofJson .value w).toOption := by
  rw [← faithful_asWritten.toOption_parse h]
  show (Json.complete decoder.read t).toOption = (Json.complete asWritten.read t).toOption
  rw [read_asWritten]

section Trees
variable {j w v : Json} {s : Screen}

theorem ofJson_eq_ok_iff (hj : j.Once ["frame", "components"]) :
    decoder.ofJson .value j = .ok s ↔ IsRecord 2 j ∧
      ∃ values, fields.Gives (part j) 0 values ∧ s = ⟨values.1, values.2.1⟩ :=
  recordAs_eq_ok_iff (by decide) lenient_fields hj

theorem asWritten_eq_ok_iff (hj : j.Once ["frame", "components"]) :
    asWritten.ofJson .value j = .ok s ↔ IsRecord 2 j ∧
      ∃ values, fieldsAsWritten.Gives (part j) 0 values ∧ s = ⟨values.1, values.2.1⟩ :=
  recordAs_eq_ok_iff (by decide) ⟨⟨.empty, rfl⟩, ⟨[], rfl⟩, trivial⟩ hj

/-- **No tree in which a field of a screen is looked for begins with the reserved key**: not the
screen as it is written, its frame, the values in it or the list of components; and nothing in the
canonical trees of the components does. -/
structure Direct (w v : Json) : Prop where
  screen : ¬ w.IsEmbedded
  frame : ∀ f, part w 0 "frame" = some f → ¬ f.IsEmbedded
  inFrame : ∀ f, part w 0 "frame" = some f →
    ∀ p ∈ FrameSpec.places, ∀ x, part f p.1 p.2 = some x → ¬ x.IsEmbedded
  components : ∀ cs, part w 1 "components" = some cs → ¬ cs.IsEmbedded
  elements : ∀ es, part v.canonical 1 "components" = some (.array es) → ∀ e ∈ es, e.Unembedded

/-- Then a screen is decoded from the canonical tree as it is from the tree as it is written. -/
theorem asWritten_iff_decoder (hv : resolved spelled w = some v)
    (honce : w.Once ["frame", "components"])
    (hframe : ∀ f, part w 0 "frame" = some f → f.Once ["name", "width", "height"])
    (hdirect : Direct w v) :
    asWritten.ofJson .value w = .ok s ↔ decoder.ofJson .value v.canonical = .ok s := by
  have hgives (values : FrameSpec × List Component × Unit) :
      fieldsAsWritten.Gives (part w) 0 values ↔ fields.Gives (part v.canonical) 0 values := by
    refine and_congr ?_ (and_congr ?_ Iff.rfl)
    · refine Json.gives_nullable (Json.counterpart_part hdirect.screen hv 0 "frame")
        hdirect.frame ?_
      intro f v' hf _ hv'
      exact FrameSpec.decoder_iff (hdirect.frame f hf) hv' (hframe f hf) (hdirect.inFrame f hf)
    · refine Json.gives_nullable (Json.counterpart_part hdirect.screen hv 1 "components")
        hdirect.components ?_
      intro cs v' hcs hv'' hv'
      refine Component.list_iff (hdirect.components cs hcs) hv' fun es hes => ?_
      exact hdirect.elements es (hv''.trans (congrArg some hes))
  rw [asWritten_eq_ok_iff honce,
    ofJson_eq_ok_iff (Json.once_of_distinct (Json.distinct_canonical v) _),
    Json.isRecord_counterpart hdirect.screen hv]
  exact and_congr_right fun _ => exists_congr fun values => and_congr_left fun _ => hgives values

/-- **Both ways to a screen lead to the same one.** Let a text read as JSON, as a tree `w` in which
neither the screen nor its frame repeats a known key, and in which nothing that a field is looked
for in begins with the reserved key. Then the text describes a screen just if its tree does, and it
is the same screen. -/
theorem ofText_iff_ofTree {t : Json.Text} {v : Json} (hv : Json.parse t = .ok v) :
    ∃ w, Json.complete Json.written t = .ok w ∧
      (w.Once ["frame", "components"] →
        (∀ f, part w 0 "frame" = some f → f.Once ["name", "width", "height"]) → Direct w v →
          ∀ s, ofText t = .ok s ↔ ofTree v = .ok s) := by
  obtain ⟨w, hw, hresolved⟩ := Json.parse_eq_ok.mp hv
  refine ⟨w, hw, fun honce hframe hdirect s => ?_⟩
  have htext : ofText t = .ok s ↔ asWritten.ofJson .value w = .ok s := by
    rw [← Json.toOption_eq_some, toOption_ofText hw, Json.toOption_eq_some]
  exact htext.trans (asWritten_iff_decoder hresolved honce hframe hdirect)

end Trees

/-- A frame in brackets under an escaped key, after an unknown key and a component that repeats a
key. -/
theorem ofText_iff_ofTree_login :
    let t := Json.Text.ofString
      ("\x7b\"components\":[\x7b\"type\":\"text\",\"type\":\"tabs\"\x7d],\"extra\":[]," ++
        "\"fra\\u006de\":[\"Login\"]\x7d")
    let v := Json.object [("components", .array [.object [("type", .string "text"),
      ("type", .string "tabs")]]), ("extra", .array []), ("frame", .array [.string "Login"])]
    let s : Screen := ⟨⟨some "Login", none, none⟩, [.unknown (some "tabs")]⟩
    Json.parse t = .ok v ∧ ofTree v = .ok s ∧ ofText t = .ok s := by
  intro t v s
  have hv : Json.parse t = .ok v := Json.eq_ok_of_same (by decide +kernel)
  have hw : Json.complete Json.written t = .ok v := Json.eq_ok_of_same (by decide +kernel)
  have hs : ofTree v = .ok s := by decide +kernel
  obtain ⟨w, hw', h⟩ := ofText_iff_ofTree hv
  obtain rfl : v = w := Except.ok.inj (hw.symm.trans hw')
  have honce : v.Once ["frame", "components"] := by simp [v, Once, Json.keys]
  have hframe (f : Json) (hf : part v 0 "frame" = some f) : f = .array [.string "Login"] :=
    (Option.some.inj hf).symm
  have hcomponents (cs : Json) (hcs : part v 1 "components" = some cs) :
      ∃ es, cs = .array es := ⟨_, (Option.some.inj hcs).symm⟩
  have hdirect : Direct v v :=
    { screen := fun h => h (by decide +kernel)
      frame := fun f hf => by rw [hframe f hf]; exact id
      inFrame := fun f hf p hp x hx => by
        rw [hframe f hf] at hx
        rcases List.mem_cons.mp hp with rfl | hp
        · obtain rfl : x = .string "Login" := (Option.some.inj hx).symm
          exact id
        · rcases List.mem_pair.mp hp with rfl | rfl <;> cases hx
      components := fun cs hcs => by
        obtain ⟨es, rfl⟩ := hcomponents cs hcs
        exact id
      elements := fun es hes e he => by
        obtain rfl : es = [.object [("type", .string "tabs")]] :=
          (Json.array.inj (Option.some.inj hes)).symm
        obtain rfl := List.mem_singleton.mp he
        exact ⟨by decide +kernel, trivial, trivial⟩ }
  refine ⟨hv, hs, (h honce (fun f hf => ?_) hdirect s).mpr hs⟩
  rw [hframe f hf]
  trivial

/-- A text that begins with the reserved key describes the empty screen, its tree another one. -/
theorem opened_in_tree_only :
    let t := Json.Text.ofString ("\x7b\"$serde_json::private::RawValue\":" ++
      "\"\x7b\\\"frame\\\":\x7b\\\"name\\\":\\\"raw\\\"\x7d\x7d\"\x7d")
    let v := Json.object [("frame", .object [("name", .string "raw")])]
    Json.parse t = .ok v ∧ ofText t = .ok .empty ∧
      ofTree v = .ok ⟨⟨some "raw", none, none⟩, []⟩ ∧
      ¬ ∀ s, ofText t = .ok s ↔ ofTree v = .ok s := by
  intro t v
  have hv : Json.parse t = .ok v := Json.eq_ok_of_same (by decide +kernel)
  have htext : ofText t = .ok .empty := by decide +kernel
  have htree : ofTree v = .ok ⟨⟨some "raw", none, none⟩, []⟩ := by decide +kernel
  refine ⟨hv, htext, htree, fun h => ?_⟩
  have hsame := ((h .empty).mp htext).symm.trans htree
  exact absurd (Except.ok.inj hsame) (by decide)

end Screen

end Artboard
