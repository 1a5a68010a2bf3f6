import Artboard.Proofs.Screen.Routes
import Artboard.Proofs.Shape.Wire

/-! # Specs on the wire

* `FrameSpec.numbers`, `Component.numbers` and the like: the numbers of which a spec consists.
* `TextSpec.carries` and the like: the tree of a spec carries it, if its numbers are restored, and
  the tree of a component's attributes does so with a tag among its members.
* `Component.survives`: a component comes back from its attributes with its kind.
* `survives`: frames, weights, specs, components, kinds and shapes come back from their texts. -/

namespace Artboard

open Json (Decoder Fields Field)
open Number (Restored)

/-! ### Specs -/

namespace FrameSpec

/-- The numbers of a frame. -/
def numbers (f : FrameSpec) : List Float := f.width.toList ++ f.height.toList

theorem carries {f : FrameSpec} (h : ∀ x ∈ f.numbers, Restored x) (depth : Nat) :
    decoder.Carries (depth + 1) f f.toJson := by
  simp only [numbers, List.forall_mem_append] at h
  obtain ⟨hwidth, hheight⟩ := h
  exact Json.carries_record rfl (by decide) (by decide)
    (.string (.number hwidth (.number hheight .nil))) rfl

end FrameSpec

namespace FontWeight

/-- The number of a weight, if it is one. -/
def numbers : FontWeight → List Float
  | .numeric weight => [weight]
  | .named _ => []

theorem carries {w : FontWeight} (h : ∀ x ∈ w.numbers, Restored x) (depth : Nat) :
    decoder.Carries depth w w.toJson := by
  cases w with
  | numeric weight =>
    have hweight := h weight List.mem_cons_self
    rw [toJson, Json.ofFloat_of_isFinite hweight.finite]
    exact ⟨fun _ => ⟨rfl, rfl⟩, hweight.isScalar, ⟨trivial, trivial⟩, Json.noConfusion⟩
  | named name => exact ⟨fun _ => ⟨rfl, rfl⟩, trivial, ⟨trivial, trivial⟩, Json.noConfusion⟩

theorem faithful_decoder : decoder.Faithful := by
  have hwritten : Decoder.written.Faithful := fun depth text rest w h => by
    show (Json.written depth text).toOption = _
    rw [Json.written_eq_ok.mpr h]; rfl
  exact hwritten.convert ofJson

end FontWeight

namespace TextSpec

/-- The numbers of a text component. -/
def numbers (t : TextSpec) : List Float :=
  t.x.toList ++ t.y.toList ++ t.fontSize.toList ++ t.fontWeight.toList.flatMap FontWeight.numbers

theorem carries {t : TextSpec} (h : ∀ x ∈ t.numbers, Restored x) (depth : Nat) :
    decoder.CarriesWithTag (depth + 1) t t.toJson := by
  simp only [numbers, List.forall_mem_append, List.mem_flatMap] at h
  obtain ⟨⟨⟨hx, hy⟩, hsize⟩, hweight⟩ := h
  have hweight : ∀ w ∈ t.fontWeight.toList, FontWeight.decoder.Carries depth w w.toJson :=
    fun w hw => FontWeight.carries (fun x hx => hweight x ⟨w, hw, hx⟩) depth
  exact Json.carriesWithTag_record rfl (by decide) (by decide) (by decide)
    (.number hx (.number hy (.string (.number hsize (.ofOption hweight (.string .nil)))))) rfl

theorem faithful_decoder : decoder.Faithful := by
  unfold decoder Decoder.record
  exact Json.faithful_recordAs ⟨Json.faithful_number.optional, Json.faithful_number.optional,
    Json.faithful_string.optional, Json.faithful_number.optional,
    FontWeight.faithful_decoder.optional, Json.faithful_string.optional, trivial⟩

end TextSpec

namespace RectangleSpec

/-- The numbers of a rectangle component. -/
def numbers (r : RectangleSpec) : List Float :=
  r.x.toList ++ r.y.toList ++ r.width.toList ++ r.height.toList

theorem carries {r : RectangleSpec} (h : ∀ x ∈ r.numbers, Restored x) (depth : Nat) :
    decoder.CarriesWithTag (depth + 1) r r.toJson := by
  simp only [numbers, List.forall_mem_append] at h
  obtain ⟨⟨⟨hx, hy⟩, hwidth⟩, hheight⟩ := h
  exact Json.carriesWithTag_record rfl (by decide) (by decide) (by decide)
    (.number hx (.number hy (.number hwidth (.number hheight (.string .nil))))) rfl

theorem faithful_decoder : decoder.Faithful := by
  unfold decoder Decoder.record
  exact Json.faithful_recordAs ⟨Json.faithful_number.optional, Json.faithful_number.optional,
    Json.faithful_number.optional, Json.faithful_number.optional, Json.faithful_string.optional,
    trivial⟩

end RectangleSpec

namespace ButtonSpec

/-- The numbers of a button. -/
def numbers (b : ButtonSpec) : List Float :=
  b.x.toList ++ b.y.toList ++ b.width.toList ++ b.height.toList ++ b.borderRadius.toList

theorem carries {b : ButtonSpec} (h : ∀ x ∈ b.numbers, Restored x) (depth : Nat) :
    decoder.CarriesWithTag (depth + 1) b b.toJson := by
  simp only [numbers, List.forall_mem_append] at h
  obtain ⟨⟨⟨⟨hx, hy⟩, hwidth⟩, hheight⟩, hradius⟩ := h
  exact Json.carriesWithTag_record rfl (by decide) (by decide) (by decide)
    (.number hx (.number hy (.number hwidth (.number hheight
      (.string (.string (.string (.number hradius .nil)))))))) rfl

theorem faithful_decoder : decoder.Faithful := by
  unfold decoder Decoder.record
  exact Json.faithful_recordAs ⟨Json.faithful_number.optional, Json.faithful_number.optional,
    Json.faithful_number.optional, Json.faithful_number.optional, Json.faithful_string.optional,
    Json.faithful_string.optional, Json.faithful_string.optional, Json.faithful_number.optional,
    trivial⟩

end ButtonSpec

namespace InputSpec

/-- The numbers of an input. -/
def numbers (i : InputSpec) : List Float :=
  i.x.toList ++ i.y.toList ++ i.width.toList ++ i.height.toList

theorem carries {i : InputSpec} (h : ∀ x ∈ i.numbers, Restored x) (depth : Nat) :
    decoder.CarriesWithTag (depth + 1) i i.toJson := by
  simp only [numbers, List.forall_mem_append] at h
  obtain ⟨⟨⟨hx, hy⟩, hwidth⟩, hheight⟩ := h
  exact Json.carriesWithTag_record rfl (by decide) (by decide) (by decide)
    (.number hx (.number hy (.number hwidth (.number hheight (.string .nil))))) rfl

theorem faithful_decoder : decoder.Faithful := by
  unfold decoder Decoder.record
  exact Json.faithful_recordAs ⟨Json.faithful_number.optional, Json.faithful_number.optional,
    Json.faithful_number.optional, Json.faithful_number.optional, Json.faithful_string.optional,
    trivial⟩

end InputSpec

/-! ### Components -/

namespace Json

/-- What a whole text is decoded as by way of its tree. -/
theorem parse_value_convert {α : Type} {f : Json → Except Mismatch α} {text : Text} {j : Json}
    {a : α} (hj : parse text = .ok j) (ha : f j.canonical = .ok a) :
    (Decoder.value.convert f).parse text = .ok a := by
  obtain ⟨rest, htree, hrest⟩ := complete_eq_ok.mp hj
  refine complete_eq_ok.mpr ⟨rest, ?_, hrest⟩
  simp only [Decoder.convert, Decoder.value, htree, Except.map, ha]

end Json

namespace Component

/-- The numbers of a component. -/
def numbers : Component → List Float
  | .text spec => spec.numbers
  | .button spec => spec.numbers
  | .input spec => spec.numbers
  | .rectangle spec => spec.numbers
  | .unknown _ => []

/-- A component that is decoded by its kind comes back from its attributes with the kind, wherever
this stands among them. -/
theorem survives_of_carries {α : Type} (wrap : α → Component) {d : Decoder α} {a : α} {j : Json}
    {kind : String} {before after : List (String × Json)}
    (h : d.CarriesWithTag Json.depthLimit a j)
    (hofJson : ∀ i : Json, (i.member? "type").bind Json.string? = some kind →
      ofJson i = (d.ofJson .value i).map wrap) (hj : j = .object (before ++ after)) :
    decoder.Survives (wrap a)
      (.object (before ++ (Json.Tagged.key, .string kind) :: after)) := by
  obtain ⟨hall, hcarries⟩ := h.tagged before after kind hj
  have hparse := Json.parse_compact hcarries.legible hcarries.closed.1
  generalize hms : before ++ (Json.Tagged.key, Json.string kind) :: after = ms at *
  have hlookup : Json.lookup Json.Tagged.key ms = some (.string kind) :=
    Json.lookup_of_mem hall (by simp [← hms])
  have hkind : ((Json.object ms).canonical.member? "type").bind Json.string? = some kind := by
    show (Json.lookup Json.Tagged.key (Json.canonicalMembers ms)).bind Json.string? = some kind
    rw [Json.lookup_canonicalMembers, hlookup]
    rfl
  have hvalue := hofJson _ hkind
  rw [(hcarries.recovers .value).2] at hvalue
  refine ⟨Json.parse_value_convert hparse hvalue, hparse, ?_⟩
  show (Json.object ms).canonical.opened.bind ofJson = _
  rw [Json.opened_of_unembedded hcarries.closed.2]
  exact hvalue

/-- **A component comes back** from its attributes with its kind among them. -/
theorem survives {c : Component} (h : ∀ x ∈ c.numbers, Restored x) (hc : c.isKnown = true) :
    ∃ ms, c.attributes? = some (.object ms) ∧
      ∀ before after : List (String × Json), before ++ after = ms →
        decoder.Survives c (.object (before ++ ("type", .string c.kind) :: after)) := by
  cases c with
  | text spec =>
    refine ⟨_, rfl, fun before after hms => survives_of_carries .text (spec.carries h _)
      (fun i hi => ?_) (hms ▸ rfl)⟩
    rw [ofJson, hi]
    rfl
  | button spec =>
    refine ⟨_, rfl, fun before after hms => survives_of_carries .button (spec.carries h _)
      (fun i hi => ?_) (hms ▸ rfl)⟩
    rw [ofJson, hi]
    rfl
  | input spec =>
    refine ⟨_, rfl, fun before after hms => survives_of_carries .input (spec.carries h _)
      (fun i hi => ?_) (hms ▸ rfl)⟩
    rw [ofJson, hi]
    rfl
  | rectangle spec =>
    refine ⟨_, rfl, fun before after hms => survives_of_carries .rectangle (spec.carries h _)
      (fun i hi => ?_) (hms ▸ rfl)⟩
    rw [ofJson, hi]
    rfl
  | unknown kind => cases hc

end Component

/-! ### All of them -/

/-- **Specs and shapes survive the wire.** Let their numbers be finite and read back from their
digits, and let ids have 128 bits. Then they are decoded straight from their compact text and from
the tree in it, and a component is decoded from the attributes of its spec with its kind, wherever
this stands among them. -/
theorem survive_wire :
    (∀ f : FrameSpec, (∀ x ∈ f.numbers, Restored x) → FrameSpec.decoder.Survives f f.toJson) ∧
    (∀ t : TextSpec, (∀ x ∈ t.numbers, Restored x) → TextSpec.decoder.Survives t t.toJson) ∧
    (∀ r : RectangleSpec, (∀ x ∈ r.numbers, Restored x) →
      RectangleSpec.decoder.Survives r r.toJson) ∧
    (∀ b : ButtonSpec, (∀ x ∈ b.numbers, Restored x) → ButtonSpec.decoder.Survives b b.toJson) ∧
    (∀ i : InputSpec, (∀ x ∈ i.numbers, Restored x) → InputSpec.decoder.Survives i i.toJson) ∧
    (∀ k : ShapeKind, (∀ x ∈ k.numbers, Restored x) → ShapeKind.decoder.Survives k k.toJson) ∧
    (∀ s : Shape, (∀ x ∈ s.numbers, Restored x) → (∀ id ∈ s.ids, id.Fits) →
      Shape.decoder.Survives s s.toJson) ∧
    ∀ c : Component, (∀ x ∈ c.numbers, Restored x) → c.isKnown = true →
      ∃ ms, c.attributes? = some (.object ms) ∧
        ∀ before after : List (String × Json), before ++ after = ms →
          Component.decoder.Survives c (.object (before ++ ("type", .string c.kind) :: after)) :=
  ⟨fun f h => (f.carries h _).survives FrameSpec.faithful_decoder,
    fun t h => (t.carries h _).plain.survives TextSpec.faithful_decoder,
    fun r h => (r.carries h _).plain.survives RectangleSpec.faithful_decoder,
    fun b h => (b.carries h _).plain.survives ButtonSpec.faithful_decoder,
    fun i h => (i.carries h _).plain.survives InputSpec.faithful_decoder,
    fun k h => (k.carries h _).survives ShapeKind.faithful_decoder,
    fun s h hids => (s.carries h hids _).survives Shape.faithful_decoder,
    fun c h hc => c.survives h hc⟩

/-- Numbers with and without an exponent, a negative zero and a number below all normal ones,
weights of both kinds, characters that are escaped, and a kind among other members. -/
theorem survive_wire_shapes :
    let t : TextSpec :=
      ⟨some 12.5, some 5e-324, some "\"\\\n\x1f é", some 1e300, some (.numeric 600.0), none⟩
    let b : ButtonSpec := ⟨some (-0.0), none, some 1e-7, some 40.0, some "", none, none, some 8.0⟩
    let s : Shape := ⟨⟨340282366920938463463374607431768211455⟩, "a", .text "b" (some 24.0)
      (some "bold"), ⟨0.1, -3.0, 100.0, 20.0⟩, [⟨"#fff"⟩], [⟨"#000", 1.5⟩], none, some ⟨1⟩, [⟨2⟩, ⟨3⟩]⟩
    (∀ x ∈ t.numbers, Restored x) ∧ (∀ x ∈ b.numbers, Restored x) ∧
      (∀ x ∈ s.numbers, Restored x) ∧ (∀ id ∈ s.ids, id.Fits) ∧
      TextSpec.decoder.Survives t t.toJson ∧ Shape.decoder.Survives s s.toJson ∧
      Component.decoder.Survives (.button b) (.object [("x", .ofFloat (-0.0)), ("y", .null),
        ("width", .ofFloat 1e-7), ("height", .ofFloat 40.0), ("text", .string ""),
        ("type", .string "button"), ("backgroundColor", .null), ("textColor", .null),
        ("borderRadius", .ofFloat 8.0)]) := by
  intro t b s
  have ht : ∀ x ∈ t.numbers, Restored x := by decide +kernel
  have hb : ∀ x ∈ b.numbers, Restored x := by decide +kernel
  have hs : ∀ x ∈ s.numbers, Restored x := by decide +kernel
  have hids : ∀ id ∈ s.ids, id.Fits := by decide +kernel
  obtain ⟨-, htext, -, -, -, -, hshape, hcomponent⟩ := survive_wire
  obtain ⟨ms, hms, htyped⟩ := hcomponent (.button b) hb rfl
  refine ⟨ht, hb, hs, hids, htext t ht, hshape s hs hids, ?_⟩
  cases hms
  exact htyped [("x", .ofFloat (-0.0)), ("y", .null), ("width", .ofFloat 1e-7),
    ("height", .ofFloat 40.0), ("text", .string "")] [("backgroundColor", .null),
    ("textColor", .null), ("borderRadius", .ofFloat 8.0)] rfl

end Artboard
