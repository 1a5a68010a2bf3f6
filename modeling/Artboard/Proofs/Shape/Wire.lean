import Artboard.Proofs.Json.Carried
import Artboard.Proofs.Shape.Id
import Artboard.Shape.Wire

/-! # Shapes on the wire

* `ShapeKind.numbers`, `Shape.numbers`, `Shape.ids`: the numbers and ids of which a shape consists.
* `ShapeId.carries`, `ShapeKind.carries`, `Shape.carries` and the like: the tree of each part
  carries it, if its numbers are restored and its ids have 128 bits.
* `faithful_decoder` in each case: what is read from a text is what is decoded from the tree. -/

namespace Artboard

open Json (Decoder Fields Field)
open Number (Restored)

/-! ### Ids -/

namespace ShapeId

/-- An id has 128 bits. -/
def Fits (id : ShapeId) : Prop := id.number < Nat.pow 2 128

instance (id : ShapeId) : Decidable id.Fits := inferInstanceAs (Decidable (_ < _))

theorem carries {id : ShapeId} (h : id.Fits) (depth : Nat) :
    decoder.Carries depth id id.toJson := by
  have hjson (source : Json.Source) : decoder.ofJson source id.toJson = .ok id := by
    simp only [decoder, Decoder.scalar, toJson]
    rw [parse?_text h]
  have hcanonical : id.toJson.canonical = id.toJson := by rw [toJson, Json.canonical]
  exact ⟨fun source => ⟨hjson source, by rw [hcanonical]; exact hjson source⟩, trivial,
    ⟨trivial, trivial⟩, Json.noConfusion⟩

theorem faithful_decoder : decoder.Faithful := Json.faithful_scalar (fun _ => rfl) fun _ => rfl

end ShapeId

/-! ### Parts of shapes -/

namespace Fill

theorem carries (f : Fill) (depth : Nat) : decoder.Carries (depth + 1) f f.toJson :=
  Json.carries_record rfl (by decide) (by decide)
    (.required (Json.carries_string f.color) .nil) rfl

theorem faithful_decoder : decoder.Faithful := by
  unfold decoder Decoder.record
  exact Json.faithful_recordAs ⟨Json.faithful_string, trivial⟩

end Fill

namespace Stroke

theorem carries {s : Stroke} (h : Restored s.width) (depth : Nat) :
    decoder.Carries (depth + 1) s s.toJson :=
  Json.carries_record rfl (by decide) (by decide)
    (.required (Json.carries_string s.color) (.required (Json.carries_number h) .nil)) rfl

theorem faithful_decoder : decoder.Faithful := by
  unfold decoder Decoder.record
  exact Json.faithful_recordAs ⟨Json.faithful_string, Json.faithful_number, trivial⟩

end Stroke

namespace Geometry

/-- The numbers of a geometry. -/
def numbers (g : Geometry) : List Float := [g.x, g.y, g.width, g.height]

theorem carries {g : Geometry} (h : ∀ x ∈ g.numbers, Restored x) (depth : Nat) :
    decoder.Carries (depth + 1) g g.toJson := by
  simp only [numbers, List.forall_mem_cons] at h
  obtain ⟨hx, hy, hwidth, hheight, -⟩ := h
  exact Json.carries_record rfl (by decide) (by decide)
    (.required (Json.carries_number hx) (.required (Json.carries_number hy)
      (.required (Json.carries_number hwidth) (.required (Json.carries_number hheight) .nil)))) rfl

theorem faithful_decoder : decoder.Faithful := by
  unfold decoder Decoder.record
  exact Json.faithful_recordAs ⟨Json.faithful_number, Json.faithful_number, Json.faithful_number,
    Json.faithful_number, trivial⟩

end Geometry

namespace ShapeKind

/-- The numbers of a kind. -/
def numbers : ShapeKind → List Float
  | .text _ fontSize _ => fontSize.toList
  | _ => []

/-- What a text has beside its tag. -/
def textMembers (content : String) (fontSize : Option Float) (fontWeight : Option String) :
    List (String × Json) :=
  ("content", .string content) :: (Json.ifPresent "fontSize" .ofFloat fontSize ++
    (Json.ifPresent "fontWeight" .string fontWeight ++ []))

/-- The fields of a text beside its tag. -/
def textFields : Fields (String × Option Float × Option String × Unit) :=
  .cons (.required "content" .string) (.cons (.placed "fontSize" .number)
    (.cons (.placed "fontWeight" .string) .nil))

section Text
variable (content : String) {fontSize : Option Float} (fontWeight : Option String)

theorem members_text : (text content fontSize fontWeight).members =
    (Json.Tagged.key, .string "text") :: textMembers content fontSize fontWeight := by
  simp [members, textMembers, Json.Tagged.key]

theorem carry_text (h : ∀ x ∈ fontSize.toList, Restored x) (depth : Nat) :
    textFields.Carry depth (content, fontSize, fontWeight, ())
      (textMembers content fontSize fontWeight) :=
  .required (Json.carries_string content) (.ifPresent (fun x hx => Json.carries_number (h x hx))
    (.ifPresent (fun s _ => Json.carries_string s) .nil))

end Text

theorem carries {k : ShapeKind} (h : ∀ x ∈ k.numbers, Restored x) (depth : Nat) :
    decoder.Carries (depth + 1) k k.toJson := by
  cases k with
  | board =>
    exact Json.carries_tagged (v := .unit "board" .board) rfl (by decide) (by decide) rfl rfl
      (List.forall_mem_nil _)
  | rectangle =>
    exact Json.carries_tagged (v := .unit "rectangle" .rectangle) rfl (by decide) (by decide) rfl
      rfl (List.forall_mem_nil _)
  | text content fontSize fontWeight =>
    have hcarry := carry_text content fontWeight h depth
    have htext : textDecoder.Carries (depth + 1) (text content fontSize fontWeight)
        (.object (textMembers content fontSize fontWeight)) := by
      unfold textDecoder
      exact Json.carries_recordAs _ _ (by decide) (by decide) hcarry
    have hkeys : ∀ key, key ∉ textFields.names →
        key ∉ Json.keys (textMembers content fontSize fontWeight) :=
      fun key hkey hmem => hkey (hcarry.keys_sublist.subset hmem)
    rw [toJson, members_text]
    exact Json.carries_tagged (v := .record "text" textDecoder) rfl (hkeys _ (by decide))
      (hkeys _ (by decide)) (htext.recovers .buffer).1 (htext.recovers .buffer).2
      hcarry.member_sound

theorem faithful_decoder : decoder.Faithful := Json.faithful_tagged

end ShapeKind

/-! ### Shapes -/

namespace Shape

/-- The numbers of a shape. -/
def numbers (s : Shape) : List Float :=
  s.kind.numbers ++ s.geometry.numbers ++ s.strokes.map Stroke.width ++ s.borderRadius.toList

/-- The ids in a shape: its own, that of its parent and those of its children. -/
def ids (s : Shape) : List ShapeId := s.id :: s.parent.toList ++ s.children

theorem carries {s : Shape} (h : ∀ x ∈ s.numbers, Restored x) (hids : ∀ id ∈ s.ids, id.Fits)
    (depth : Nat) : decoder.Carries (depth + 3) s s.toJson := by
  simp only [numbers, List.forall_mem_append, List.forall_mem_map] at h
  obtain ⟨⟨⟨hkind, hgeometry⟩, hstrokes⟩, hradius⟩ := h
  simp only [ids, List.cons_append, List.forall_mem_cons, List.forall_mem_append] at hids
  obtain ⟨hid, hparent, hchildren⟩ := hids
  exact Json.carries_record rfl (by decide) (by decide)
    (.required (ShapeId.carries hid _) (.required (Json.carries_string s.name)
      (.required (ShapeKind.carries hkind _) (.required (Geometry.carries hgeometry _)
        (.required (Decoder.Carries.list fun f _ => f.carries _)
          (.required (Decoder.Carries.list fun r hr => Stroke.carries (hstrokes r hr) _)
            (.number hradius
              (.ofOption (fun id hid => ShapeId.carries (hparent id hid) _)
                (.required (Decoder.Carries.list fun id hid => ShapeId.carries (hchildren id hid) _)
                  .nil))))))))) rfl

theorem faithful_decoder : decoder.Faithful := by
  unfold decoder Decoder.record
  exact Json.faithful_recordAs ⟨ShapeId.faithful_decoder, Json.faithful_string,
    ShapeKind.faithful_decoder, Geometry.faithful_decoder, Fill.faithful_decoder.list,
    Stroke.faithful_decoder.list, Json.faithful_number.optional, ShapeId.faithful_decoder.optional,
    ShapeId.faithful_decoder.list, trivial⟩

end Shape

end Artboard
