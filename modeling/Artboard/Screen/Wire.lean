import Artboard.Screen.Basic
import Artboard.Json.Record
import Artboard.Json.Writer

/-! # Screens on the wire

The decoders of screens and their components, and the JSON form of the components' attributes. A
missing field and `null` mean the same. A component is read as a tree first, and the tree's `type`
decides what it is; a component of any other type is kept as unknown.

* `Screen.ofText`, `Screen.ofTree`: the two ways to a screen. -/

namespace Artboard

open Json (Decoder Fields Field Mismatch ReadError)

namespace FrameSpec

/-- The tree of a frame. -/
def toJson (f : FrameSpec) : Json :=
  .object [("name", .ofOption .string f.name), ("width", .ofOption .ofFloat f.width),
    ("height", .ofOption .ofFloat f.height)]

/-- The decoder of frames. -/
def decoder : Decoder FrameSpec :=
  .record "FrameSpec"
    (.cons (.optional "name" .string) (.cons (.optional "width" .number)
      (.cons (.optional "height" .number) .nil)))
    fun (name, width, height, _) => ⟨name, width, height⟩

end FrameSpec

namespace FontWeight

/-- The text of a weight: the number or the name. -/
def text : FontWeight → String
  | .numeric weight => Number.Style.plain.text weight
  | .named name => name

/-- The tree of a weight. -/
def toJson : FontWeight → Json
  | .numeric weight => .ofFloat weight
  | .named name => .string name

/-- The weight that a tree stands for. -/
def ofJson : Json → Except Mismatch FontWeight
  | .int n => .ok (.numeric (Number.ofDecimal (n < 0) n.natAbs 0))
  | .float x => .ok (.numeric x)
  | .string s => .ok (.named s)
  | _ => .error (.noVariant "FontWeight")

/-- The decoder of weights. -/
def decoder : Decoder FontWeight := Decoder.written.convert ofJson

end FontWeight

namespace TextSpec

/-- The tree of a text component without its type. -/
def toJson (t : TextSpec) : Json :=
  .object [("x", .ofOption .ofFloat t.x), ("y", .ofOption .ofFloat t.y),
    ("text", .ofOption .string t.text), ("fontSize", .ofOption .ofFloat t.fontSize),
    ("fontWeight", .ofOption FontWeight.toJson t.fontWeight),
    ("color", .ofOption .string t.color)]

/-- The decoder of text components. -/
def decoder : Decoder TextSpec :=
  .record "TextSpec"
    (.cons (.optional "x" .number) (.cons (.optional "y" .number)
      (.cons (.optional "text" .string) (.cons (.optional "fontSize" .number)
        (.cons (.optional "fontWeight" FontWeight.decoder)
          (.cons (.optional "color" .string) .nil))))))
    fun (x, y, text, fontSize, fontWeight, color, _) =>
      { x, y, text, fontSize, fontWeight, color }

end TextSpec

namespace RectangleSpec

/-- The tree of a rectangle component without its type. -/
def toJson (r : RectangleSpec) : Json :=
  .object [("x", .ofOption .ofFloat r.x), ("y", .ofOption .ofFloat r.y),
    ("width", .ofOption .ofFloat r.width), ("height", .ofOption .ofFloat r.height),
    ("fillColor", .ofOption .string r.fillColor)]

/-- The decoder of rectangle components. -/
def decoder : Decoder RectangleSpec :=
  .record "RectangleSpec"
    (.cons (.optional "x" .number) (.cons (.optional "y" .number)
      (.cons (.optional "width" .number) (.cons (.optional "height" .number)
        (.cons (.optional "fillColor" .string) .nil)))))
    fun (x, y, width, height, fillColor, _) => { x, y, width, height, fillColor }

end RectangleSpec

namespace ButtonSpec

/-- The tree of a button without its type. -/
def toJson (b : ButtonSpec) : Json :=
  .object [("x", .ofOption .ofFloat b.x), ("y", .ofOption .ofFloat b.y),
    ("width", .ofOption .ofFloat b.width), ("height", .ofOption .ofFloat b.height),
    ("text", .ofOption .string b.text), ("backgroundColor", .ofOption .string b.backgroundColor),
    ("textColor", .ofOption .string b.textColor),
    ("borderRadius", .ofOption .ofFloat b.borderRadius)]

/-- The decoder of buttons. -/
def decoder : Decoder ButtonSpec :=
  .record "ButtonSpec"
    (.cons (.optional "x" .number) (.cons (.optional "y" .number)
      (.cons (.optional "width" .number) (.cons (.optional "height" .number)
        (.cons (.optional "text" .string) (.cons (.optional "backgroundColor" .string)
          (.cons (.optional "textColor" .string)
            (.cons (.optional "borderRadius" .number) .nil))))))))
    fun (x, y, width, height, text, backgroundColor, textColor, borderRadius, _) =>
      { x, y, width, height, text, backgroundColor, textColor, borderRadius }

end ButtonSpec

namespace InputSpec

/-- The tree of an input without its type. -/
def toJson (i : InputSpec) : Json :=
  .object [("x", .ofOption .ofFloat i.x), ("y", .ofOption .ofFloat i.y),
    ("width", .ofOption .ofFloat i.width), ("height", .ofOption .ofFloat i.height),
    ("label", .ofOption .string i.label)]

/-- The decoder of inputs. -/
def decoder : Decoder InputSpec :=
  .record "InputSpec"
    (.cons (.optional "x" .number) (.cons (.optional "y" .number)
      (.cons (.optional "width" .number) (.cons (.optional "height" .number)
        (.cons (.optional "label" .string) .nil)))))
    fun (x, y, width, height, label, _) => { x, y, width, height, label }

end InputSpec

namespace Component

/-- The tree of a component's attributes, if its kind is known. -/
def attributes? : Component → Option Json
  | .text spec => some spec.toJson
  | .button spec => some spec.toJson
  | .input spec => some spec.toJson
  | .rectangle spec => some spec.toJson
  | .unknown _ => none

/-- The component that a canonical tree stands for. -/
def ofJson (j : Json) : Except Mismatch Component :=
  match (j.member? "type").bind Json.string? with
  | some "text" => (TextSpec.decoder.ofJson .value j).map .text
  | some "button" => (ButtonSpec.decoder.ofJson .value j).map .button
  | some "input" => (InputSpec.decoder.ofJson .value j).map .input
  | some "rectangle" => (RectangleSpec.decoder.ofJson .value j).map .rectangle
  | kind => .ok (.unknown kind)

/-- The decoder of components. -/
def decoder : Decoder Component := Decoder.value.convert ofJson

end Component

namespace Screen

/-- The decoder of screens. -/
def decoder : Decoder Screen :=
  .record "GenerationRequest"
    (.cons (.default "frame" .empty (.nullable .empty FrameSpec.decoder))
      (.cons (.default "components" [] (.nullable [] (.list Component.decoder))) .nil))
    fun (frame, components, _) => ⟨frame, components⟩

/-- The screen that a text describes. -/
def ofText (text : Json.Text) : Except ReadError Screen := decoder.parse text

/-- The screen that a tree describes. -/
def ofTree (j : Json) : Except Mismatch Screen := decoder.ofTree j

end Screen

end Artboard
