import Artboard.Shape.Basic
import Artboard.Json.Tagged
import Artboard.Json.Writer

/-! # Shapes on the wire

The JSON form of shapes and their parts, and the decoders of these forms. A decoder takes what
`toJson` gives, in any order of members, and the fields as an array. -/

namespace Artboard

open Json (Decoder Fields Field Variant)

namespace Point

/-- The tree of a point. -/
def toJson (p : Point) : Json := .object [("x", .ofFloat p.x), ("y", .ofFloat p.y)]

/-- The decoder of points. -/
def decoder : Decoder Point :=
  .record "Point" (.cons (.required "x" .number) (.cons (.required "y" .number) .nil))
    fun (x, y, _) => ⟨x, y⟩

end Point

namespace Fill

/-- The tree of a fill. -/
def toJson (f : Fill) : Json := .object [("fillColor", .string f.color)]

/-- The decoder of fills. -/
def decoder : Decoder Fill :=
  .record "Fill" (.cons (.required "fillColor" .string) .nil) fun (color, _) => ⟨color⟩

end Fill

namespace Stroke

/-- The tree of a stroke. -/
def toJson (s : Stroke) : Json :=
  .object [("strokeColor", .string s.color), ("strokeWidth", .ofFloat s.width)]

/-- The decoder of strokes. -/
def decoder : Decoder Stroke :=
  .record "Stroke"
    (.cons (.required "strokeColor" .string) (.cons (.required "strokeWidth" .number) .nil))
    fun (color, width, _) => ⟨color, width⟩

end Stroke

namespace Geometry

/-- The tree of a geometry. -/
def toJson (g : Geometry) : Json :=
  .object [("x", .ofFloat g.x), ("y", .ofFloat g.y), ("width", .ofFloat g.width),
    ("height", .ofFloat g.height)]

/-- The decoder of geometries. -/
def decoder : Decoder Geometry :=
  .record "Geometry"
    (.cons (.required "x" .number) (.cons (.required "y" .number)
      (.cons (.required "width" .number) (.cons (.required "height" .number) .nil))))
    fun (x, y, width, height, _) => ⟨x, y, width, height⟩

end Geometry

namespace ShapeKind

/-- The members of a kind: its tag, and for a text its content and what was set of its font. -/
def members : ShapeKind → List (String × Json)
  | .board => [("type", .string "board")]
  | .rectangle => [("type", .string "rectangle")]
  | .text content fontSize fontWeight =>
    [("type", .string "text"), ("content", .string content)]
      ++ Json.ifPresent "fontSize" .ofFloat fontSize
      ++ Json.ifPresent "fontWeight" .string fontWeight

/-- The tree of a kind. -/
def toJson (k : ShapeKind) : Json := .object k.members

/-- The decoder of what a text has beside its tag. -/
def textDecoder : Decoder ShapeKind :=
  .recordAs "struct variant ShapeKind::Text"
    (.cons (.required "content" .string) (.cons (.placed "fontSize" .number)
      (.cons (.placed "fontWeight" .string) .nil)))
    fun (content, fontSize, fontWeight, _) => .text content fontSize fontWeight

/-- The decoder of kinds. -/
def decoder : Decoder ShapeKind :=
  .tagged "ShapeKind"
    [.unit "board" .board, .unit "rectangle" .rectangle, .record "text" textDecoder]

end ShapeKind

namespace Shape

/-- The tree of a shape. -/
def toJson (s : Shape) : Json :=
  .object [("id", s.id.toJson), ("name", .string s.name), ("kind", s.kind.toJson),
    ("geometry", s.geometry.toJson), ("fills", .array (s.fills.map Fill.toJson)),
    ("strokes", .array (s.strokes.map Stroke.toJson)),
    ("border_radius", .ofOption .ofFloat s.borderRadius),
    ("parent", .ofOption ShapeId.toJson s.parent),
    ("children", .array (s.children.map ShapeId.toJson))]

/-- The decoder of shapes. -/
def decoder : Decoder Shape :=
  .record "Shape"
    (.cons (.required "id" ShapeId.decoder) (.cons (.required "name" .string)
      (.cons (.required "kind" ShapeKind.decoder) (.cons (.required "geometry" Geometry.decoder)
        (.cons (.required "fills" (.list Fill.decoder))
          (.cons (.required "strokes" (.list Stroke.decoder))
            (.cons (.placed "border_radius" .number) (.cons (.placed "parent" ShapeId.decoder)
              (.cons (.required "children" (.list ShapeId.decoder)) .nil)))))))))
    fun (id, name, kind, geometry, fills, strokes, borderRadius, parent, children, _) =>
      { id, name, kind, geometry, fills, strokes, borderRadius, parent, children }

end Shape

end Artboard
