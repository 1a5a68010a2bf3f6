import Artboard.Shape.Id

/-! # Shapes

What a design document is made of: boards, rectangles and texts with their place, look and links.

* `ShapeKind`, `Geometry`, `Fill`, `Stroke`: the parts of a shape.
* `Shape`: a shape; `Shape.detached` is a new one without parent and children. -/

namespace Artboard

/-- A point in document coordinates. -/
structure Point where
  x : Float
  y : Float
  deriving DecidableEq, Repr

/-- A solid fill. -/
structure Fill where
  color : String
  deriving DecidableEq, Repr

/-- A solid stroke. -/
structure Stroke where
  color : String
  width : Float
  deriving DecidableEq, Repr

/-- The kind of a shape with the attributes that only this kind has. -/
inductive ShapeKind
  /-- A container for other shapes. -/
  | board
  /-- A rectangle. -/
  | rectangle
  /-- A text, with font size and weight if they were set. -/
  | text (content : String) (fontSize : Option Float) (fontWeight : Option String)
  deriving DecidableEq, Repr

/-- Position and size in document coordinates. -/
structure Geometry where
  x : Float
  y : Float
  width : Float
  height : Float
  deriving DecidableEq, Repr

/-- A shape of a document. -/
structure Shape where
  id : ShapeId
  name : String
  kind : ShapeKind
  geometry : Geometry
  /-- Fills, topmost last. -/
  fills : List Fill
  strokes : List Stroke
  /-- Corner radius, if it was set. -/
  borderRadius : Option Float
  /-- The board that the shape is attached to. -/
  parent : Option ShapeId
  /-- The shapes attached to this one, in the order in which they were appended. -/
  children : List ShapeId
  deriving DecidableEq, Repr

/-- The name of a new shape: a text is named by its content. -/
def ShapeKind.initialName : ShapeKind → String
  | .board => "Board"
  | .rectangle => "Rectangle"
  | .text content _ _ => content

/-- The width and height of a new shape: a text grows with its content. -/
def ShapeKind.initialExtent : ShapeKind → Float
  | .board => 100.0
  | .rectangle => 100.0
  | .text .. => 0.0

namespace Shape

/-- A new shape at the origin, without look and links. -/
def detached (id : ShapeId) (kind : ShapeKind) : Shape where
  id := id
  name := kind.initialName
  kind := kind
  geometry := ⟨0.0, 0.0, kind.initialExtent, kind.initialExtent⟩
  fills := []
  strokes := []
  borderRadius := none
  parent := none
  children := []

/-- Whether the shape can hold children. -/
def isContainer (s : Shape) : Bool := s.kind = .board

/-- The content of a text. -/
def content? (s : Shape) : Option String :=
  match s.kind with
  | .text content _ _ => some content
  | _ => none

/-- The color of the first fill. -/
def fillColor? (s : Shape) : Option String := s.fills.head?.map Fill.color

end Shape

end Artboard
