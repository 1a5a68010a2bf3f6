import Artboard.Document.Basic

/-! # Snapshots

A snapshot shows a document from outside: its top-level boards with what hangs under them.

* `Layer`: a shape with the layers of its children.
* `Document.snapshot`: the snapshot of a document.
* `Snapshot.toJson`: its JSON form; lists without entries and absent values are left out. -/

namespace Artboard

/-- What a snapshot shows of a shape itself. -/
structure Face where
  id : ShapeId
  name : String
  kind : ShapeKind
  geometry : Geometry
  fills : List Fill
  strokes : List Stroke
  borderRadius : Option Float
  deriving DecidableEq, Repr

/-- What a snapshot shows of a shape. -/
def Shape.face (s : Shape) : Face where
  id := s.id
  name := s.name
  kind := s.kind
  geometry := s.geometry
  fills := s.fills
  strokes := s.strokes
  borderRadius := s.borderRadius

/-- A shape and, for boards, its children. -/
inductive Layer
  | node (face : Face) (children : List Layer)
  deriving Repr

/-- What is shown of the shape itself. -/
def Layer.face : Layer → Face
  | .node face _ => face

/-- The layers of the children. -/
def Layer.children : Layer → List Layer
  | .node _ children => children

/-- A view of a document. -/
structure Snapshot where
  viewport : Viewport
  boards : List Layer
  shapeCount : Nat
  deriving Repr

namespace Document

/-- The layer of a shape with layers under it to some depth. -/
def layer (d : Document) : Nat → Shape → Layer
  | 0, s => .node s.face []
  | depth + 1, s => .node s.face ((d.children s.id).map (d.layer depth))

/-- The snapshot of a document. Below a board without a parent no shape occurs twice, so nothing
lies deeper than there are shapes. -/
def snapshot (d : Document) : Snapshot where
  viewport := d.viewport
  boards := d.boards.map (d.layer d.shapeCount)
  shapeCount := d.shapeCount

end Document

namespace Face

/-- The members of a face; those of its kind stand among them. -/
def members (f : Face) : List (String × Json) :=
  [("id", f.id.toJson), ("name", .string f.name)] ++ f.kind.members
    ++ [("geometry", f.geometry.toJson)]
    ++ Json.ifNonempty "fills" Fill.toJson f.fills
    ++ Json.ifNonempty "strokes" Stroke.toJson f.strokes
    ++ Json.ifPresent "borderRadius" .ofFloat f.borderRadius

end Face

namespace Layer

/-- The member for the layers of the children, if there are any. -/
def childMembers : List Json → List (String × Json)
  | [] => []
  | layers => [("children", .array layers)]

mutual

/-- The tree of a layer. -/
def toJson : Layer → Json
  | .node face children => .object (face.members ++ childMembers (toJsons children))

/-- The trees of several layers. -/
def toJsons : List Layer → List Json
  | [] => []
  | l :: rest => l.toJson :: toJsons rest

end

end Layer

/-- The tree of a snapshot. -/
def Snapshot.toJson (s : Snapshot) : Json :=
  .object [("viewport", s.viewport.toJson), ("boards", .array (Layer.toJsons s.boards)),
    ("shape_count", .int s.shapeCount)]

end Artboard
