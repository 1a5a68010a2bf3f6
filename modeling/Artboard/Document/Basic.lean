import Artboard.Canvas.Basic
import Artboard.Document.Store
import Artboard.Shape.Wire

/-! # Documents

A document keeps the shapes that were created in it by their ids, with the links between them, the
order in which they were created, and the part of it that the user sees.

* `Document.create`, `Document.edit`: the canvas calls; `edit` says when a change is refused.
* `Document.canvas`: the document as a canvas.
* `Document.run`: the document after a sequence of steps, `Reachable` from an empty one. -/

namespace Artboard

open Json (Decoder Field)

/-- The part of a document that the user sees. -/
structure Viewport where
  x : Float
  y : Float
  width : Float
  height : Float
  deriving DecidableEq, Repr

namespace Viewport

/-- The viewport of a document that was given none. -/
def standard : Viewport := ⟨0.0, 0.0, 1440.0, 900.0⟩

/-- The centre of a viewport. -/
def center (v : Viewport) : Point := ⟨v.x + v.width / 2.0, v.y + v.height / 2.0⟩

/-- The tree of a viewport. -/
def toJson (v : Viewport) : Json :=
  .object [("x", .ofFloat v.x), ("y", .ofFloat v.y), ("width", .ofFloat v.width),
    ("height", .ofFloat v.height)]

/-- The decoder of viewports. -/
def decoder : Decoder Viewport :=
  .record "Viewport"
    (.cons (.required "x" .number) (.cons (.required "y" .number)
      (.cons (.required "width" .number) (.cons (.required "height" .number) .nil))))
    fun (x, y, width, height, _) => ⟨x, y, width, height⟩

end Viewport

/-- A design document. -/
structure Document where
  /-- The ids of shapes to come; the next one is number `created`. -/
  ids : IdSupply
  /-- The number of shapes that were ever created. -/
  created : Nat
  /-- The shapes by their ids. -/
  store : Store
  /-- The ids of the shapes in the order of their creation. -/
  order : List ShapeId
  viewport : Viewport

namespace Document

/-- A document without shapes. -/
def new (ids : IdSupply) (viewport : Viewport) : Document := ⟨ids, 0, .empty, [], viewport⟩

/-! ### Looking things up -/

/-- The shape with an id. -/
def get? (d : Document) (id : ShapeId) : Option Shape := d.store.get? id

/-- The parent of a shape. -/
def parent? (d : Document) (id : ShapeId) : Option ShapeId := (d.get? id).bind Shape.parent

/-- All shapes in the order of their creation. -/
def shapes (d : Document) : List Shape := d.order.filterMap d.get?

/-- The boards without a parent, in the order of their creation. -/
def boards (d : Document) : List Shape :=
  d.shapes.filter fun s => s.parent.isNone && s.isContainer

/-- The children of a shape in the order in which they were appended. -/
def children (d : Document) (id : ShapeId) : List Shape :=
  match d.get? id with
  | none => []
  | some s => s.children.filterMap d.get?

/-- The number of shapes. -/
def shapeCount (d : Document) : Nat := d.store.size

/-- Whether there are no shapes. -/
def isEmpty (d : Document) : Bool := d.store.size = 0

/-! ### Changes -/

/-- Changes the shape with an id. -/
def modify (id : ShapeId) (f : Shape → Shape) (d : Document) : Document :=
  { d with store := d.store.modify id f }

/-- Adds a new shape and gives its id. -/
def create (p : Primitive) (d : Document) : ShapeId × Document :=
  let id := d.ids.id d.created
  (id, { d with
    created := d.created + 1
    store := d.store.insert id (.detached id p.kind)
    order := d.order ++ [id] })

/-- Refuses a coordinate that is not finite. -/
def checkCoordinate (field : String) (value : Float) : Except CanvasError Unit :=
  if value.isFinite then .ok () else .error (.invalidGeometry field value)

/-- Refuses an extent that is negative or not finite. -/
def checkExtent (field : String) (value : Float) : Except CanvasError Unit :=
  if value.isFinite && 0.0 ≤ value then .ok () else .error (.invalidGeometry field value)

/-- Refuses an attribute whose numbers are not acceptable for any shape. -/
def checkNumbers : Attribute → Except CanvasError Unit
  | .position x y => do
    checkCoordinate "x" x
    checkCoordinate "y" y
  | .size width height => do
    checkExtent "width" width
    checkExtent "height" height
  | .borderRadius radius => checkExtent "borderRadius" radius
  | .fontSize size => checkExtent "fontSize" size
  | _ => .ok ()

/-- The refusal of a font attribute for a shape that is no text. -/
def notText (id : ShapeId) : CanvasError :=
  .rejected ("Shape " ++ id.text ++ " is not a text layer")

/-- The shape with an attribute given to it. Only a text has font attributes. -/
def setAttribute (s : Shape) : Attribute → Except CanvasError Shape
  | .name name => .ok { s with name }
  | .position x y => .ok { s with geometry := { s.geometry with x, y } }
  | .size width height => .ok { s with geometry := { s.geometry with width, height } }
  | .fills fills => .ok { s with fills }
  | .strokes strokes => .ok { s with strokes }
  | .borderRadius radius => .ok { s with borderRadius := some radius }
  | .fontSize size =>
    match s.kind with
    | .text content _ fontWeight => .ok { s with kind := .text content (some size) fontWeight }
    | _ => .error (notText s.id)
  | .fontWeight weight =>
    match s.kind with
    | .text content fontSize _ => .ok { s with kind := .text content fontSize (some weight) }
    | _ => .error (notText s.id)

/-- Gives a shape an attribute. -/
def set (id : ShapeId) (a : Attribute) (d : Document) : Except CanvasError Document :=
  match checkNumbers a with
  | .error e => .error e
  | .ok _ =>
    match d.get? id with
    | none => .error (.shapeNotFound id)
    | some s =>
      match setAttribute s a with
      | .error e => .error e
      | .ok changed => .ok (d.modify id fun _ => changed)

/-- Takes a shape from its parent's children, if it has a parent. -/
def detach (child : ShapeId) (d : Document) : Document :=
  match d.parent? child with
  | none => d
  | some old => d.modify old fun s => { s with children := s.children.filter (· ≠ child) }

/-- Attaches a shape as the last child of a parent, away from the parent it had. -/
def attach (parent child : ShapeId) (d : Document) : Document :=
  ((d.detach child).modify parent fun s => { s with children := s.children ++ [child] }).modify
    child fun s => { s with parent := some parent }

/-- Attaches a child to a board. -/
def append (parent child : ShapeId) (d : Document) : Except CanvasError Document :=
  match d.get? child with
  | none => .error (.shapeNotFound child)
  | some _ =>
    if parent = child then .error (.invalidParent parent)
    else match d.get? parent with
      | none => .error (.shapeNotFound parent)
      | some p =>
        if p.isContainer then .ok (d.attach parent child) else .error (.invalidParent parent)

/-- Makes a change. -/
def edit : Edit → Document → Except CanvasError Document
  | .set id a, d => d.set id a
  | .append parent child, d => d.append parent child

/-- Removes all shapes. -/
def clear (d : Document) : Document := { d with store := .empty, order := [] }

/-- Moves the viewport. -/
def look (viewport : Viewport) (d : Document) : Document := { d with viewport }

/-! ### Documents as canvases -/

/-- The document as a canvas: creations succeed, and a refused change leaves it as it is. -/
def canvas : Canvas Document where
  create p d :=
    let (id, d) := d.create p
    (.ok id, d)
  edit e d :=
    match d.edit e with
    | .ok d => (.ok (), d)
    | .error e => (.error e, d)
  center d := d.viewport.center

/-- One step in the life of a document. -/
inductive Step
  | call (call : Call)
  | clear
  | look (viewport : Viewport)
  deriving DecidableEq, Repr

/-- The document after a step. -/
def step (d : Document) : Step → Document
  | .call (.create p) => (d.create p).2
  | .call (.edit e) => (canvas.edit e d).2
  | .clear => d.clear
  | .look viewport => d.look viewport

/-- The document after a sequence of steps. -/
def run (d : Document) (steps : List Step) : Document := steps.foldl step d

/-- The documents that come from an empty one. -/
def Reachable (d : Document) : Prop :=
  ∃ ids viewport steps, d = (new ids viewport).run steps

end Document

end Artboard
