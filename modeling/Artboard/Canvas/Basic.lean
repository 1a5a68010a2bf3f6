import Artboard.Shape.Basic

/-! # Canvases

A canvas is what a design is drawn on. It creates shapes, changes them, attaches one to another and
knows where the user is looking. Creations and changes may fail.

* `Call`: a creation or change as data.
* `Canvas`: a canvas with states of some type.
* `Canvas.watched`: a canvas that logs its calls and refuses some of them. -/

namespace Artboard

/-- Why a canvas refuses a call. -/
inductive CanvasError
  | shapeNotFound (id : ShapeId)
  | invalidGeometry (field : String) (value : Float)
  | invalidParent (id : ShapeId)
  | rejected (reason : String)
  deriving DecidableEq, Repr

/-- The wording of a refusal. -/
def CanvasError.message : CanvasError → String
  | .shapeNotFound id => "Shape not found: " ++ id.text
  | .invalidGeometry field value =>
    "Invalid geometry for " ++ field ++ ": " ++ Number.Style.plain.text value
  | .invalidParent id => "Shape " ++ id.text ++ " cannot hold children"
  | .rejected reason => reason

/-- What can be created. -/
inductive Primitive
  | board
  | text (content : String)
  | rectangle
  deriving DecidableEq, Repr

/-- The kind of a shape that is created. -/
def Primitive.kind : Primitive → ShapeKind
  | .board => .board
  | .text content => .text content none none
  | .rectangle => .rectangle

/-- An attribute of a shape with its new value. -/
inductive Attribute
  | name (name : String)
  | position (x y : Float)
  | size (width height : Float)
  | fills (fills : List Fill)
  | strokes (strokes : List Stroke)
  | borderRadius (radius : Float)
  | fontSize (size : Float)
  | fontWeight (weight : String)
  deriving DecidableEq, Repr

/-- A change of shapes. -/
inductive Edit
  /-- Gives a shape an attribute. -/
  | set (id : ShapeId) (value : Attribute)
  /-- Attaches a child as the last one of its parent. -/
  | append (parent child : ShapeId)
  deriving DecidableEq, Repr

/-- A call that may change a canvas. -/
inductive Call
  | create (primitive : Primitive)
  | edit (edit : Edit)
  deriving DecidableEq, Repr

/-- A canvas with states of type `σ`. A call gives the state after it, also where it fails. -/
structure Canvas (σ : Type) where
  create : Primitive → σ → Except CanvasError ShapeId × σ
  edit : Edit → σ → Except CanvasError Unit × σ
  /-- The centre of what the user sees. -/
  center : σ → Point

/-- A state of a canvas with the calls made so far, the latest last. -/
structure Watched (σ : Type) where
  state : σ
  calls : List Call

namespace Canvas

/-- Logs a call, then makes it unless it is refused. -/
def watch {σ α : Type} (refuse : List Call → Call → Option CanvasError) (call : Call)
    (act : σ → Except CanvasError α × σ) (w : Watched σ) : Except CanvasError α × Watched σ :=
  let calls := w.calls ++ [call]
  match refuse w.calls call with
  | some e => (.error e, ⟨w.state, calls⟩)
  | none =>
    let (result, state) := act w.state
    (result, ⟨state, calls⟩)

/-- The canvas that logs its calls. A call that `refuse` has an error for, from the calls before and
the call itself, fails with it and is not made. -/
def watched {σ : Type} (canvas : Canvas σ)
    (refuse : List Call → Call → Option CanvasError) : Canvas (Watched σ) where
  create p := watch refuse (.create p) (canvas.create p)
  edit e := watch refuse (.edit e) (canvas.edit e)
  center w := canvas.center w.state

end Canvas

end Artboard
