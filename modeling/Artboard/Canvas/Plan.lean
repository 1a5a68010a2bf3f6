import Artboard.Canvas.Basic

/-! # Plans

A plan is a sequence of canvas calls, each of which may depend on what the calls before returned.
What a design needs is written as a plan and can be carried out on any canvas.

* `Plan`: plans with a result, a monad.
* `Plan.run`: carries a plan out; the first refused call ends it. -/

namespace Artboard

/-- Calls to make on a canvas, and a result. -/
inductive Plan (α : Type) where
  /-- Nothing more to do. -/
  | done (result : α)
  /-- Create a shape and go on with its id. -/
  | create (primitive : Primitive) (next : ShapeId → Plan α)
  /-- Make a change and go on. -/
  | edit (edit : Edit) (next : Plan α)
  /-- Go on with the centre of what the user sees. -/
  | center (next : Point → Plan α)

namespace Plan

variable {α β σ : Type}

/-- A plan, then another that depends on its result. -/
def bind : Plan α → (α → Plan β) → Plan β
  | .done a, k => k a
  | .create p next, k => .create p fun id => (next id).bind k
  | .edit e next, k => .edit e (next.bind k)
  | .center next, k => .center fun p => (next p).bind k

instance : Monad Plan where
  pure := .done
  bind := bind

/-- Creates a shape. -/
def new (primitive : Primitive) : Plan ShapeId := .create primitive .done

/-- Gives a shape an attribute. -/
def set (id : ShapeId) (value : Attribute) : Plan Unit := .edit (.set id value) (.done ())

/-- Gives a shape an attribute if there is a value for it. -/
def setIf (id : ShapeId) (value : α → Attribute) : Option α → Plan Unit
  | none => .done ()
  | some a => set id (value a)

/-- Attaches a child to its parent. -/
def append (parent child : ShapeId) : Plan Unit := .edit (.append parent child) (.done ())

/-- The centre of what the user sees. -/
def viewCenter : Plan Point := .center .done

/-- Carries a plan out on a canvas, up to its end or the first call that is refused. -/
def run (canvas : Canvas σ) : Plan α → σ → Except CanvasError α × σ
  | .done a, s => (.ok a, s)
  | .create p next, s =>
    match canvas.create p s with
    | (.error e, s) => (.error e, s)
    | (.ok id, s) => (next id).run canvas s
  | .edit e next, s =>
    match canvas.edit e s with
    | (.error e, s) => (.error e, s)
    | (.ok _, s) => next.run canvas s
  | .center next, s => (next (canvas.center s)).run canvas s

end Plan

end Artboard
