import Artboard.Drawing.Component

/-! # Drawing screens

A screen is drawn by creating its board, in the middle of what the user sees, and then its
components in order.

* `FrameSpec.draw`, `Screen.draw`: the plans for the board and for the whole screen.
* `Outcome`: whether a drawing was made, with the number of components or the reason why not. -/

namespace Artboard

/-- What drawing a whole screen produced. -/
structure Drawing where
  board : Board
  /-- The shapes of all components, in the order of their creation. -/
  shapes : List ShapeId
  /-- The number of components, skipped ones included. -/
  count : Nat
  /-- The kinds of the components that were skipped. -/
  skipped : List String
  deriving DecidableEq, Repr

/-- Draws the board of a frame. -/
def FrameSpec.draw (f : FrameSpec) : Plan Board := do
  let id ← Plan.new .board
  Plan.set id (.name f.boardName)
  Plan.set id (.size f.boardWidth f.boardHeight)
  let center ← Plan.viewCenter
  let x := center.x - f.boardWidth / 2.0
  let y := center.y - f.boardHeight / 2.0
  Plan.set id (.position x y)
  return ⟨id, f.boardName, x, y, f.boardWidth, f.boardHeight⟩

/-- Draws components in order. -/
def Component.drawAll (board : Board) : List Component → Plan (List Piece)
  | [] => return []
  | c :: rest => do
    let piece ← c.draw board
    let pieces ← drawAll board rest
    return piece :: pieces

/-- Draws a screen. -/
def Screen.draw (s : Screen) : Plan Drawing := do
  let board ← s.frame.draw
  let pieces ← Component.drawAll board s.components
  return ⟨board, pieces.flatMap Piece.shapes, s.components.length, pieces.filterMap Piece.skipped?⟩

/-- What is reported of a request. -/
structure Outcome where
  success : Bool
  /-- The number of components of a request that succeeded. -/
  count : Option Nat
  /-- The reason of a failure. -/
  error : Option String
  deriving DecidableEq, Repr

namespace Outcome

/-- A success with so many components. -/
def succeeded (count : Nat) : Outcome := ⟨true, some count, none⟩

/-- A failure with its reason. -/
def failed (reason : String) : Outcome := ⟨false, none, some reason⟩

/-- The outcome of drawing a screen. -/
def ofDrawing : Except CanvasError Drawing → Outcome
  | .ok drawing => succeeded drawing.count
  | .error e => failed e.message

/-- The members of an outcome; what is absent is left out. -/
def members (o : Outcome) : List (String × Json) :=
  [("success", .bool o.success)] ++ Json.ifPresent "count" (fun n => .int n) o.count
    ++ Json.ifPresent "error" .string o.error

/-- The tree of an outcome. -/
def toJson (o : Outcome) : Json := .object o.members

/-- The decoder of outcomes. -/
def decoder : Json.Decoder Outcome :=
  .record "GenerationResult"
    (.cons (.required "success" .boolean) (.cons (.placed "count" (.natural "usize" (Nat.pow 2 64)))
      (.cons (.placed "error" .string) .nil)))
    fun (success, count, error, _) => ⟨success, count, error⟩

end Outcome

/-- Draws a screen on a canvas and gives the outcome. -/
def Screen.generate {σ : Type} (canvas : Canvas σ) (s : Screen) (state : σ) : Outcome × σ :=
  let (result, state) := s.draw.run canvas state
  (.ofDrawing result, state)

end Artboard
