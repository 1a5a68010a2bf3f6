import Artboard.Canvas.Plan
import Artboard.Screen.Wire

/-! # Drawing components

Each kind of component is drawn as one or two shapes on a board. Offsets are relative to the board's
origin; what a component leaves out has a default.

* text: a text, filled only if it has a color;
* rectangle: a rectangle, filled only if it has a color;
* button: a filled rectangle with rounded corners, then its label;
* input: an outlined rectangle with rounded corners, then its label;
* any other kind: nothing.

A shape gets all its attributes before it is attached to the board, and a rectangle is attached
before its label is created. -/

namespace Artboard

/-- A board that components are drawn on. -/
structure Board where
  id : ShapeId
  name : String
  x : Float
  y : Float
  width : Float
  height : Float
  deriving DecidableEq, Repr

/-- The point at an offset from the board's origin. -/
def Board.offset (b : Board) (dx dy : Float) : Point := ⟨b.x + dx, b.y + dy⟩

/-- What drawing a component leads to. -/
inductive Piece
  /-- These shapes on the board, in the order of their creation. -/
  | drawn (shapes : List ShapeId)
  /-- Nothing, as the kind is unknown. -/
  | skipped (kind : String)
  deriving DecidableEq, Repr

/-- The shapes of a piece. -/
def Piece.shapes : Piece → List ShapeId
  | .drawn shapes => shapes
  | .skipped _ => []

/-- The kind that was skipped. -/
def Piece.skipped? : Piece → Option String
  | .drawn _ => none
  | .skipped kind => some kind

/-- The point of a component on a board; an absent offset is zero. -/
def Board.origin (b : Board) (x y : Option Float) : Point := b.offset (x.getD 0.0) (y.getD 0.0)

namespace TextSpec

/-- The content of a text without one. -/
def defaultText : String := "Text"

/-- Draws a text. -/
def draw (t : TextSpec) (board : Board) : Plan (List ShapeId) := do
  let text ← Plan.new (.text (t.text.getD defaultText))
  let origin := board.origin t.x t.y
  Plan.set text (.position origin.x origin.y)
  Plan.setIf text .fontSize t.fontSize
  Plan.setIf text (fun w => .fontWeight (FontWeight.text w)) t.fontWeight
  Plan.setIf text (fun color => .fills [⟨color⟩]) t.color
  Plan.append board.id text
  return [text]

end TextSpec

namespace RectangleSpec

/-- The width of a rectangle without one. -/
def defaultWidth : Float := 100.0

/-- The height of a rectangle without one. -/
def defaultHeight : Float := 100.0

/-- Draws a rectangle. -/
def draw (r : RectangleSpec) (board : Board) : Plan (List ShapeId) := do
  let rectangle ← Plan.new .rectangle
  let origin := board.origin r.x r.y
  Plan.set rectangle (.position origin.x origin.y)
  Plan.set rectangle (.size (r.width.getD defaultWidth) (r.height.getD defaultHeight))
  Plan.setIf rectangle (fun color => .fills [⟨color⟩]) r.fillColor
  Plan.append board.id rectangle
  return [rectangle]

end RectangleSpec

namespace ButtonSpec

/-- The width of a button without one. -/
def defaultWidth : Float := 200.0

/-- The height of a button without one. -/
def defaultHeight : Float := 44.0

/-- The label of a button without one. -/
def defaultText : String := "Button"

/-- The fill of a button without one. -/
def defaultBackground : String := "#667eea"

/-- The color of the label of a button that gives none. -/
def defaultTextColor : String := "#ffffff"

/-- The corner radius of a button without one. -/
def defaultRadius : Float := 6.0

/-- Where the label lies from the button's origin. -/
def labelOffset : Point := ⟨10.0, 12.0⟩

/-- Draws a button: its rectangle, then its label. -/
def draw (b : ButtonSpec) (board : Board) : Plan (List ShapeId) := do
  let rectangle ← Plan.new .rectangle
  let origin := board.origin b.x b.y
  Plan.set rectangle (.position origin.x origin.y)
  Plan.set rectangle (.size (b.width.getD defaultWidth) (b.height.getD defaultHeight))
  Plan.set rectangle (.fills [⟨b.backgroundColor.getD defaultBackground⟩])
  Plan.set rectangle (.borderRadius (b.borderRadius.getD defaultRadius))
  Plan.append board.id rectangle
  let label ← Plan.new (.text (b.text.getD defaultText))
  Plan.set label (.position (origin.x + labelOffset.x) (origin.y + labelOffset.y))
  Plan.set label (.fills [⟨b.textColor.getD defaultTextColor⟩])
  Plan.append board.id label
  return [rectangle, label]

end ButtonSpec

namespace InputSpec

/-- The width of an input without one. -/
def defaultWidth : Float := 300.0

/-- The height of an input without one. -/
def defaultHeight : Float := 44.0

/-- The label of an input without one. -/
def defaultLabel : String := "Input"

/-- The fill of inputs. -/
def background : String := "#ffffff"

/-- The outline of inputs. -/
def outline : Stroke := ⟨"#e0e0e0", 1.0⟩

/-- The corner radius of inputs. -/
def radius : Float := 4.0

/-- The color of the labels of inputs. -/
def labelColor : String := "#999999"

/-- The font size of the labels of inputs. -/
def labelFontSize : Float := 14.0

/-- Where the label lies from the input's origin. -/
def labelOffset : Point := ⟨12.0, 12.0⟩

/-- Draws an input: its rectangle, then its label. -/
def draw (i : InputSpec) (board : Board) : Plan (List ShapeId) := do
  let rectangle ← Plan.new .rectangle
  let origin := board.origin i.x i.y
  Plan.set rectangle (.position origin.x origin.y)
  Plan.set rectangle (.size (i.width.getD defaultWidth) (i.height.getD defaultHeight))
  Plan.set rectangle (.fills [⟨background⟩])
  Plan.set rectangle (.strokes [outline])
  Plan.set rectangle (.borderRadius radius)
  Plan.append board.id rectangle
  let label ← Plan.new (.text (i.label.getD defaultLabel))
  Plan.set label (.position (origin.x + labelOffset.x) (origin.y + labelOffset.y))
  Plan.set label (.fills [⟨labelColor⟩])
  Plan.set label (.fontSize labelFontSize)
  Plan.append board.id label
  return [rectangle, label]

end InputSpec

/-- Draws a component on a board. -/
def Component.draw (c : Component) (board : Board) : Plan Piece :=
  match c with
  | .text spec => Piece.drawn <$> spec.draw board
  | .button spec => Piece.drawn <$> spec.draw board
  | .input spec => Piece.drawn <$> spec.draw board
  | .rectangle spec => Piece.drawn <$> spec.draw board
  | .unknown _ => return .skipped c.kind

end Artboard
