/-! # Screens

A screen describes one board to create and the components to put on it, in order. Everything in it
may be left out.

* `FrameSpec`: name and size of the board, with the values that stand for absent ones.
* `Component`: a text, rectangle, button or input, or a component of unknown kind.
* `Screen`: a frame with its components. -/

namespace Artboard

/-- The name and size of a board, as far as they are given. -/
structure FrameSpec where
  name : Option String
  width : Option Float
  height : Option Float
  deriving DecidableEq, Repr

namespace FrameSpec

/-- The name of a board without one. -/
def defaultName : String := "AI Generated Frame"

/-- The width of a board without one. -/
def defaultWidth : Float := 375.0

/-- The height of a board without one. -/
def defaultHeight : Float := 667.0

/-- A frame of which nothing is given. -/
def empty : FrameSpec := ⟨none, none, none⟩

/-- The name of the board. -/
def boardName (f : FrameSpec) : String := f.name.getD defaultName

/-- The width of the board. -/
def boardWidth (f : FrameSpec) : Float := f.width.getD defaultWidth

/-- The height of the board. -/
def boardHeight (f : FrameSpec) : Float := f.height.getD defaultHeight

end FrameSpec

/-- A font weight, as a number or by name. -/
inductive FontWeight
  | numeric (weight : Float)
  | named (name : String)
  deriving DecidableEq, Repr

/-- A text component. -/
structure TextSpec where
  x : Option Float
  y : Option Float
  text : Option String
  fontSize : Option Float
  fontWeight : Option FontWeight
  color : Option String
  deriving DecidableEq, Repr

/-- A rectangle component. -/
structure RectangleSpec where
  x : Option Float
  y : Option Float
  width : Option Float
  height : Option Float
  fillColor : Option String
  deriving DecidableEq, Repr

/-- A button: a filled rectangle with rounded corners and a label on it. -/
structure ButtonSpec where
  x : Option Float
  y : Option Float
  width : Option Float
  height : Option Float
  text : Option String
  backgroundColor : Option String
  textColor : Option String
  borderRadius : Option Float
  deriving DecidableEq, Repr

/-- An input: an outlined rectangle with a label on it. -/
structure InputSpec where
  x : Option Float
  y : Option Float
  width : Option Float
  height : Option Float
  label : Option String
  deriving DecidableEq, Repr

/-- A component of a screen. -/
inductive Component
  | text (spec : TextSpec)
  | button (spec : ButtonSpec)
  | input (spec : InputSpec)
  | rectangle (spec : RectangleSpec)
  /-- A component of another kind, with the name of the kind if it has one. -/
  | unknown (kind : Option String)
  deriving DecidableEq, Repr

/-- The name of a component's kind. -/
def Component.kind : Component → String
  | .text _ => "text"
  | .button _ => "button"
  | .input _ => "input"
  | .rectangle _ => "rectangle"
  | .unknown kind => kind.getD "<missing>"

/-- Whether a component is of a kind that can be drawn. -/
def Component.isKnown : Component → Bool
  | .unknown _ => false
  | _ => true

/-- A board and the components on it. -/
structure Screen where
  frame : FrameSpec
  components : List Component
  deriving DecidableEq, Repr

/-- A screen of which nothing is given. -/
def Screen.empty : Screen := ⟨.empty, []⟩

end Artboard
