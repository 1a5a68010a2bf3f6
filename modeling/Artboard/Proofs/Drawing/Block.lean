import Artboard.Drawing.Screen

/-! # Drawings as lists of blocks

Each shape of a drawing is created, gets its attributes and is attached to the board before the next
one is created. A block says what happens to one shape.

* `Block`, `Block.draw`: a shape to come and how it is drawn. `Block.drawAll`: several of them.
* `Component.blocks`: the blocks of a component.
* `Component.draw_eq`: drawing a component is drawing its blocks. -/

namespace Artboard

/-- Gives a shape several attributes in order. -/
def Plan.setAll (id : ShapeId) : List Attribute → Plan Unit
  | [] => return ()
  | a :: rest => do
    Plan.set id a
    Plan.setAll id rest

/-- A shape to be drawn: what it is created as, and the attributes that it gets then. -/
structure Block where
  primitive : Primitive
  attributes : List Attribute

namespace Block

/-- Creates the shape of a block, gives it its attributes and attaches it. -/
def draw (board : ShapeId) (b : Block) : Plan ShapeId := do
  let id ← Plan.new b.primitive
  Plan.setAll id b.attributes
  Plan.append board id
  return id

/-- Draws blocks in order. -/
def drawAll (board : ShapeId) : List Block → Plan (List ShapeId)
  | [] => return []
  | b :: rest => do
    let id ← b.draw board
    let ids ← drawAll board rest
    return id :: ids

end Block

/-! ### The blocks of components -/

/-- The attribute that a value gives, if there is one. -/
def attributeIf {α : Type} (make : α → Attribute) (value : Option α) : List Attribute :=
  (value.map make).toList

/-- A single solid fill. -/
def fillAttribute (color : String) : Attribute := .fills [⟨color⟩]

section Blocks
variable (board : Board)

/-- The block of a text. -/
def TextSpec.blocks (t : TextSpec) : List Block :=
  let origin := board.origin t.x t.y
  [⟨.text (t.text.getD TextSpec.defaultText),
    .position origin.x origin.y :: attributeIf .fontSize t.fontSize
      ++ attributeIf (fun w => .fontWeight (FontWeight.text w)) t.fontWeight
      ++ attributeIf fillAttribute t.color⟩]

/-- The block of a rectangle. -/
def RectangleSpec.blocks (r : RectangleSpec) : List Block :=
  let origin := board.origin r.x r.y
  [⟨.rectangle,
    .position origin.x origin.y
      :: .size (r.width.getD RectangleSpec.defaultWidth) (r.height.getD RectangleSpec.defaultHeight)
      :: attributeIf fillAttribute r.fillColor⟩]

/-- The blocks of a button: its rectangle and its label. -/
def ButtonSpec.blocks (b : ButtonSpec) : List Block :=
  let origin := board.origin b.x b.y
  [⟨.rectangle,
    [.position origin.x origin.y,
      .size (b.width.getD ButtonSpec.defaultWidth) (b.height.getD ButtonSpec.defaultHeight),
      fillAttribute (b.backgroundColor.getD ButtonSpec.defaultBackground),
      .borderRadius (b.borderRadius.getD ButtonSpec.defaultRadius)]⟩,
    ⟨.text (b.text.getD ButtonSpec.defaultText),
    [.position (origin.x + ButtonSpec.labelOffset.x) (origin.y + ButtonSpec.labelOffset.y),
      fillAttribute (b.textColor.getD ButtonSpec.defaultTextColor)]⟩]

/-- The blocks of an input: its rectangle and its label. -/
def InputSpec.blocks (i : InputSpec) : List Block :=
  let origin := board.origin i.x i.y
  [⟨.rectangle,
    [.position origin.x origin.y,
      .size (i.width.getD InputSpec.defaultWidth) (i.height.getD InputSpec.defaultHeight),
      fillAttribute InputSpec.background, .strokes [InputSpec.outline],
      .borderRadius InputSpec.radius]⟩,
    ⟨.text (i.label.getD InputSpec.defaultLabel),
    [.position (origin.x + InputSpec.labelOffset.x) (origin.y + InputSpec.labelOffset.y),
      fillAttribute InputSpec.labelColor, .fontSize InputSpec.labelFontSize]⟩]

/-- The blocks of a component; there are none for a kind that is unknown. -/
def Component.blocks : Component → List Block
  | .text spec => spec.blocks board
  | .button spec => spec.blocks board
  | .input spec => spec.blocks board
  | .rectangle spec => spec.blocks board
  | .unknown _ => []

/-- What drawing a component leads to if it gives these shapes. -/
def Component.piece (c : Component) (shapes : List ShapeId) : Piece :=
  if c.isKnown then .drawn shapes else .skipped c.kind

theorem TextSpec.draw_eq (t : TextSpec) :
    t.draw board = Block.drawAll board.id (t.blocks board) := by
  obtain ⟨x, y, text, fontSize, fontWeight, color⟩ := t
  rcases fontSize with _ | size <;> rcases fontWeight with _ | weight <;>
    rcases color with _ | color <;> rfl

theorem RectangleSpec.draw_eq (r : RectangleSpec) :
    r.draw board = Block.drawAll board.id (r.blocks board) := by
  obtain ⟨x, y, width, height, fillColor⟩ := r
  rcases fillColor with _ | color <;> rfl

/-- **Drawing a component is drawing its blocks.** -/
theorem Component.draw_eq (c : Component) :
    c.draw board = c.piece <$> Block.drawAll board.id (c.blocks board) := by
  cases c with
  | text spec => show _ <$> _ = _; rw [TextSpec.draw_eq]; rfl
  | rectangle spec => show _ <$> _ = _; rw [RectangleSpec.draw_eq]; rfl
  | button spec => rfl
  | input spec => rfl
  | unknown kind => rfl

end Blocks

end Artboard
