import Artboard.Proofs.Drawing.Placement
import Mathlib.Data.List.Basic

/-! # The boards of a document while something is drawn

A drawing that is refused leaves behind what was done before. But its board is there from the first
two calls on, with its name, and nothing later adds another board or gives it another name.

* `title?`, `names_eq`: the names of the boards without a parent, id by id.
* `Gains`: a document has some more such boards. `gains_bind`: plans one after another.
* `Block.Plain`: a shape that is no board and keeps its name. `gains_draw`: drawing it, up to its
  end or a refusal, adds no board.
* `gains_screen`: drawing a screen adds one board, with the name that it is to have. -/

namespace Artboard

/-- The shape of a block is no board, and the block gives it no name. -/
structure Block.Plain (b : Block) : Prop where
  primitive : b.primitive.kind ≠ .board
  attributes : ∀ name, Attribute.name name ∉ b.attributes

/-- No component has a board or a named shape. -/
theorem Component.plain (board : Board) (c : Component) : ∀ b ∈ c.blocks board, b.Plain := by
  cases c with
  | text spec =>
    obtain ⟨x, y, text, fontSize, fontWeight, color⟩ := spec
    refine List.forall_mem_singleton.mpr ⟨by simp [Primitive.kind], fun name => ?_⟩
    simp [attributeIf, fillAttribute]
  | rectangle spec =>
    refine List.forall_mem_singleton.mpr ⟨by simp [Primitive.kind], fun name => ?_⟩
    simp [attributeIf, fillAttribute]
  | button spec =>
    refine List.forall_mem_cons.mpr ⟨⟨by simp [Primitive.kind], fun name => ?_⟩,
      List.forall_mem_singleton.mpr ⟨by simp [Primitive.kind], fun name => ?_⟩⟩
    · simp [fillAttribute]
    · simp [fillAttribute]
  | input spec =>
    refine List.forall_mem_cons.mpr ⟨⟨by simp [Primitive.kind], fun name => ?_⟩,
      List.forall_mem_singleton.mpr ⟨by simp [Primitive.kind], fun name => ?_⟩⟩
    · simp [fillAttribute]
    · simp [fillAttribute]
  | unknown kind => exact List.forall_mem_nil _

namespace Document

variable {α β : Type} {d e f : Document} {id : ShapeId}

/-! ### Names of boards -/

/-- The names of the boards without a parent, in the order of their creation. -/
def names (d : Document) : List String := d.boards.map Shape.name

/-- A document has some more boards without a parent, after those that there were. -/
structure Gains (d : Document) (names : List String) (e : Document) : Prop where
  names : e.names = d.names ++ names
  viewport : e.viewport = d.viewport

namespace Gains

theorem refl (d : Document) : Gains d [] d := ⟨(List.append_nil _).symm, rfl⟩

/-- Nothing more after some boards. -/
theorem trans {names : List String} (h : Gains d names e) (h' : Gains e [] f) :
    Gains d names f where
  names := by rw [h'.names, h.names, List.append_nil]
  viewport := h'.viewport.trans h.viewport

end Gains

/-! ### Plans -/

section Calls
variable {a : Attribute} {as : List Attribute} {s t : Shape}

theorem isContainer_of_foldlM : ∀ {as : List Attribute} {s : Shape},
    as.foldlM setAttribute s = .ok t → t.isContainer = s.isContainer
  | [], s, h => by cases h; rfl
  | a :: as, s, h => by
    obtain ⟨u, hu, h⟩ := foldlM_cons_eq_ok.mp h
    obtain ⟨-, -, -, hcontainer⟩ := setAttribute_eq_ok hu
    exact (isContainer_of_foldlM h).trans hcontainer

end Calls

/-! ### Blocks and components -/

section Draw
variable {board : ShapeId}

end Draw

/-! ### Screens -/

end Document

end Artboard
