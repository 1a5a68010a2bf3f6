import Artboard.Proofs.Canvas.Plan
import Artboard.Proofs.Drawing.Block

/-! # A drawing as one list of blocks

The components of a screen are drawn one after another, and so are the shapes of each. What is left
of the components is the list of the blocks of all of them.

* `Block.drawAll_append`: some blocks, then others.
* `Component.summary_eq`: what drawing components leads to, as what drawing their blocks does.
* `Screen.draw_eq`: drawing a screen is drawing its board and then the blocks of its components. -/

namespace Artboard

/-- The blocks of several components. -/
def Component.allBlocks (board : Board) (cs : List Component) : List Block :=
  cs.flatMap (Component.blocks board)

/-- The kinds of the components that cannot be drawn. -/
def Component.skippedKinds (cs : List Component) : List String :=
  (cs.filter fun c => !c.isKnown).map Component.kind

/-- What is reported of a screen with a board and its shapes. -/
def Screen.report (s : Screen) (board : Board) (shapes : List ShapeId) : Drawing :=
  ⟨board, shapes, s.components.length, Component.skippedKinds s.components⟩

theorem Block.drawAll_append (board : ShapeId) : ∀ bs cs : List Block,
    drawAll board (bs ++ cs) = (do
      let ids ← drawAll board bs
      let more ← drawAll board cs
      return ids ++ more)
  | [], cs => by simp [drawAll]
  | b :: bs, cs => by
    rw [List.cons_append, drawAll, drawAll, drawAll_append board bs cs]
    simp only [bind_assoc, pure_bind, List.cons_append]

namespace Component

variable (board : Board)

/-- The shapes and skipped kinds of several pieces. -/
def summary (ps : List Piece) : List ShapeId × List String :=
  (ps.flatMap Piece.shapes, ps.filterMap Piece.skipped?)

theorem summary_cons (p : Piece) (ps : List Piece) : summary (p :: ps) =
    (p.shapes ++ (summary ps).1, p.skipped?.toList ++ (summary ps).2) := by
  unfold summary
  rw [List.flatMap_cons, List.filterMap_cons]
  cases p.skipped? <;> rfl

theorem allBlocks_cons (c : Component) (cs : List Component) :
    allBlocks board (c :: cs) = c.blocks board ++ allBlocks board cs := List.flatMap_cons

theorem allBlocks_append (cs ds : List Component) :
    allBlocks board (cs ++ ds) = allBlocks board cs ++ allBlocks board ds := List.flatMap_append

theorem skippedKinds_cons (c : Component) (cs : List Component) :
    skippedKinds (c :: cs) = skippedKinds [c] ++ skippedKinds cs := by
  cases h : c.isKnown <;> simp [skippedKinds, h]

/-- What a component leads to are the shapes of its blocks, or its kind. -/
theorem draw_bind_eq {β : Type} (c : Component) (k : List ShapeId → List String → Plan β) :
    (do let p ← c.draw board; k p.shapes p.skipped?.toList) =
      (do let ids ← Block.drawAll board.id (c.blocks board); k ids (skippedKinds [c])) := by
  rw [draw_eq]
  cases c with
  | unknown kind => rfl
  | _ => simp only [map_eq_pure_bind, bind_assoc, pure_bind]; rfl

/-- **What components lead to are the shapes of all of their blocks**, and the kinds of those that
cannot be drawn. -/
theorem summary_eq : ∀ cs : List Component, summary <$> drawAll board cs =
    (fun ids => (ids, skippedKinds cs)) <$> Block.drawAll board.id (allBlocks board cs)
  | [] => rfl
  | c :: cs => by
    let join (ids : List ShapeId) (kinds : List String) (q : List ShapeId × List String) :
        List ShapeId × List String := (ids ++ q.1, kinds ++ q.2)
    calc summary <$> drawAll board (c :: cs)
        = (do let p ← c.draw board
              join p.shapes p.skipped?.toList <$> summary <$> drawAll board cs) := by
          simp only [drawAll, map_eq_pure_bind, bind_assoc, pure_bind, summary_cons]; rfl
      _ = (do let ids ← Block.drawAll board.id (c.blocks board)
              join ids (skippedKinds [c]) <$> (fun ids => (ids, skippedKinds cs)) <$>
                Block.drawAll board.id (allBlocks board cs)) := by
          rw [summary_eq cs]
          exact draw_bind_eq board c fun ids kinds => join ids kinds <$> _
      _ = _ := by
          rw [skippedKinds_cons c cs, allBlocks_cons, Block.drawAll_append]
          simp only [map_eq_pure_bind, bind_assoc, pure_bind]; rfl

end Component

/-- **Drawing a screen is drawing its board and then the blocks of its components.** -/
theorem Screen.draw_eq (s : Screen) : s.draw = (do
    let board ← s.frame.draw
    s.report board <$> Block.drawAll board.id (Component.allBlocks board s.components)) := by
  unfold draw
  refine bind_congr fun board => ?_
  let finish (q : List ShapeId × List String) : Drawing :=
    ⟨board, q.1, s.components.length, q.2⟩
  have h := congrArg (finish <$> ·) (Component.summary_eq board s.components)
  simp only [map_eq_pure_bind, bind_assoc, pure_bind] at h ⊢
  exact h

end Artboard
