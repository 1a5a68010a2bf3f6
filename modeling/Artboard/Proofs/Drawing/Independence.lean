import Artboard.Proofs.Document.Renaming
import Artboard.Proofs.Drawing.Attempts
import Mathlib.Data.Set.Function
import Mathlib.Logic.Function.Basic

/-! # Old shapes have no part in a drawing

What is drawn on a document depends on its viewport and on nothing else but the ids that it gives.

* `renames_screen`: a screen is drawn alike under other ids.
* `Copies.afterAll`: screens that are drawn on a copy are drawn on what is copied.
* `outcomes_eq`: outcomes depend on the viewport only.
* `drawn_alike`: two documents with one viewport get the same shapes up to their ids. -/

namespace Artboard

open Plan (Renames)

/-- The board with another id. -/
def Board.rename (ρ : ShapeId → ShapeId) (b : Board) : Board := { b with id := ρ b.id }

/-- The drawing with other ids. -/
def Drawing.rename (ρ : ShapeId → ShapeId) (r : Drawing) : Drawing :=
  { r with board := r.board.rename ρ, shapes := r.shapes.map ρ }

/-! ### Plans of drawings -/

section Renames
variable {ρ : ShapeId → ShapeId}

theorem renames_setAll (id : ShapeId) : ∀ as : List Attribute,
    Renames ρ (fun _ _ => True) (Plan.setAll id as) (Plan.setAll (ρ id) as)
  | [] => .done trivial
  | a :: as => (Renames.set id a).bind fun _ _ _ => renames_setAll id as

theorem renames_draw (board : ShapeId) (b : Block) :
    Renames ρ (fun id id' => id' = ρ id) (b.draw board) (b.draw (ρ board)) := by
  refine (Renames.new b.primitive).bind fun id _ hid => ?_
  subst hid
  refine (renames_setAll id b.attributes).bind fun _ _ _ => ?_
  exact (Renames.append board id).bind fun _ _ _ => .done rfl

theorem renames_drawAll (board : ShapeId) : ∀ blocks : List Block,
    Renames ρ (fun ids ids' => ids' = ids.map ρ) (Block.drawAll board blocks)
      (Block.drawAll (ρ board) blocks)
  | [] => .done rfl
  | b :: blocks => by
    refine (renames_draw board b).bind fun id _ hid => ?_
    refine (renames_drawAll board blocks).bind fun ids _ hids => ?_
    subst hid hids
    exact .done rfl

theorem renames_frame (f : FrameSpec) :
    Renames ρ (fun b b' => b' = b.rename ρ) f.draw f.draw := by
  refine (Renames.new .board).bind fun id _ hid => ?_
  subst hid
  refine (Renames.set id _).bind fun _ _ _ => ?_
  refine (Renames.set id _).bind fun _ _ _ => ?_
  refine Renames.viewCenter.bind fun center _ hcenter => ?_
  subst hcenter
  exact (Renames.set id _).bind fun _ _ _ => .done rfl

/-- Where components lie depends on the place of the board and not on its id. -/
theorem allBlocks_rename (board : Board) (cs : List Component) :
    Component.allBlocks (board.rename ρ) cs = Component.allBlocks board cs := by
  have hblocks : Component.blocks (board.rename ρ) = Component.blocks board :=
    funext fun c => by cases c <;> rfl
  rw [Component.allBlocks, hblocks]; rfl

/-- **A screen is drawn alike under other ids.** -/
theorem renames_screen (s : Screen) : Renames ρ (fun r r' => r' = r.rename ρ) s.draw s.draw := by
  rw [Screen.draw_eq]
  refine (renames_frame s.frame).bind fun board _ hboard => ?_
  subst hboard
  rw [allBlocks_rename]
  refine (renames_drawAll board.id _).map fun ids _ hids => ?_
  subst hids
  rfl

end Renames

namespace Document

variable {d e : Document}

/-! ### Copies -/

/-- **Screens that are drawn on a copy are drawn on what is copied.** -/
theorem Copies.afterAll {ρ : ShapeId → ShapeId} {old : Document} : ∀ (screens : List Screen)
    {x d : Document}, Copies ρ old x d → Copies ρ old (x.afterAll screens) (d.afterAll screens)
  | [], _, _, h => h
  | s :: screens, _, _, h => Copies.afterAll screens (h.run (renames_screen s))

/-- A document after drawings has a copy of one that was empty before them. -/
theorem copies_afterAll (hd : WellFormed d) (screens : List Screen) :
    Copies d.coming d ((new (.from 0) d.viewport).afterAll screens) (d.afterAll screens) :=
  (copies_new hd.toIndexed).afterAll screens

theorem shapes_afterAll (hd : WellFormed d) (screens : List Screen) :
    (d.afterAll screens).shapes = d.shapes ++
      ((new (.from 0) d.viewport).afterAll screens).shapes.map (Shape.rename d.coming) :=
  (copies_afterAll hd screens).shapes hd.toIndexed fun _ => hd.fresh _ (Nat.le_add_right _ _)

/-! ### Outcomes -/

/-- **The outcome depends on the viewport only.** -/
theorem outcome_eq_of_viewport (hd : WellFormed d) (he : WellFormed e)
    (hview : d.viewport = e.viewport) (s : Screen) :
    (Attempt.mk d s).outcome = (Attempt.mk e s).outcome := by
  have hchecks : (s.draw.run canvas d).1.map (fun _ => ()) =
      (s.draw.run canvas e).1.map (fun _ => ()) := by
    have hchecks' := checks_screen he s
    rw [← hview] at hchecks'
    exact (checks_screen hd s).trans hchecks'.symm
  rcases hrun : s.draw.run canvas d with ⟨a | r, d'⟩ <;>
    rcases hrun' : s.draw.run canvas e with ⟨a' | r', e'⟩ <;> rw [hrun, hrun'] at hchecks
  · cases hchecks
    rw [Attempt.outcome_eq hrun, Attempt.outcome_eq hrun']
  · cases hchecks
  · cases hchecks
  · rw [Attempt.outcome_eq hrun, Attempt.outcome_eq hrun', Outcome.ofDrawing, Outcome.ofDrawing,
      Screen.count_of_draw hrun, Screen.count_of_draw hrun']

theorem viewport_after (hd : WellFormed d) (s : Screen) :
    (Attempt.after ⟨d, s⟩).viewport = d.viewport := by
  obtain ⟨_, -, hadds⟩ := left_of_attempt hd s
  exact hadds.viewport

theorem outcomes_eq : ∀ (screens : List Screen) {d e : Document}, WellFormed d → WellFormed e →
    d.viewport = e.viewport →
      (d.attempts screens).map Attempt.outcome = (e.attempts screens).map Attempt.outcome
  | [], _, _, _, _, _ => rfl
  | s :: screens, d, e, hd, he, hview => by
    have hafter : (Attempt.after ⟨d, s⟩).viewport = (Attempt.after ⟨e, s⟩).viewport := by
      rw [viewport_after hd, viewport_after he, hview]
    rw [attempts, attempts, List.map_cons, List.map_cons, outcome_eq_of_viewport hd he hview s,
      outcomes_eq screens (hd.after s) (he.after s) hafter]

/-! ### Two documents -/

/-- The links of stored shapes lead to stored shapes. -/
theorem WellFormed.mem_of_link (hd : WellFormed d) {s : Shape} (hs : s ∈ d.shapes) :
    (∀ p ∈ s.parent, p ∈ d.order) ∧ ∀ c ∈ s.children, c ∈ d.order := by
  have hget := hd.mem_shapes.mp hs
  constructor
  · intro p hp
    obtain ⟨-, b, hb, -⟩ := hd.parent_board s.id p ((parent?_of_get? hget).trans hp)
    exact hd.mem_order_iff.mpr ⟨b, hb⟩
  · intro c hc
    obtain ⟨t, ht, -⟩ := parent?_eq_some.mp ((hd.mem_children s.id s c hget).mp hc)
    exact hd.mem_order_iff.mpr ⟨t, ht⟩

theorem map_id_renamed (hd : WellFormed d) (ρ : ShapeId → ShapeId) :
    (d.shapes.map (Shape.rename ρ)).map Shape.id = d.order.map ρ := by
  rw [← hd.map_id_shapes, List.map_map, List.map_map]; rfl

/-- **Drawings do not depend on old shapes.** Two documents that come from empty ones and have the
same viewport give the same outcomes for screens that are drawn in turn, some of which may be
refused. They get the same shapes up to one renaming of the new ids, and the shapes that they had
stay. -/
theorem drawn_alike {d₁ d₂ : Document} (h₁ : Reachable d₁) (h₂ : Reachable d₂)
    (hview : d₁.viewport = d₂.viewport) (screens : List Screen) :
    (d₁.attempts screens).map Attempt.outcome = (d₂.attempts screens).map Attempt.outcome ∧
      ∃ (new₁ new₂ : List Shape) (ρ : ShapeId → ShapeId),
        (d₁.afterAll screens).shapes = d₁.shapes ++ new₁ ∧
        (d₂.afterAll screens).shapes = d₂.shapes ++ new₂ ∧
        new₂ = new₁.map (Shape.rename ρ) ∧
        Set.BijOn ρ {id | id ∈ new₁.map Shape.id} {id | id ∈ new₂.map Shape.id} ∧
        ∀ s ∈ new₁, (∀ p ∈ s.parent, p ∈ new₁.map Shape.id) ∧
          ∀ c ∈ s.children, c ∈ new₁.map Shape.id := by
  have hd₁ := h₁.wellFormed
  have hd₂ := h₂.wellFormed
  have hshapes₂ := shapes_afterAll hd₂ screens
  rw [← hview] at hshapes₂
  let x := (new (.from 0) d₁.viewport).afterAll screens
  have hx : WellFormed x := (wellFormed_new _ _).afterAll screens
  have hinj₁ := (copies_afterAll hd₁ screens).injective
  have hinj₂ := (copies_afterAll hd₂ screens).injective
  -- back to the ids of the document that was empty, and on to those of the other one
  let ρ : ShapeId → ShapeId := d₂.coming ∘ Function.invFun d₁.coming
  have hρ : ∀ i, ρ (d₁.coming i) = d₂.coming i := fun i =>
    congrArg d₂.coming (Function.leftInverse_invFun hinj₁ i)
  have hnew : x.shapes.map (Shape.rename d₂.coming) =
      (x.shapes.map (Shape.rename d₁.coming)).map (Shape.rename ρ) := by
    rw [List.map_map, ← show ρ ∘ d₁.coming = d₂.coming from funext hρ]
    exact List.map_congr_left fun s _ => (s.rename_rename _ _).symm
  refine ⟨outcomes_eq screens hd₁ hd₂ hview, _, _, ρ, shapes_afterAll hd₁ screens, hshapes₂, hnew,
    ?_, fun s hs => ?_⟩
  · rw [map_id_renamed hx, map_id_renamed hx]
    refine ⟨fun id hid => ?_, fun a ha b hb heq => ?_, fun id hid => ?_⟩
    · obtain ⟨i, hi, rfl⟩ := List.mem_map.mp hid
      exact List.mem_map.mpr ⟨i, hi, (hρ i).symm⟩
    · obtain ⟨i, -, rfl⟩ := List.mem_map.mp ha
      obtain ⟨j, -, rfl⟩ := List.mem_map.mp hb
      rw [hρ, hρ] at heq
      exact congrArg d₁.coming (hinj₂ heq)
    · obtain ⟨i, hi, rfl⟩ := List.mem_map.mp hid
      exact ⟨d₁.coming i, List.mem_map_of_mem hi, hρ i⟩
  · rw [map_id_renamed hx]
    obtain ⟨t, ht, rfl⟩ := List.mem_map.mp hs
    obtain ⟨hparent, hchildren⟩ := hx.mem_of_link ht
    refine ⟨fun p hp => ?_, fun c hc => ?_⟩
    · obtain ⟨q, hq, rfl⟩ := Option.map_eq_some_iff.mp hp
      exact List.mem_map_of_mem (hparent q hq)
    · obtain ⟨b, hb, rfl⟩ := List.mem_map.mp hc
      exact List.mem_map_of_mem (hchildren b hb)

/-- A document with a rectangle and one with other ids that was cleared. -/
theorem drawn_alike_sketch :
    let d₁ := sketch
    let d₂ := (new (.from 100) .standard).run [.call (.create .board), .clear]
    let screens := [strayScreen, login]
    Reachable d₁ ∧ Reachable d₂ ∧ d₁.viewport = d₂.viewport ∧
      (d₁.attempts screens).map (fun q => q.outcome.success) = [false, true] ∧
      ∃ (new₁ new₂ : List Shape) (ρ : ShapeId → ShapeId),
        (d₁.afterAll screens).shapes = d₁.shapes ++ new₁ ∧
        (d₂.afterAll screens).shapes = d₂.shapes ++ new₂ ∧ new₂ = new₁.map (Shape.rename ρ) := by
  intro d₁ d₂ screens
  have h₁ : Reachable d₁ := ⟨_, _, _, rfl⟩
  have h₂ : Reachable d₂ := ⟨_, _, _, rfl⟩
  obtain ⟨-, new₁, new₂, ρ, hnew₁, hnew₂, hρ, -⟩ := drawn_alike h₁ h₂ rfl screens
  exact ⟨h₁, h₂, rfl, by decide +kernel, new₁, new₂, ρ, hnew₁, hnew₂, hρ⟩

end Document

end Artboard
