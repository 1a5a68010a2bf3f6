import Artboard.Proofs.Canvas.Moments
import Artboard.Proofs.Drawing.Sequence

/-! # Components of unknown kinds

A component of an unknown kind is counted and reported, and has no other effect.

* `Screen.known`: a screen without such components.
* `draw_eq_known`: a screen is drawn as this one is, with another report in the end.
* `unknown_inert`: so the same happens on any canvas. -/

namespace Artboard

/-! ### Plans that differ in their results only -/

namespace Plan

variable {α β σ : Type}

/-- What a plan makes of its result in the end is not seen while it is carried out. -/
theorem moments_map (canvas : Canvas σ) (f : α → β) : ∀ (p : Plan α) (s : σ),
    (f <$> p).moments canvas s = p.moments canvas s
  | .done _, _ => rfl
  | .create p next, s => by
    have ih := fun id t => moments_map canvas f (next id) t
    show moments canvas (.create p fun id => f <$> next id) s = _
    rw [moments, moments]
    rcases canvas.create p s with ⟨_ | id, t⟩
    · rfl
    · exact congrArg _ (ih id t)
  | .edit c next, s => by
    have ih := moments_map canvas f next
    show moments canvas (.edit c (f <$> next)) s = _
    rw [moments, moments]
    rcases canvas.edit c s with ⟨_ | _, t⟩
    · rfl
    · exact congrArg _ (ih t)
  | .center next, s => congrArg _ (moments_map canvas f (next (canvas.center s)) s)

end Plan

/-! ### Screens without them -/

/-- The kind of a component that is unknown: the name of its type, if it has one. -/
def Component.unknownKind? : Component → Option String
  | .unknown kind => some (kind.getD "<missing>")
  | _ => none

/-- The screen without its components of unknown kinds. -/
def Screen.known (s : Screen) : Screen :=
  { s with components := s.components.filter Component.isKnown }

namespace Component

variable (cs : List Component)

/-- Components of unknown kinds have no blocks. -/
theorem allBlocks_filter_isKnown (board : Board) :
    allBlocks board (cs.filter isKnown) = allBlocks board cs := by
  induction cs with
  | nil => rfl
  | cons c cs ih =>
    rw [allBlocks_cons, ← ih]
    cases c <;> rfl

theorem skippedKinds_eq_filterMap : skippedKinds cs = cs.filterMap unknownKind? := by
  induction cs with
  | nil => rfl
  | cons c cs ih =>
    rw [skippedKinds_cons, ih]
    cases c <;> rfl

theorem unknownKind?_filter_isKnown : (cs.filter isKnown).filterMap unknownKind? = [] := by
  rw [List.filterMap_eq_nil_iff]
  intro c hc
  have hknown : c.isKnown = true := (List.mem_filter.mp hc).2
  cases c with
  | unknown kind => cases hknown
  | _ => rfl

theorem length_eq_add_unknown :
    cs.length = (cs.filter isKnown).length + (cs.filterMap unknownKind?).length := by
  induction cs with
  | nil => rfl
  | cons c cs ih =>
    rw [List.length_cons, ih]
    cases c with
    | unknown kind => rfl
    | _ => exact Nat.add_right_comm ..

end Component

namespace Screen

/-- What is reported of a screen, from what is reported of it without the unknown components. -/
def completeReport (s : Screen) (d : Drawing) : Drawing :=
  { d with count := s.components.length, skipped := Component.skippedKinds s.components }

/-- **A screen is drawn as it is without its unknown components**, up to the report. -/
theorem draw_eq_known (s : Screen) : s.draw = s.completeReport <$> s.known.draw := by
  rw [draw_eq, draw_eq]
  simp only [map_eq_pure_bind, bind_assoc, pure_bind]
  refine bind_congr fun board => ?_
  have hblocks : Component.allBlocks board s.known.components =
      Component.allBlocks board s.components :=
    Component.allBlocks_filter_isKnown s.components board
  rw [hblocks]
  rfl

/-- A drawing counts all components and lists the kinds of those that are unknown. -/
theorem report_of_draw {σ : Type} {canvas : Canvas σ} {s : Screen} {state after : σ} {d : Drawing}
    (h : s.draw.run canvas state = (.ok d, after)) :
    d.count = s.components.length ∧
      d.skipped = s.components.filterMap Component.unknownKind? := by
  rw [draw_eq] at h
  obtain ⟨board, t, -, h⟩ := Plan.run_bind_eq_ok.mp h
  obtain ⟨shapes, -, rfl⟩ := Plan.run_map_eq_ok.mp h
  exact ⟨rfl, Component.skippedKinds_eq_filterMap s.components⟩

/-- **Unknown components are inert.** On any canvas a screen with unknown components and the same
screen without them lead to the same calls and looks at the centre, in the same states, and to the
same state in the end. Both are refused for the same reason, or both give the same board and the
same shapes. What differs is the report: unknown components count, and their kinds are listed. -/
theorem unknown_inert {σ : Type} (canvas : Canvas σ) (s : Screen) (state : σ) :
    let kinds := s.components.filterMap Component.unknownKind?
    let run := s.draw.run canvas state
    let run' := s.known.draw.run canvas state
    s.draw.moments canvas state = s.known.draw.moments canvas state ∧ run.2 = run'.2 ∧
      ((∃ e, run.1 = .error e ∧ run'.1 = .error e) ∨
        ∃ d d', run.1 = .ok d ∧ run'.1 = .ok d' ∧ d.board = d'.board ∧ d.shapes = d'.shapes ∧
          d.count = d'.count + kinds.length ∧ d.skipped = kinds ∧ d'.skipped = []) := by
  intro kinds run run'
  have hrun : run = (run'.1.map s.completeReport, run'.2) := by
    show s.draw.run canvas state = _
    rw [draw_eq_known, Plan.run_map]
  refine ⟨?_, by rw [hrun], ?_⟩
  · rw [draw_eq_known, Plan.moments_map]
  · rcases hd : run'.1 with e | d'
    · exact .inl ⟨e, by rw [hrun, hd]; rfl, rfl⟩
    · obtain ⟨hcount, hskipped⟩ := report_of_draw (Prod.ext hd rfl : run' = (.ok d', run'.2))
      refine .inr ⟨s.completeReport d', d', by rw [hrun, hd]; rfl, rfl, rfl, rfl, ?_, ?_, ?_⟩
      · rw [hcount]
        exact Component.length_eq_add_unknown s.components
      · exact Component.skippedKinds_eq_filterMap s.components
      · rw [hskipped]
        exact Component.unknownKind?_filter_isKnown s.components

end Screen

end Artboard
