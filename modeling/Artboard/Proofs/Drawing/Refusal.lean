import Artboard.Document.Basic
import Artboard.Drawing.Screen
import Artboard.Proofs.Canvas.Moments
import Artboard.Proofs.Canvas.Plan

/-! # Drawings that are refused

* `count_of_draw`: a drawing counts all components of its screen.
* `state_eq_run`: on a document, the state at a moment is what the calls before it lead to.
* `generate_until_refusal`: the first refused call ends the drawing of a screen, on any canvas.
  Where calls are made to fail, the drawing is cut short just before the first of them. -/

namespace Artboard

open Moment (calls)

namespace Document

variable {α : Type} {p : Plan α} {d e : Document} {call : Call} {r : Except CanvasError α}
  {rest : Except CanvasError (Plan α)} {ms : List (Moment Document)}

theorem step_of_makes (h : p.Makes canvas d call rest e) : e = d.step (.call call) := by
  cases h with
  | create h => exact (congrArg Prod.snd h).symm
  | edit h => exact (congrArg Prod.snd h).symm

/-- **The state at a moment is what the calls before it lead to.** -/
theorem state_eq_run (h : p.Runs canvas d ms r e) : ∀ {before after : List (Moment Document)}
    {m : Moment Document}, ms = before ++ m :: after →
      m.state = d.run ((calls before).map .call) := by
  induction h with
  | done a d => intro before after m hms; simp at hms
  | looked rest ih =>
    intro before after m hms
    rcases before with _ | ⟨n, before⟩
    · obtain ⟨rfl, -⟩ := List.cons.inj hms
      rfl
    · obtain ⟨rfl, hrest⟩ := List.cons.inj hms
      have hstate := ih hrest
      exact hstate
  | refused makes =>
    intro before after m hms
    rcases before with _ | ⟨n, before⟩
    · obtain ⟨rfl, -⟩ := List.cons.inj hms
      rfl
    · have := (List.cons.inj hms).2
      simp at this
  | @made p q d e f call ms r makes rest ih =>
    intro before after m hms
    rcases before with _ | ⟨n, before⟩
    · obtain ⟨rfl, -⟩ := List.cons.inj hms
      rfl
    · obtain ⟨rfl, hrest⟩ := List.cons.inj hms
      have hstate := ih hrest
      rw [step_of_makes makes] at hstate
      exact hstate

end Document

namespace Screen

variable {σ : Type} {canvas : Canvas σ}

theorem count_of_draw {s : Screen} {drawing : Drawing} {state after : σ}
    (h : s.draw.run canvas state = (.ok drawing, after)) :
    drawing.count = s.components.length := by
  obtain ⟨board, t, -, h⟩ := Plan.run_bind_eq_ok.mp h
  obtain ⟨pieces, u, -, h⟩ := Plan.run_bind_eq_ok.mp h
  obtain ⟨rfl, -⟩ := Plan.run_pure_eq_ok.mp h
  rfl

theorem generate_eq {s : Screen} {state after : σ} {r : Except CanvasError Drawing}
    (h : s.draw.run canvas state = (r, after)) :
    s.generate canvas state = (.ofDrawing r, after) := by
  rw [generate, h]

/-- **The first refused call ends a drawing.** On any canvas a call that is refused is the last
thing that happens, and its reason is that of the outcome; if none is refused all components count.
Where some calls on a document are made to fail, either none of these comes up and nothing is
different, or the first of them ends the calls that would be made otherwise, and the document stays
as it would be just before it. -/
theorem generate_until_refusal :
    (∀ {σ : Type} (canvas : Canvas σ) (s : Screen) (state : σ),
      let ms := s.draw.moments canvas state
      let run := s.generate canvas state
      s.generate canvas.observed ⟨state, []⟩ = (run.1, ⟨run.2, calls ms⟩) ∧
        (∀ before (m : Moment σ) after (e : CanvasError), ms = before ++ m :: after →
          m.refusal? = some e → after = [] ∧ run.1 = ⟨false, none, some e.message⟩) ∧
        ((∀ m ∈ ms, m.refusal? = none) → run.1 = ⟨true, some s.components.length, none⟩)) ∧
    ∀ (d : Document) (s : Screen) (refuse : List Call → Call → Option CanvasError),
      let ms := s.draw.moments Document.canvas d
      let whole := s.generate Document.canvas.observed ⟨d, []⟩
      let cut := s.generate (Document.canvas.watched refuse) ⟨d, []⟩
      ((∀ earlier call, earlier ++ [call] <+: whole.2.calls → refuse earlier call = none) ∧
          cut = whole) ∨
        ∃ (before : List (Moment Document)) (m : Moment Document) (after : List (Moment Document))
          (call : Call) (e : CanvasError), ms = before ++ m :: after ∧ m.call? = some call ∧
          (∀ earlier c, earlier ++ [c] <+: calls before → refuse earlier c = none) ∧
          refuse (calls before) call = some e ∧ calls before ++ [call] <+: whole.2.calls ∧
          cut = (⟨false, none, some e.message⟩, ⟨m.state, calls before ++ [call]⟩) ∧
          m.state = d.run ((calls before).map .call) := by
  refine ⟨fun {σ} canvas s state => ?_, fun d s refuse => ?_⟩
  · intro ms run
    have hruns : s.draw.Runs canvas state ms _ _ := Plan.runs_moments canvas s.draw state
    have hrun : run = (.ofDrawing (s.draw.run canvas state).1, (s.draw.run canvas state).2) :=
      generate_eq rfl
    refine ⟨?_, fun before m after e hms hm => ?_, fun hms => ?_⟩
    · rw [generate_eq (hruns.observed []), hrun]; rfl
    · obtain ⟨hafter, hresult⟩ := hruns.eq_nil_of_refused hms hm
      exact ⟨hafter, by rw [hrun, hresult]; rfl⟩
    · obtain ⟨drawing, hresult⟩ := hruns.exists_of_unrefused hms
      have hcount : drawing.count = s.components.length :=
        count_of_draw (Prod.ext hresult rfl : s.draw.run canvas state = (.ok drawing, _))
      rw [hrun, hresult, ← hcount]; rfl
  · intro ms whole cut
    have hruns : s.draw.Runs Document.canvas d ms _ _ :=
      Plan.runs_moments Document.canvas s.draw d
    have hwhole : whole = _ := generate_eq (hruns.observed [])
    have hcalls : whole.2.calls = calls ms := by rw [hwhole]; rfl
    rcases hruns.cutShort refuse [] with
      ⟨hno, hcut⟩ | ⟨before, m, after, call, e, hms, hm, hno, he, hcut⟩
    · refine .inl ⟨fun earlier call h => hno earlier call (by rw [← hcalls]; exact h), ?_⟩
      exact (generate_eq hcut).trans hwhole.symm
    · refine .inr ⟨before, m, after, call, e, hms, hm, hno, he, ?_, generate_eq hcut,
        Document.state_eq_run hruns hms⟩
      have hlog : calls ms = calls before ++ [call] ++ calls after := by
        rw [hms]; simp [calls, hm]
      exact ⟨calls after, by rw [hcalls, hlog]⟩

end Screen

end Artboard
