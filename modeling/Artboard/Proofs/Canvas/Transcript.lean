import Artboard.Canvas.Plan
import Mathlib.Data.Fintype.EquivFin

/-! # Transcripts

A transcript says which calls were made in a run and what the canvas answered. Canvases may answer
as they like; the transcripts of a plan are those that are possible at all.

* `Entry`: a call with its answer. `Entry.made`, `Entry.mentions`: the ids in the answer and in the
  call.
* `Canvas.recorded`: a canvas that keeps a transcript of its calls.
* `Plan.Transcript`: the transcripts of a plan. `transcript_recorded`: what is recorded is one.
* `Transcript.of_bind`: a composed plan that goes to its end makes the calls of both parts.
* `Transcript.exists_whole`: a run that was refused broke off in one that goes to its end. -/

namespace Artboard

/-- A call with what the canvas answered. -/
inductive Entry
  | created (primitive : Primitive) (id : ShapeId)
  | changed (edit : Edit)
  | refused (call : Call) (reason : CanvasError)
  deriving DecidableEq, Repr

namespace Entry

/-- The call that was made. -/
def call : Entry → Call
  | .created p _ => .create p
  | .changed e => .edit e
  | .refused c _ => c

/-- The id that the canvas gave. -/
def made : Entry → List ShapeId
  | .created _ id => [id]
  | _ => []

/-- The ids that the canvas gave in a transcript, in order. -/
def ids (log : List Entry) : List ShapeId := log.flatMap made

/-- The ids that the call is about. -/
def mentions (e : Entry) : List ShapeId :=
  match e.call with
  | .create _ => []
  | .edit (.set id _) => [id]
  | .edit (.append parent child) => [parent, child]

/-- The child that was attached. -/
def attached? : Entry → Option ShapeId
  | .changed (.append _ child) => some child
  | _ => none

end Entry

/-- A state of a canvas with the transcript up to it. -/
structure Recorded (σ : Type) where
  state : σ
  log : List Entry

namespace Canvas

/-- The entry for a creation that was answered so. -/
def creation (p : Primitive) : Except CanvasError ShapeId → Entry
  | .ok id => .created p id
  | .error e => .refused (.create p) e

/-- The entry for a change that was answered so. -/
def change (c : Edit) : Except CanvasError Unit → Entry
  | .ok _ => .changed c
  | .error e => .refused (.edit c) e

/-- The canvas that keeps a transcript. -/
def recorded {σ : Type} (canvas : Canvas σ) : Canvas (Recorded σ) where
  create p w :=
    let (answer, state) := canvas.create p w.state
    (answer, ⟨state, w.log ++ [creation p answer]⟩)
  edit c w :=
    let (answer, state) := canvas.edit c w.state
    (answer, ⟨state, w.log ++ [change c answer]⟩)
  center w := canvas.center w.state

section Recorded
variable {σ : Type} {canvas : Canvas σ} {s t : σ}

theorem create_recorded {p : Primitive} {answer : Except CanvasError ShapeId}
    (h : canvas.create p s = (answer, t)) (log : List Entry) :
    canvas.recorded.create p ⟨s, log⟩ = (answer, ⟨t, log ++ [creation p answer]⟩) := by
  simp only [recorded, h]

theorem edit_recorded {c : Edit} {answer : Except CanvasError Unit}
    (h : canvas.edit c s = (answer, t)) (log : List Entry) :
    canvas.recorded.edit c ⟨s, log⟩ = (answer, ⟨t, log ++ [change c answer]⟩) := by
  simp only [recorded, h]

end Recorded

end Canvas

namespace Plan

variable {α β σ : Type}

/-- **The transcripts of a plan**, with the result of the run. The canvas may give any id, refuse
any call and have its centre anywhere. -/
inductive Transcript : Plan α → List Entry → Except CanvasError α → Prop
  | done (a : α) : Transcript (.done a) [] (.ok a)
  | created {p : Primitive} {next : ShapeId → Plan α} {log : List Entry}
      {r : Except CanvasError α} (id : ShapeId) (rest : Transcript (next id) log r) :
      Transcript (.create p next) (.created p id :: log) r
  | uncreated {p : Primitive} {next : ShapeId → Plan α} (e : CanvasError) :
      Transcript (.create p next) [.refused (.create p) e] (.error e)
  | changed {c : Edit} {next : Plan α} {log : List Entry} {r : Except CanvasError α}
      (rest : Transcript next log r) : Transcript (.edit c next) (.changed c :: log) r
  | unchanged {c : Edit} {next : Plan α} (e : CanvasError) :
      Transcript (.edit c next) [.refused (.edit c) e] (.error e)
  | looked {next : Point → Plan α} {log : List Entry} {r : Except CanvasError α} (center : Point)
      (rest : Transcript (next center) log r) : Transcript (.center next) log r

/-- **A canvas that keeps a transcript keeps one of the plan**, and goes on as it would. -/
theorem transcript_recorded (canvas : Canvas σ) : ∀ (p : Plan α) (s : σ) (log : List Entry),
    ∃ more, p.Transcript more (p.run canvas s).1 ∧
      p.run canvas.recorded ⟨s, log⟩ =
        ((p.run canvas s).1, ⟨(p.run canvas s).2, log ++ more⟩)
  | .done a, s, log => ⟨[], .done a, by rw [List.append_nil]; rfl⟩
  | .create p next, s, log => by
    rcases h : canvas.create p s with ⟨e | id, t⟩ <;>
      rw [run, run, h, Canvas.create_recorded h]
    · exact ⟨_, .uncreated e, rfl⟩
    · obtain ⟨more, hmore, hrun⟩ :=
        transcript_recorded canvas (next id) t (log ++ [.created p id])
      rw [List.append_assoc] at hrun
      exact ⟨_, .created id hmore, hrun⟩
  | .edit c next, s, log => by
    rcases h : canvas.edit c s with ⟨e | u, t⟩ <;>
      rw [run, run, h, Canvas.edit_recorded h]
    · exact ⟨_, .unchanged e, rfl⟩
    · obtain ⟨more, hmore, hrun⟩ := transcript_recorded canvas next t (log ++ [.changed c])
      rw [List.append_assoc] at hrun
      exact ⟨_, .changed hmore, hrun⟩
  | .center next, s, log => by
    obtain ⟨more, hmore, hrun⟩ := transcript_recorded canvas (next (canvas.center s)) s log
    exact ⟨more, .looked _ hmore, hrun⟩

/-! ### Transcripts up to the end -/

/-- The transcript of composed plans that go to their end is that of the first and then that of the
second. -/
theorem Transcript.of_bind {k : α → Plan β} {b : β} {p : Plan α} : ∀ {log : List Entry},
    (p >>= k).Transcript log (.ok b) → ∃ a first second, log = first ++ second ∧
      p.Transcript first (.ok a) ∧ (k a).Transcript second (.ok b) := by
  induction p with
  | done a => exact fun h => ⟨a, [], _, rfl, .done a, h⟩
  | create p next ih =>
    intro _ h
    cases h with
    | created id rest =>
      obtain ⟨a, first, second, rfl, ha, hk⟩ := ih id rest
      exact ⟨a, _, second, rfl, .created id ha, hk⟩
  | edit c next ih =>
    intro _ h
    cases h with
    | changed rest =>
      obtain ⟨a, first, second, rfl, ha, hk⟩ := ih rest
      exact ⟨a, _, second, rfl, .changed ha, hk⟩
  | center next ih =>
    intro _ h
    cases h with
    | looked center rest =>
      obtain ⟨a, first, second, rfl, ha, hk⟩ := ih center rest
      exact ⟨a, first, second, rfl, .looked center ha, hk⟩

theorem Transcript.of_pure {a b : α} {log : List Entry}
    (h : (pure a : Plan α).Transcript log (.ok b)) : log = [] ∧ a = b := by
  cases h; exact ⟨rfl, rfl⟩

theorem Transcript.of_map {f : α → β} {p : Plan α} {log : List Entry} {b : β}
    (h : (f <$> p).Transcript log (.ok b)) : ∃ a, p.Transcript log (.ok a) ∧ f a = b := by
  obtain ⟨a, first, second, rfl, ha, hf⟩ := of_bind (k := fun a => pure (f a)) h
  obtain ⟨rfl, rfl⟩ := of_pure hf
  exact ⟨a, by rw [List.append_nil]; exact ha, rfl⟩

theorem Transcript.of_new {p : Primitive} {log : List Entry} {id : ShapeId}
    (h : (new p).Transcript log (.ok id)) : log = [.created p id] := by
  cases h with
  | created id rest => cases rest; rfl

theorem Transcript.of_edit {c : Edit} {log : List Entry}
    (h : (Plan.edit c (.done ())).Transcript log (.ok ())) : log = [.changed c] := by
  cases h with
  | changed rest => cases rest; rfl

theorem Transcript.of_viewCenter {log : List Entry} {center : Point}
    (h : viewCenter.Transcript log (.ok center)) : log = [] := by
  cases h with
  | looked center rest => cases rest; rfl

/-! ### Transcripts up to a refusal -/

/-- A transcript breaks off in another: it begins like it, and the next call is refused. -/
def BreaksOff (whole log : List Entry) (e : CanvasError) : Prop :=
  ∃ before entry after, whole = before ++ entry :: after ∧
    log = before ++ [.refused entry.call e]

theorem breaksOff_cons {x : Entry} {whole log : List Entry} {e : CanvasError}
    (h : BreaksOff whole log e) : BreaksOff (x :: whole) (x :: log) e := by
  obtain ⟨before, entry, after, rfl, rfl⟩ := h
  exact ⟨x :: before, entry, after, rfl, rfl⟩

theorem breaksOff_append {first second log : List Entry} {e : CanvasError} :
    BreaksOff (first ++ second) log e ↔
      BreaksOff first log e ∨ ∃ rest, log = first ++ rest ∧ BreaksOff second rest e := by
  constructor
  · rintro ⟨before, entry, after, hwhole, rfl⟩
    rcases List.append_eq_append_iff.mp hwhole with ⟨middle, rfl, hsecond⟩ | ⟨middle, hfirst, hrest⟩
    · exact .inr ⟨_, List.append_assoc .., middle, entry, after, hsecond, rfl⟩
    · rcases middle with _ | ⟨x, middle⟩
      · rw [List.append_nil] at hfirst
        subst hfirst
        exact .inr ⟨_, rfl, [], entry, after, hrest.symm, rfl⟩
      · obtain ⟨rfl, -⟩ := List.cons.inj hrest
        exact .inl ⟨before, entry, middle, hfirst, rfl⟩
  · rintro (⟨before, entry, after, rfl, rfl⟩ | ⟨_, rfl, before, entry, after, rfl, rfl⟩)
    · exact ⟨before, entry, after ++ second, by simp, rfl⟩
    · exact ⟨first ++ before, entry, after, by simp, by simp⟩

/-- There is always another id. -/
theorem exists_fresh (used : List ShapeId) : ∃ id, id ∉ used := by
  have : Infinite ShapeId := Infinite.of_injective ShapeId.mk fun _ _ h => ShapeId.mk.inj h
  obtain ⟨id, hid⟩ := Infinite.exists_notMem_finset used.toFinset
  exact ⟨id, fun h => hid (List.mem_toFinset.mpr h)⟩

/-- Each plan can go to its end with ids that were not used. -/
theorem exists_transcript : ∀ (p : Plan α) (used : List ShapeId), ∃ log a,
    p.Transcript log (.ok a) ∧ (Entry.ids log).Nodup ∧ ∀ id ∈ Entry.ids log, id ∉ used
  | .done a, _ => ⟨[], a, .done a, List.nodup_nil, List.forall_mem_nil _⟩
  | .create p next, used => by
    obtain ⟨id, hid⟩ := exists_fresh used
    obtain ⟨log, a, h, hnodup, hfresh⟩ := exists_transcript (next id) (id :: used)
    refine ⟨_, a, .created id h, List.nodup_cons.mpr ⟨fun hmem => ?_, hnodup⟩, ?_⟩
    · exact hfresh id hmem (List.mem_cons_self ..)
    · exact List.forall_mem_cons.mpr
        ⟨hid, fun j hj hused => hfresh j hj (List.mem_cons_of_mem _ hused)⟩
  | .edit c next, used => by
    obtain ⟨log, a, h, hrest⟩ := exists_transcript next used
    exact ⟨_, a, .changed h, hrest⟩
  | .center next, used => by
    obtain ⟨log, a, h, hrest⟩ := exists_transcript (next ⟨0.0, 0.0⟩) used
    exact ⟨log, a, .looked _ h, hrest⟩

/-- **A run that was refused broke off in one that goes to its end**, with ids as distinct. -/
theorem Transcript.exists_whole {p : Plan α} {e : CanvasError} : ∀ {log : List Entry},
    p.Transcript log (.error e) → ∀ used : List ShapeId, (Entry.ids log).Nodup →
      (∀ id ∈ Entry.ids log, id ∉ used) → ∃ whole a, p.Transcript whole (.ok a) ∧
        BreaksOff whole log e ∧ (Entry.ids whole).Nodup ∧ ∀ id ∈ Entry.ids whole, id ∉ used := by
  induction p with
  | done a => exact fun h => nomatch h
  | create p next ih =>
    intro _ h used hnodup hfresh
    cases h with
    | uncreated e =>
      obtain ⟨whole, a, h, hids⟩ := exists_transcript (.create p next) used
      cases h with
      | created id rest => exact ⟨_, a, .created id rest, ⟨[], _, _, rfl, rfl⟩, hids⟩
    | created id rest =>
      obtain ⟨hid, hnodup⟩ := List.nodup_cons.mp hnodup
      obtain ⟨hunused, hfresh⟩ := List.forall_mem_cons.mp hfresh
      have hother : ∀ j ∈ Entry.ids _, j ∉ id :: used := fun j hj hmem => by
        rcases List.mem_cons.mp hmem with rfl | hmem
        · exact hid hj
        · exact hfresh j hj hmem
      obtain ⟨whole, a, h, hbreak, hdistinct, hnew⟩ := ih id rest (id :: used) hnodup hother
      refine ⟨_, a, .created id h, breaksOff_cons hbreak, List.nodup_cons.mpr ⟨?_, hdistinct⟩,
        List.forall_mem_cons.mpr ⟨hunused, ?_⟩⟩
      · exact fun hmem => hnew id hmem (List.mem_cons_self ..)
      · exact fun j hj hmem => hnew j hj (List.mem_cons_of_mem _ hmem)
  | edit c next ih =>
    intro _ h used hnodup hfresh
    cases h with
    | unchanged e =>
      obtain ⟨whole, a, h, hids⟩ := exists_transcript next used
      exact ⟨_, a, .changed h, ⟨[], _, _, rfl, rfl⟩, hids⟩
    | changed rest =>
      obtain ⟨whole, a, h, hbreak, hids⟩ := ih rest used hnodup hfresh
      exact ⟨_, a, .changed h, breaksOff_cons hbreak, hids⟩
  | center next ih =>
    intro _ h used hnodup hfresh
    cases h with
    | looked center rest =>
      obtain ⟨whole, a, h, hrest⟩ := ih center rest used hnodup hfresh
      exact ⟨whole, a, .looked center h, hrest⟩

end Plan

end Artboard
