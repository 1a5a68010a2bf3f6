import Artboard.Proofs.Service.Exclusion
import Artboard.Proofs.Service.History

/-! # The same requests one at a time

* `Phase.finish`: what is left of a request, done at a stretch. `respond_eq_finish`: this is how a
  request is answered that comes alone; `finish_of_turn`: a turn does the first piece of it.
* `Serial`: what requests at the same time come to, if whoever has the document goes on to the end,
  is what the same requests come to one at a time. `serial_run`: this is so in all runs.
* `canvas_after_waiting`: requests that do not wait for the document may stand anywhere. -/

namespace Artboard.Service

/-! ### What is left of a request -/

/-- The listener hears an outcome, and the client gets it. -/
def conclude (outcome : Outcome) (s : State) : Response × State :=
  (.ofOutcome outcome,
    { s with listener := bridge.listen (.generationComplete outcome) s.listener })

/-- What is left of a drawing, made at a stretch. -/
def drawOut (s : State) : Except CanvasError (Plan Drawing) → Response × State
  | .error e => conclude (.ofDrawing (.error e)) s
  | .ok plan =>
    let (result, d) := plan.run Document.canvas s.canvas
    conclude (.ofDrawing result) { s with canvas := d }

/-- **What is left of a request, done at a stretch**: the response and the state after it. -/
def Phase.finish (s : State) : Phase → Response × State
  | .waiting (.draw screen) => drawOut s (.ok screen.draw)
  | .drawing rest => drawOut s rest
  | .waiting .clear | .clearing => (.empty 204, { s with canvas := s.canvas.clear })
  | .cleared => (.empty 204, s)
  | .reporting outcome => conclude outcome s
  | .answering response | .answered response => (response, s)

section Finish
variable {p q : Phase} {s t : State} {a : Action}

theorem finish_ofJob (job : Job) (s : State) : (Phase.ofJob job).finish s =
    (Phase.waiting job).finish s := by cases job <;> rfl

theorem finish_ofMessage (m : Message) (s : State) : (Phase.ofMessage m).finish s =
    match bridge.receive m s with
    | (some reply, s) => (.json 200 reply.toJson.compact, s)
    | (none, s) => (.empty 204, s) := by
  unfold Phase.ofMessage Bridge.receive Bridge.answer
  split_ifs with h
  · cases m.screen <;> rfl
  · rfl

/-- **A request that comes alone is done at a stretch.** -/
theorem respond_eq_finish (panel : Panel) (w : Writer) (s : State) :
    respond panel w.request s = w.phase.finish s := by
  obtain ⟨r, hwrites⟩ := w
  unfold Writer.phase
  by_cases hmethod : r.method = "POST"
  · have hroute := (hwrites.resolve_right (Request.not_resets_of_post hmethod)).2
    rw [respond_post panel hmethod hroute, if_pos hmethod, deliver]
    cases hbody : decodeBody r with
    | error response => rfl
    | ok m => exact (finish_ofMessage m s).symm
  · have hreset := hwrites.resolve_left fun h => hmethod h.1
    rw [respond_reset panel hreset, if_neg hmethod]; rfl

/-- **A turn does the first piece of what is left.** -/
theorem finish_of_turn (h : Turn p s a q t) : q.finish t = p.finish s := by
  cases h with
  | acquire job => exact finish_ofJob job s
  | @create _ _ _ answer _ call | @edit _ _ _ answer _ call =>
    cases answer <;> simp only [Except.map, Phase.finish, drawOut, Plan.run, call]
  | _ => rfl

/-- What is left of a request does not depend on the number of outcomes. -/
theorem finish_congr (hcanvas : s.canvas = t.canvas) :
    (p.finish s).1 = (p.finish t).1 ∧ (p.finish s).2.canvas = (p.finish t).2.canvas := by
  obtain ⟨d, m⟩ := s
  obtain ⟨e, n⟩ := t
  obtain rfl : d = e := hcanvas
  cases p with
  | waiting job => cases job <;> exact ⟨rfl, rfl⟩
  | drawing rest => cases rest <;> exact ⟨rfl, rfl⟩
  | _ => exact ⟨rfl, rfl⟩

/-- Who has nothing to do with the document any more gets an answer that does not depend on it. -/
theorem finish_after (hp : p.stage = .after) (s t : State) :
    (p.finish s).1 = (p.finish t).1 ∧ (p.finish s).2.canvas = s.canvas := by
  cases p with
  | reporting | answering | answered => exact ⟨rfl, rfl⟩
  | _ => cases hp

end Finish

/-! ### What requests at the same time come to -/

variable {ι : Type} {panel : Panel} {asked : ι → Writer} {es : Trace ι} {f g : Traffic ι} {i : ι}
  {a : Action} {s t : State}

/-- The requests of some clients. -/
def requests (asked : ι → Writer) (order : List ι) : List Request :=
  order.map fun i => (asked i).request

theorem requests_concat (asked : ι → Writer) (order : List ι) (i : ι) :
    requests asked (order ++ [i]) = requests asked order ++ [(asked i).request] := by
  rw [requests, List.map_append]; rfl

/-- The response that a client is going to get, if nobody does anything else. -/
def Traffic.response (f : Traffic ι) (i : ι) : Response := ((f.phase i).finish f.state).1

/-- The state when whoever has the document is done. -/
def Traffic.upshot (f : Traffic ι) : State :=
  match f.holder with
  | none => f.state
  | some i => ((f.phase i).finish f.state).2

/-- **What requests at the same time come to** is what they come to one at a time, in the order in
which they got the document. -/
structure Serial (panel : Panel) (asked : ι → Writer) (s : State) (es : Trace ι) (f : Traffic ι) :
    Prop where
  document : f.upshot.canvas = (after panel (requests asked (acquired es)) s).canvas
  response : ∀ before i later, acquired es = before ++ i :: later →
    f.response i = (respond panel (asked i).request (after panel (requests asked before) s)).1
  /-- Who never waits for the document gets the answer that it gets at any time. -/
  other : ∀ i, (asked i).phase.stage = .after → (f.phase i).stage = .after ∧
    ∀ t, f.response i = (respond panel (asked i).request t).1

theorem upshot_of_free (h : f.holder = none) : f.upshot = f.state := by rw [Traffic.upshot, h]

theorem upshot_of_holder (h : f.holder = some i) : f.upshot = ((f.phase i).finish f.state).2 := by
  rw [Traffic.upshot, h]

theorem serial_opening (panel : Panel) (asked : ι → Writer) (s : State) :
    Serial panel asked s [] (.opening asked s) where
  document := rfl
  response before i later h := by simp [acquired, who] at h
  other i hi := ⟨hi, fun t => by rw [respond_eq_finish]; exact (finish_after hi s t).1⟩

/-- Whoever does not have the document leaves it alone while somebody has it. -/
theorem canvas_of_step [DecidableEq ι] (hheld : Held es f) (hstep : Step f (i, a) g) {j : ι}
    (hj : f.holder = some j) (hne : j ≠ i) : g.state.canvas = f.state.canvas := by
  have hout (hin : (f.phase i).stage = .inside) : j = i := by
    have hi := (hheld.holder i).mpr hin
    rw [hj] at hi
    exact Option.some.inj hi
  cases hstep.kind with
  | enters _ _ _ _ state => rw [state]
  | ends _ _ _ _ canvas => exact canvas
  | works _ inside | leaves _ inside => exact absurd (hout inside) hne

/-- A step does not change what any client is going to get that has begun. -/
theorem response_of_step [DecidableEq ι] (hheld : Held es f) (hstep : Step f (i, a) g) {j : ι}
    (hj : j = i ∨ (f.phase j).stage ≠ .before) : g.response j = f.response j := by
  by_cases hne : j = i
  · subst hne
    exact congrArg Prod.fst (finish_of_turn hstep.turn)
  · rw [Traffic.response, Traffic.response, hstep.others j hne]
    cases hstage : (f.phase j).stage with
    | before => exact absurd hstage (hj.resolve_left hne)
    | after => exact (finish_after hstage _ _).1
    | inside =>
      exact (finish_congr (canvas_of_step hheld hstep ((hheld.holder j).mpr hstage) hne)).1

/-- Who gets the document finds it as those before have left it. -/
theorem Serial.found (h : Serial panel asked s es f) (hfree : f.holder = none) (i : ι) :
    ((asked i).phase.finish f.state).1 =
        (respond panel (asked i).request (after panel (requests asked (acquired es)) s)).1 ∧
      ((asked i).phase.finish f.state).2.canvas =
        (after panel (requests asked (acquired es ++ [i])) s).canvas := by
  have hcanvas := h.document
  rw [upshot_of_free hfree] at hcanvas
  rw [requests_concat, after_concat, respond_eq_finish]
  exact finish_congr hcanvas

section Step
variable [DecidableEq ι]

/-- Where the document was given to nobody the upshot stays what it was. -/
theorem upshot_of_step (hheld : Held es f) (hstep : Step f (i, a) g) (ha : a ≠ .acquire) :
    g.upshot.canvas = f.upshot.canvas := by
  have hrest := congrArg (fun x => x.2.canvas) (finish_of_turn hstep.turn)
  cases hstep.kind with
  | enters acquire => exact absurd acquire ha
  | works _ inside _ holder =>
    have hhas : f.holder = some i := (hheld.holder i).mpr inside
    rw [upshot_of_holder hhas, upshot_of_holder (holder.trans hhas)]
    exact hrest
  | leaves _ inside after _ holder =>
    rw [upshot_of_holder ((hheld.holder i).mpr inside), upshot_of_free holder, ← hrest]
    exact (finish_after after g.state g.state).2.symm
  | ends _ _ past _ canvas holder =>
    cases hhas : f.holder with
    | none => rw [upshot_of_free hhas, upshot_of_free (holder.trans hhas), canvas]
    | some j =>
      have hne : j ≠ i := fun heq => by
        have hin := (hheld.holder j).mp hhas
        rw [heq, past] at hin
        cases hin
      rw [upshot_of_holder hhas, upshot_of_holder (holder.trans hhas), hstep.others j hne]
      exact (finish_congr canvas).2

/-- **A step keeps it.** -/
theorem Serial.step (h : Serial panel asked s es f) (hqueued : Queued asked es f)
    (hheld : Held es f) (hstep : Step f (i, a) g) : Serial panel asked s (es ++ [(i, a)]) g := by
  have hresponse {j : ι} := response_of_step hheld hstep (j := j)
  have hfound (ha : a = .acquire) := h.found (hstep.free ha) i
  have hbegins (ha : a = .acquire) : f.phase i = (asked i).phase :=
    hqueued.waiting i (hstep.turn.acquire_iff.mp ha)
  have hbegun (before later : List ι) (j : ι) (hj : acquired es = before ++ j :: later) :
      g.response j = f.response j :=
    hresponse (.inr ((hqueued.mem_acquired j).mp (by rw [hj]; simp)).2)
  refine ⟨?_, fun before j later hacquired => ?_, fun j hj => ?_⟩
  · rw [acquired_concat]
    split_ifs with ha
    · have hholder : g.holder = some i := by rw [hstep.holder, ha]; rfl
      rw [upshot_of_holder hholder, finish_of_turn hstep.turn, hbegins ha]
      exact (hfound ha).2
    · rw [upshot_of_step hheld hstep ha]
      exact h.document
  · rw [acquired_concat] at hacquired
    split_ifs at hacquired with ha
    · rcases List.eq_nil_or_concat later with rfl | ⟨rest, k, rfl⟩
      · obtain ⟨rfl, heq⟩ := List.append_inj' hacquired rfl
        obtain rfl : i = j := List.singleton_inj.mp heq
        rw [hresponse (.inl rfl), Traffic.response, hbegins ha]
        exact (hfound ha).1
      · rw [List.concat_eq_append, ← List.cons_append, ← List.append_assoc] at hacquired
        have hbefore := (List.append_inj' hacquired rfl).1
        rw [hbegun before rest j hbefore]
        exact h.response before j rest hbefore
    · rw [hbegun before later j hacquired]
      exact h.response before j later hacquired
  · obtain ⟨hstage, hany⟩ := h.other j hj
    rw [hresponse (.inr (by rw [hstage]; simp))]
    refine ⟨?_, hany⟩
    by_cases hne : j = i
    · subst hne
      cases hstep.kind with
      | ends _ _ _ after => exact after
      | enters _ _ before => rw [hstage] at before; cases before
      | works _ inside | leaves _ inside => rw [hstage] at inside; cases inside
    · rw [hstep.others j hne]
      exact hstage

theorem serial_run (panel : Panel) (hrun : Run (.opening asked s) es f) :
    Serial panel asked s es f := by
  induction hrun with
  | still => exact serial_opening panel asked s
  | step hrun hstep ih => exact ih.step (queued_run hrun) (held_run hrun) hstep

end Step

/-! ### Requests that do not wait -/

/-- **Only requests that wait for the document change it**, and they do so whatever the number of
outcomes is. -/
theorem canvas_after_waiting (panel : Panel) (asked : ι → Writer) : ∀ (order : List ι)
    {s t : State}, s.canvas = t.canvas →
      let waiting := order.filter fun i => (asked i).phase.stage = .before
      (after panel (requests asked order) s).canvas =
        (after panel (requests asked waiting) t).canvas
  | [], _, _, h => h
  | i :: order, s, t, h => by
    have ih {s t : State} (h : s.canvas = t.canvas) := canvas_after_waiting panel asked order h
    by_cases hi : (asked i).phase.stage = .before
    · rw [List.filter_cons_of_pos (by simpa using hi)]
      refine ih ?_
      simp only [respond_eq_finish]
      exact (finish_congr h).2
    · rw [List.filter_cons_of_neg (by simpa using hi)]
      refine ih ?_
      simp only [respond_eq_finish]
      rw [(finish_after ((asked i).stage_phase.resolve_left hi) s s).2, h]

end Artboard.Service
