import Artboard.Proofs.Document.Alike
import Artboard.Proofs.Service.Ownership
import Artboard.Proofs.Service.Reports

/-! # Requests at the same time are served one at a time

* `twins_after`: with other ids the same requests lead to the same, up to the ids.
* `Serialised`: what holds whenever clients post messages or empty the document at the same time.
  `serialised_run`: it holds in all runs. -/

namespace Artboard.Service

open Document (Reachable Twins)

variable {ι : Type} {asked : ι → Writer} {es : Trace ι} {f : Traffic ι} {s t : State}
  {d : Document}

/-! ### Other ids -/

/-- A request gets the same response from twins, and leaves twins. -/
theorem twins_respond (panel : Panel) (w : Writer) (h : Twins s.canvas t.canvas) :
    (respond panel w.request s).1 = (respond panel w.request t).1 ∧
      Twins (respond panel w.request s).2.canvas (respond panel w.request t).2.canvas := by
  rw [respond_eq_finish, respond_eq_finish]
  obtain ⟨job, hw⟩ | ⟨outcome, hw⟩ | ⟨response, hw⟩ := w.phase_cases <;> rw [hw]
  · cases job with
    | draw screen => exact ⟨congrArg Response.ofOutcome (h.outcome screen), h.after screen⟩
    | clear => exact ⟨rfl, h.clear⟩
  · exact ⟨rfl, h⟩
  · exact ⟨rfl, h⟩

/-- **With other ids the same requests lead to the same**, up to the ids. -/
theorem twins_after (panel : Panel) (asked : ι → Writer) : ∀ (order : List ι) {s t : State},
    Twins s.canvas t.canvas → Twins (after panel (requests asked order) s).canvas
      (after panel (requests asked order) t).canvas
  | [], _, _, h => h
  | i :: order, _, _, h => twins_after panel asked order (twins_respond panel (asked i) h).2

/-! ### All together -/

/-- **What holds whenever clients post messages or empty the document at the same time**, after
steps in any order. -/
structure Serialised [DecidableEq ι] (panel : Panel) (asked : ι → Writer) (d : Document)
    (es : Trace ι) (f : Traffic ι) : Prop where
  /-- What was done with the document was done by one client after another, each of which got it
  once. -/
  batches : (acquired es).Nodup ∧ Batched (acquired es) (onHost es)
  /-- A request is about shapes that it created itself, and no two requests have a shape in
  common. -/
  own : ∀ i entry, (i, .call entry) ∈ es → ∀ id ∈ entry.mentions, id ∈ made es i
  apart : ∀ i j id, id ∈ made es i → id ∈ made es j → i = j
  /-- A child and its board come from one request, or both were there before. -/
  families : ∀ child parent, f.state.canvas.parent? child = some parent →
    ∀ i, child ∈ made es i ↔ parent ∈ made es i
  /-- The shapes of one request stand together in the order of creation, or all of them were
  removed. -/
  together : ∀ i, made es i <:+: f.state.canvas.order ∨
    ∀ id ∈ made es i, id ∉ f.state.canvas.order
  /-- Whenever nobody has the document it is as it is after the requests that got it so far, one at
  a time. -/
  document : f.holder = none →
    f.state.canvas = (after panel (requests asked (acquired es)) (start d)).canvas
  /-- Who has the document can go on alone until it is given back, also where a call is refused, and
  so each client can be answered. -/
  released : ∀ i, f.holder = some i → Frees f i
  answerable : ∀ i, Answerable f i
  /-- There is an order of all requests in which those that got the document stand as they got
  it. -/
  arranged : ∃ order, Arrangement es order
  /-- When everybody was answered, the state and all answers are those of the same requests one at a
  time, in each such order. -/
  state : Settled es → ∀ order, Arrangement es order →
    f.state = after panel (requests asked order) (start d)
  answers : Settled es → ∀ before i later, Arrangement es (before ++ i :: later) →
    (i, .answer (respond panel (asked i).request
      (after panel (requests asked before) (start d))).1) ∈ es
  /-- With other ids the same requests one at a time lead to the same answers and, up to the ids, to
  the same design. -/
  renamed : Settled es → ∀ d', Twins d d' → ∀ order, Arrangement es order →
    f.state.canvas.snapshot.Alike
        (after panel (requests asked order) (start d')).canvas.snapshot ∧
      ∀ before i later, order = before ++ i :: later →
        (i, .answer (respond panel (asked i).request
          (after panel (requests asked before) (start d'))).1) ∈ es
  /-- The number of outcomes is that of the designs that were asked for and answered. -/
  counter : Settled es → f.state.listener =
    (answered es).countP fun i => (asked i).request.asksForDesign

/-- **Requests at the same time are served one at a time**, whatever the order of their steps is. -/
theorem serialised_run [DecidableEq ι] (panel : Panel) (hd : Reachable d)
    (hrun : Run (.opening asked (start d)) es f) : Serialised panel asked d es f := by
  have hheld := held_run hrun
  have howned := owned_run hd.wellFormed hrun
  have hserial := serial_run panel hrun
  have hstart {d' : Document} (htwins : Twins d d') : Twins (start d).canvas (start d').canvas :=
    htwins
  refine
    { batches := ⟨(queued_run hrun).nodup, hheld.batched⟩
      own := howned.own
      apart := howned.spent.apart
      families := howned.families
      together := howned.together hheld
      document := fun hfree => by rw [← hserial.document, upshot_of_free hfree]
      released := fun i hi => frees_of_inside ((hheld.holder i).mp hi)
      answerable := answerable hheld
      arranged := exists_arrangement hrun
      state := fun hsettled order => state_settled panel hrun hsettled
      answers := fun hsettled before i later h => answers_settled panel hrun hsettled h rfl
      renamed := fun hsettled d' htwins order h => ⟨?_, fun before i later horder => ?_⟩
      counter := fun hsettled => (listener_settled hrun hsettled).trans (Nat.zero_add _) }
  · rw [state_settled panel hrun hsettled h]
    exact (twins_after panel asked order (hstart htwins)).snapshot
  · have hanswer := answers_settled panel hrun hsettled h horder
    rwa [(twins_respond panel (asked i)
      (twins_after panel asked before (hstart htwins))).1] at hanswer

/-! ### Three clients -/

/-- The first client asks for a board of negative width, the second one empties the document, and
the third one posts what is not announced as JSON. -/
def threeClients : Fin 3 → Writer
  | 0 => ⟨⟨"POST", "/api/messages", some "application/json", .ofString
      "\x7b\"type\":\"generate-design\",\"data\":\x7b\"frame\":\x7b\"width\":-1\x7d\x7d\x7d",
      .free⟩, .inl (by decide +kernel)⟩
  | 1 => ⟨⟨"DELETE", "/api/document", none, .ofString "", .free⟩, .inr (by decide +kernel)⟩
  | 2 => ⟨⟨"POST", "/api/messages", none, .ofString "", .free⟩, .inl (by decide +kernel)⟩

theorem phase_of_screen {w : Writer} {screen : Screen} (hmethod : w.request.method = "POST")
    (h : (decodeBody w.request).toOption.map (fun m => (m.isForDesign, m.screen)) =
      some (true, .ok screen)) : w.phase = .waiting (.draw screen) := by
  unfold Writer.phase
  rw [if_pos hmethod]
  cases hbody : decodeBody w.request with
  | error response => rw [hbody] at h; cases h
  | ok m =>
    rw [hbody] at h
    obtain ⟨hdesign, hscreen⟩ := Prod.ext_iff.mp (Option.some.inj h)
    simp only at hdesign hscreen
    show Phase.ofMessage m = _
    rw [Phase.ofMessage, if_pos hdesign, hscreen]

/-- A drawing is refused at its third call. Before it has given the document back another client is
answered, and a reset comes before the listener and the first client hear of the refusal. -/
theorem exists_run_of_refused {asked : Fin 3 → Writer} {screen : Screen} {response : Response}
    {p : Primitive} {next : ShapeId → Plan Drawing} {id : ShapeId} {c c' : Edit}
    {rest : Plan Drawing} {d d' : Document} {e : CanvasError}
    (h₀ : (asked 0).phase = .waiting (.draw screen)) (h₁ : (asked 1).phase = .waiting .clear)
    (h₂ : (asked 2).phase = .answering response) (hplan : screen.draw = .create p next)
    (hnext : next id = .edit c (.edit c' rest))
    (hcreate : Document.canvas.create p s.canvas = (.ok id, d))
    (hedit : Document.canvas.edit c d = (.ok (), d'))
    (hrefused : Document.canvas.edit c' d' = (.error e, d')) :
    ∃ es f, Run (.opening asked s) es f ∧ Settled es ∧ acquired es = [0, 1] := by
  have run := Run.still (f := Traffic.opening asked s)
  have run := run.step (step_of_turn (i := 0) h₀ (.acquire _ _) fun _ => rfl)
  have run := run.step
    (step_of_turn (i := 0) (by simp [Phase.ofJob, hplan]; rfl) (.create hcreate) (by simp))
  have run := run.step
    (step_of_turn (i := 2) (by simpa [Traffic.opening] using h₂) (.answer _ _) (by simp))
  have run := run.step
    (step_of_turn (i := 0) (by simp [Except.map, hnext]; rfl) (.edit hedit) (by simp))
  have run := run.step
    (step_of_turn (i := 0) (by simp [Except.map]; rfl) (.edit hrefused) (by simp))
  have run := run.step (step_of_turn (i := 0) (by simp [Except.map]; rfl) (.giveUp _ _) (by simp))
  have run := run.step
    (step_of_turn (i := 1) (by simpa [Traffic.opening] using h₁) (.acquire _ _) fun _ => rfl)
  have run := run.step (step_of_turn (i := 1) (by simp [Phase.ofJob]) (.clear _) (by simp))
  have run := run.step (step_of_turn (i := 0) (by simp; rfl) (.report _ _) (by simp))
  have run := run.step (step_of_turn (i := 1) (by simp) (.leave _) (by simp))
  have run := run.step (step_of_turn (i := 0) (by simp; rfl) (.answer _ _) (by simp))
  have run := run.step (step_of_turn (i := 1) (by simp; rfl) (.answer _ _) (by simp))
  exact ⟨_, _, run, by simp [Settled], by simp [acquired, who]⟩

theorem serialised_three : Reachable Document.sketch ∧ ∃ es f,
    Run (.opening threeClients (start Document.sketch)) es f ∧ Settled es ∧ acquired es = [0, 1] ∧
      Serialised .standard threeClients Document.sketch es f := by
  let screen : Screen := ⟨⟨none, some (-1.0), none⟩, []⟩
  have hscreen : (threeClients 0).phase = .waiting (.draw screen) :=
    phase_of_screen rfl (by decide +kernel)
  have hsketch : Reachable Document.sketch := ⟨_, _, _, rfl⟩
  let naming (id : ShapeId) : Edit := .set id (.name "AI Generated Frame")
  let resizing (id : ShapeId) : Edit := .set id (.size (-1.0) 667.0)
  obtain ⟨rest, hplan⟩ : ∃ rest : ShapeId → Plan Drawing, screen.draw = .create .board fun id =>
      .edit (naming id) (.edit (resizing id) (rest id)) := ⟨_, rfl⟩
  obtain ⟨d, hedit⟩ : ∃ d, Document.canvas.edit (naming Document.sketch.nextId)
      (Document.sketch.create .board).2 = (.ok (), d) := ⟨_, rfl⟩
  have hrefused : Document.canvas.edit (resizing Document.sketch.nextId) d =
    (.error (.invalidGeometry "width" (-1.0)), d) := rfl
  obtain ⟨es, f, hrun, hsettled, hacquired⟩ := exists_run_of_refused
    (s := start Document.sketch) hscreen rfl rfl hplan rfl rfl hedit hrefused
  exact ⟨hsketch, es, f, hrun, hsettled, hacquired, serialised_run .standard hsketch hrun⟩

end Artboard.Service
