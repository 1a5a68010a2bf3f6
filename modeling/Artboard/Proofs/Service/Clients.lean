import Artboard.Proofs.Canvas.Transcript
import Artboard.Proofs.Service.Effect
import Mathlib.Logic.Function.Basic

/-! # Requests at the same time

Many clients post messages or empty the document at the same time. A request that draws or empties
waits until nobody has the document, and has it until its last call is made or refused. The listener
hears of a drawing afterwards, and then the client gets the answer. All of this is done in single
steps, and between any two of them other requests may do some of theirs.

* `Writer`, `Phase`: a request that may change what the service keeps, and how far it has got.
* `Turn`: what a request does next.
* `Traffic`, `Step`, `Run`: all requests and who has the document, single steps and runs. A client
  that sends several requests counts as several. `Step.kind`: what a step has to do with the
  document.
* `acquired`, `onHost`, `made`: what can be read off a run. -/

namespace Artboard.Service

/-! ### Single requests -/

/-- A request that may change what the service keeps: something is posted, or the document is to be
emptied. -/
structure Writer where
  request : Request
  writes : (request.method = "POST" ∧ Route.of? request.target = some .messages) ∨ request.Resets

/-- What is done while nobody else has the document. -/
inductive Job
  | draw (screen : Screen)
  | clear

/-- How far a request has got. -/
inductive Phase
  /-- It waits for the document. -/
  | waiting (job : Job)
  /-- It has the document and draws: what is left of the drawing, or why the last call was
  refused. -/
  | drawing (rest : Except CanvasError (Plan Drawing))
  /-- It has the document and is to empty it. -/
  | clearing
  /-- It has the document and has emptied it. -/
  | cleared
  /-- It does not have the document, and the listener is to hear the outcome. -/
  | reporting (outcome : Outcome)
  | answering (response : Response)
  | answered (response : Response)

/-- Something that a request does. -/
inductive Action
  | acquire
  /-- A call is made, with its answer. -/
  | call (entry : Entry)
  /-- The document is asked for its centre. -/
  | look
  | clear
  | release
  | report (outcome : Outcome)
  | answer (response : Response)
  deriving DecidableEq

/-- Where a request begins to which the document is given. -/
def Phase.ofJob : Job → Phase
  | .draw screen => .drawing (.ok screen.draw)
  | .clear => .clearing

/-- Where the request with a message begins. It waits for the document only if there is a screen to
be drawn. -/
def Phase.ofMessage (m : Message) : Phase :=
  if m.isForDesign then
    match m.screen with
    | .ok screen => .waiting (.draw screen)
    | .error e => .reporting (.failed (undecodable ++ e.message))
  else .answering (.empty 204)

/-- Where a request begins. -/
def Writer.phase (w : Writer) : Phase :=
  if w.request.method = "POST" then
    match decodeBody w.request with
    | .ok m => .ofMessage m
    | .error response => .answering response
  else .waiting .clear

/-- **What a request does next**, with the state of the service before and after it. -/
inductive Turn : Phase → State → Action → Phase → State → Prop
  | acquire (job : Job) (s : State) : Turn (.waiting job) s .acquire (.ofJob job) s
  | create {p : Primitive} {next : ShapeId → Plan Drawing} {s : State}
      {answer : Except CanvasError ShapeId} {d : Document}
      (call : Document.canvas.create p s.canvas = (answer, d)) :
      Turn (.drawing (.ok (.create p next))) s (.call (Canvas.creation p answer))
        (.drawing (answer.map next)) { s with canvas := d }
  | edit {c : Edit} {next : Plan Drawing} {s : State} {answer : Except CanvasError Unit}
      {d : Document} (call : Document.canvas.edit c s.canvas = (answer, d)) :
      Turn (.drawing (.ok (.edit c next))) s (.call (Canvas.change c answer))
        (.drawing (answer.map fun _ => next)) { s with canvas := d }
  | look (next : Point → Plan Drawing) (s : State) :
      Turn (.drawing (.ok (.center next))) s .look
        (.drawing (.ok (next (Document.canvas.center s.canvas)))) s
  | clear (s : State) : Turn .clearing s .clear .cleared { s with canvas := s.canvas.clear }
  /-- The drawing is at its end. -/
  | finish (drawing : Drawing) (s : State) :
      Turn (.drawing (.ok (.done drawing))) s .release (.reporting (.ofDrawing (.ok drawing))) s
  /-- A call of the drawing was refused. -/
  | giveUp (e : CanvasError) (s : State) :
      Turn (.drawing (.error e)) s .release (.reporting (.ofDrawing (.error e))) s
  | leave (s : State) : Turn .cleared s .release (.answering (.empty 204)) s
  | report (outcome : Outcome) (s : State) :
      Turn (.reporting outcome) s (.report outcome) (.answering (.ofOutcome outcome))
        { s with listener := bridge.listen (.generationComplete outcome) s.listener }
  | answer (response : Response) (s : State) :
      Turn (.answering response) s (.answer response) (.answered response) s

/-! ### Many requests -/

/-- The service with the requests of all clients. -/
structure Traffic (ι : Type) where
  state : State
  /-- Who has the document. -/
  holder : Option ι
  phase : ι → Phase

/-- What was done by whom, the latest last. -/
abbrev Trace (ι : Type) := List (ι × Action)

section Runs
variable {ι : Type}

/-- Who has the document when a client has done something. -/
def Action.holder (i : ι) (holder : Option ι) : Action → Option ι
  | .acquire => some i
  | .release => none
  | _ => holder

/-- Nothing was done yet. -/
def Traffic.opening (asked : ι → Writer) (s : State) : Traffic ι :=
  ⟨s, none, fun i => (asked i).phase⟩

/-- **One client does the next thing.** -/
structure Step (f : Traffic ι) (e : ι × Action) (g : Traffic ι) : Prop where
  turn : Turn (f.phase e.1) f.state e.2 (g.phase e.1) g.state
  /-- The document is given to a client only while nobody has it. -/
  free : e.2 = .acquire → f.holder = none
  holder : g.holder = e.2.holder e.1 f.holder
  /-- The other requests stay where they are. -/
  others : ∀ j, j ≠ e.1 → g.phase j = f.phase j

/-- **Clients take steps**, in any order. -/
inductive Run (f : Traffic ι) : Trace ι → Traffic ι → Prop
  | still : Run f [] f
  | step {es : Trace ι} {e : ι × Action} {g h : Traffic ι} (run : Run f es g) (step : Step g e h) :
      Run f (es ++ [e]) h

/-! ### What can be read off a run -/

/-- Who did things of some kind, in order. -/
def who (does : Action → Bool) (es : Trace ι) : List ι := (es.filter fun e => does e.2).map Prod.fst

/-- Who got the document, in order. -/
def acquired : Trace ι → List ι := who fun a => a = .acquire

/-- Whether an action has to do with the document. -/
def Action.onHost : Action → Bool
  | .call _ | .look | .clear => true
  | _ => false

/-- What was done with the document. -/
def onHost (es : Trace ι) : Trace ι := es.filter fun e => e.2.onHost

/-- The shapes that an action creates. -/
def Action.made : Action → List ShapeId
  | .call entry => entry.made
  | _ => []

/-- The shapes that a client created, in order. -/
def made [DecidableEq ι] (es : Trace ι) (i : ι) : List ShapeId :=
  es.flatMap fun e => if e.1 = i then e.2.made else []

/-- Everybody who was heard of was answered. -/
def Settled (es : Trace ι) : Prop := ∀ e ∈ es, ∃ response, (e.1, .answer response) ∈ es

section Concat
variable (es : Trace ι) (i j : ι) (a : Action)

theorem who_concat (does : Action → Bool) : who does (es ++ [(i, a)]) =
    if does a then who does es ++ [i] else who does es := by
  unfold who
  split_ifs with h <;> simp [h]

theorem acquired_concat : acquired (es ++ [(i, a)]) =
    if a = .acquire then acquired es ++ [i] else acquired es := by
  simp only [acquired, who_concat, decide_eq_true_eq]

theorem onHost_concat : onHost (es ++ [(i, a)]) =
    if a.onHost then onHost es ++ [(i, a)] else onHost es := by
  unfold onHost
  split_ifs with h <;> simp [h]

theorem made_concat [DecidableEq ι] :
    made (es ++ [(i, a)]) j = made es j ++ if i = j then a.made else [] := by
  simp [made]

end Concat

end Runs

/-! ### Stages -/

/-- Where a request stands to the document. -/
inductive Stage
  | before
  | inside
  | after
  deriving DecidableEq

/-- Whether a request waits for the document, has it, or has nothing to do with it any more. -/
def Phase.stage : Phase → Stage
  | .waiting _ => .before
  | .drawing _ | .clearing | .cleared => .inside
  | .reporting _ | .answering _ | .answered _ => .after

theorem stage_ofJob (job : Job) : (Phase.ofJob job).stage = .inside := by cases job <;> rfl

section Turns
variable {p q : Phase} {s t : State} {a : Action}

theorem Turn.acquire_iff (h : Turn p s a q t) : a = .acquire ↔ p.stage = .before := by
  cases h <;> simp [Phase.stage]

theorem Turn.stage_ne_before (h : Turn p s a q t) : q.stage ≠ .before := by
  cases h with
  | acquire job => rw [stage_ofJob]; simp
  | _ => simp [Phase.stage]

end Turns

/-- **What a step has to do with the document.** -/
inductive Step.Kind {ι : Type} (f : Traffic ι) (i : ι) (a : Action) (g : Traffic ι) : Prop
  | enters (acquire : a = .acquire) (free : f.holder = none)
      (before : (f.phase i).stage = .before) (inside : (g.phase i).stage = .inside)
      (state : g.state = f.state) (holder : g.holder = some i)
  | works (host : a.onHost = true) (inside : (f.phase i).stage = .inside)
      (still : (g.phase i).stage = .inside) (holder : g.holder = f.holder)
  | leaves (release : a = .release) (inside : (f.phase i).stage = .inside)
      (after : (g.phase i).stage = .after) (state : g.state = f.state) (holder : g.holder = none)
  | ends (acquire : a ≠ .acquire) (host : a.onHost = false) (past : (f.phase i).stage = .after)
      (after : (g.phase i).stage = .after) (canvas : g.state.canvas = f.state.canvas)
      (holder : g.holder = f.holder)

theorem Step.kind {ι : Type} {f g : Traffic ι} {i : ι} {a : Action} (h : Step f (i, a) g) :
    Step.Kind f i a g := by
  obtain ⟨turn, free, holder, -⟩ := h
  simp only at turn free holder
  generalize hp : f.phase i = p at turn
  generalize hs : f.state = s at turn
  generalize hq : g.phase i = q at turn
  generalize ht : g.state = t at turn
  cases turn with
  | acquire job =>
    exact .enters rfl (free rfl) (hp ▸ rfl) (hq ▸ stage_ofJob job) (ht.trans hs.symm) holder
  | finish | giveUp | leave =>
    exact .leaves rfl (hp ▸ rfl) (hq ▸ rfl) (ht.trans hs.symm) holder
  | report | answer =>
    exact .ends (by simp) rfl (hp ▸ rfl) (hq ▸ rfl) (by rw [ht, hs]) holder
  | _ => exact .works rfl (hp ▸ rfl) (hq ▸ rfl) holder

theorem Action.ne_acquire {a : Action} (h : a.onHost = true) : a ≠ .acquire := by
  rintro rfl; cases h

/-- Who has a turn can take a step. -/
theorem step_of_turn {ι : Type} [DecidableEq ι] {f : Traffic ι} {i : ι} {a : Action} {p q : Phase}
    {s : State} (hp : f.phase i = p) (turn : Turn p f.state a q s)
    (free : a = .acquire → f.holder = none) :
    Step f (i, a) ⟨s, a.holder i f.holder, Function.update f.phase i q⟩ where
  turn := by simpa [hp] using turn
  free := free
  holder := rfl
  others _ hj := Function.update_of_ne hj ..

/-- A request waits for the document in the beginning, or it has nothing to do with it. -/
theorem Writer.phase_cases (w : Writer) : (∃ job, w.phase = .waiting job) ∨
    (∃ outcome, w.phase = .reporting outcome) ∨ ∃ response, w.phase = .answering response := by
  unfold phase
  split_ifs
  · cases decodeBody w.request with
    | error response => exact .inr (.inr ⟨response, rfl⟩)
    | ok m =>
      simp only [Phase.ofMessage]
      split_ifs
      · cases m.screen with
        | ok screen => exact .inl ⟨.draw screen, rfl⟩
        | error e => exact .inr (.inl ⟨_, rfl⟩)
      · exact .inr (.inr ⟨_, rfl⟩)
  · exact .inl ⟨.clear, rfl⟩

theorem Writer.stage_phase (w : Writer) : w.phase.stage = .before ∨ w.phase.stage = .after := by
  obtain ⟨job, h⟩ | ⟨outcome, h⟩ | ⟨response, h⟩ := w.phase_cases <;> simp [h, Phase.stage]

end Artboard.Service
