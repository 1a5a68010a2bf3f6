import Artboard.Bridge
import Artboard.Proofs.Drawing.Refusal

/-! # What a bridge replies

A bridge is given messages, or texts that may be none, one after another.

* `Bridge.Input`, `Bridge.exchanges`: what a bridge is given, and what each input leads to.
* `take_of_ignored`, `take_of_undecodable`, `take_of_drawn`: the three ways in which an input goes.
* `Exchange.Quiet`: the canvas has no part in what an input leads to.
* `replies_of_inputs`: each request for a design has one reply, which the listener hears, and
  nothing else has any. -/

namespace Artboard

theorem Screen.generate_outcome {σ : Type} (canvas : Canvas σ) (s : Screen) (state : σ) :
    (s.generate canvas state).1 = ⟨true, some s.components.length, none⟩ ∨
      ∃ reason, (s.generate canvas state).1 = ⟨false, none, some reason⟩ := by
  rcases h : s.draw.run canvas state with ⟨e | drawing, after⟩
  · exact .inr ⟨e.message, by rw [generate_eq h]; rfl⟩
  · exact .inl (by rw [generate_eq h, ← count_of_draw h]; rfl)

namespace Bridge

variable {σ τ : Type}

/-- What a bridge is given. -/
inductive Input
  | text (text : Json.Text)
  | message (message : Message)

/-- The message that is given. A text that does not decode gives none. -/
def Input.message? : Input → Option Message
  | .text t => (Message.ofText t).toOption
  | .message m => some m

/-- Takes an input. -/
def take (b : Bridge σ τ) : Input → State σ τ → Option Reply × State σ τ
  | .text t => b.receiveText t
  | .message m => b.receive m

/-- An input with the reply to it, and the states before and after it. -/
structure Exchange (σ τ : Type) where
  input : Input
  before : State σ τ
  reply? : Option Reply
  after : State σ τ

/-- What inputs lead to one after another. -/
def exchanges (b : Bridge σ τ) : List Input → State σ τ → List (Exchange σ τ)
  | [], _ => []
  | x :: rest, s =>
    let (reply?, t) := b.take x s
    ⟨x, s, reply?, t⟩ :: b.exchanges rest t

/-- The state after inputs one after another. -/
def after (b : Bridge σ τ) (inputs : List Input) (s : State σ τ) : State σ τ :=
  inputs.foldl (fun s x => (b.take x s).2) s

/-! ### Single inputs -/

section Take
variable {x : Input} {m : Message}

theorem take_of_message (b : Bridge σ τ) (hm : x.message? = some m) (s : State σ τ) :
    b.take x s = b.receive m s := by
  cases x with
  | message n => cases hm; rfl
  | text text =>
    show b.receiveText text s = _
    rw [Input.message?] at hm
    unfold receiveText
    cases h : Message.ofText text with
    | error e => rw [h] at hm; cases hm
    | ok n => rw [h] at hm; cases hm; rfl

theorem take_of_no_message (b : Bridge σ τ) (hm : x.message? = none) (s : State σ τ) :
    b.take x s = (none, s) := by
  cases x with
  | message n => cases hm
  | text text =>
    show b.receiveText text s = _
    rw [Input.message?] at hm
    unfold receiveText
    cases h : Message.ofText text with
    | error e => rfl
    | ok n => rw [h] at hm; cases hm

theorem take_of_ignored (b : Bridge σ τ)
    (h : ∀ m, x.message? = some m → m.kind ≠ Message.generateDesign) (s : State σ τ) :
    b.take x s = (none, s) := by
  cases hm : x.message? with
  | none => exact take_of_no_message b hm s
  | some m =>
    have hkind : m.isForDesign = false := decide_eq_false (h m hm)
    rw [take_of_message b hm, receive, hkind]; rfl

theorem take_of_undecodable (b : Bridge σ τ) {e : Json.Mismatch} (hm : x.message? = some m)
    (hkind : m.kind = Message.generateDesign) (he : m.screen = .error e) (s : State σ τ) :
    b.take x s =
      let reply := .generationComplete (.failed (undecodable ++ e.message))
      (some reply, ⟨s.canvas, b.listen reply s.listener⟩) := by
  have hdesign : m.isForDesign = true := decide_eq_true hkind
  rw [take_of_message b hm, receive, hdesign, answer, he]; rfl

theorem take_of_drawn (b : Bridge σ τ) {screen : Screen} (hm : x.message? = some m)
    (hkind : m.kind = Message.generateDesign) (hscreen : m.screen = .ok screen) (s : State σ τ) :
    b.take x s =
      let run := screen.generate b.canvas s.canvas
      (some (.generationComplete run.1),
        ⟨run.2, b.listen (.generationComplete run.1) s.listener⟩) := by
  have hdesign : m.isForDesign = true := decide_eq_true hkind
  rw [take_of_message b hm, receive, hdesign, answer, hscreen]; rfl

/-- **The listener hears the reply if there is one**, and nothing else. -/
theorem listener_take (b : Bridge σ τ) (x : Input) (s : State σ τ) :
    (b.take x s).2.listener =
      (b.take x s).1.elim s.listener fun reply => b.listen reply s.listener := by
  by_cases h : ∃ m, x.message? = some m ∧ m.kind = Message.generateDesign
  · obtain ⟨m, hm, hkind⟩ := h
    cases hscreen : m.screen with
    | error e => rw [take_of_undecodable b hm hkind hscreen]; rfl
    | ok screen => rw [take_of_drawn b hm hkind hscreen]; rfl
  · rw [take_of_ignored b fun m hm hkind => h ⟨m, hm, hkind⟩]; rfl

end Take

/-! ### Sequences of inputs -/

namespace Exchange

/-- Whatever canvas stands behind the bridge, in whatever state, it has no part in the exchange and
stays as it is. So no call of it is made. -/
def Quiet (b : Bridge σ τ) (x : Exchange σ τ) : Prop :=
  ∀ (ρ : Type) (canvas : Canvas ρ) (state : ρ),
    take ⟨canvas, b.listen⟩ x.input ⟨state, x.before.listener⟩ =
      (x.reply?, ⟨state, x.after.listener⟩)

/-- **An input is answered as it should be.** -/
structure Proper (b : Bridge σ τ) (x : Exchange σ τ) : Prop where
  /-- Requests for a design have a reply, whatever their data. -/
  answered : x.reply?.isSome ↔ ∃ m, x.input.message? = some m ∧ m.kind = "generate-design"
  unanswered : x.reply? = none → x.Quiet b
  undecodable : ∀ m e, x.input.message? = some m → m.kind = "generate-design" →
    m.screen = .error e → x.Quiet b ∧
      x.reply? =
        some (.generationComplete ⟨false, none, some ("Serialization error: " ++ e.message)⟩)
  /-- A success has the number of components and no reason, a failure a reason and no number. -/
  decodable : ∀ m screen, x.input.message? = some m → m.kind = "generate-design" →
    m.screen = .ok screen → ∃ outcome, x.reply? = some (.generationComplete outcome) ∧
      (outcome = ⟨true, some screen.components.length, none⟩ ∨
        ∃ reason, outcome = ⟨false, none, some reason⟩)

theorem proper_take (b : Bridge σ τ) (x : Input) (s : State σ τ) :
    Proper b ⟨x, s, (b.take x s).1, (b.take x s).2⟩ := by
  by_cases h : ∃ m, x.message? = some m ∧ m.kind = Message.generateDesign
  · obtain ⟨m, hm, hkind⟩ := h
    have hunique : ∀ n, x.message? = some n → n = m := fun n hn => by
      rw [hm] at hn; exact (Option.some.inj hn).symm
    cases hscreen : m.screen with
    | error e =>
      rw [take_of_undecodable b hm hkind hscreen]
      refine ⟨iff_of_true rfl ⟨m, hm, hkind⟩, fun hnone => (by cases hnone), fun n e' hn _ he => ?_,
        fun n screen hn _ he => ?_⟩
      · obtain rfl := hunique n hn
        obtain rfl := Except.error.inj (hscreen.symm.trans he)
        exact ⟨fun ρ canvas state => take_of_undecodable _ hm hkind hscreen _, rfl⟩
      · obtain rfl := hunique n hn
        rw [hscreen] at he; cases he
    | ok screen =>
      rw [take_of_drawn b hm hkind hscreen]
      refine ⟨iff_of_true rfl ⟨m, hm, hkind⟩, fun hnone => (by cases hnone), fun n e hn _ he => ?_,
        fun n screen' hn _ he => ?_⟩
      · obtain rfl := hunique n hn
        rw [hscreen] at he; cases he
      · obtain rfl := hunique n hn
        obtain rfl := Except.ok.inj (hscreen.symm.trans he)
        exact ⟨_, rfl, screen.generate_outcome b.canvas s.canvas⟩
  · have hno : ∀ m, x.message? = some m → m.kind ≠ Message.generateDesign :=
      fun m hm hkind => h ⟨m, hm, hkind⟩
    rw [take_of_ignored b hno]
    refine ⟨iff_of_false Bool.false_ne_true h, fun _ ρ canvas state => take_of_ignored _ hno _,
      fun m e hm hkind _ => ?_, fun m screen hm hkind _ => ?_⟩
    · exact absurd hkind (hno m hm)
    · exact absurd hkind (hno m hm)

end Exchange

section Runs
variable (b : Bridge σ τ)

theorem exchanges_cons (x : Input) (rest : List Input) (s : State σ τ) :
    b.exchanges (x :: rest) s =
      ⟨x, s, (b.take x s).1, (b.take x s).2⟩ :: b.exchanges rest (b.take x s).2 := rfl

theorem map_input_exchanges : ∀ (inputs : List Input) (s : State σ τ),
    (b.exchanges inputs s).map Exchange.input = inputs
  | [], _ => rfl
  | x :: rest, s => congrArg (x :: ·) (map_input_exchanges rest (b.take x s).2)

theorem proper_of_mem_exchanges : ∀ {inputs : List Input} {s : State σ τ},
    ∀ x ∈ b.exchanges inputs s, x.Proper b
  | [], _, _, hx => by cases hx
  | x :: rest, s, y, hy => by
    rcases List.mem_cons.mp hy with rfl | hy
    · exact Exchange.proper_take b x s
    · exact proper_of_mem_exchanges y hy

/-- **The listener hears the replies in order.** -/
theorem listener_after : ∀ (inputs : List Input) (s : State σ τ),
    (b.after inputs s).listener = ((b.exchanges inputs s).filterMap Exchange.reply?).foldl
      (fun heard reply => b.listen reply heard) s.listener
  | [], _ => rfl
  | x :: rest, s => by
    have ih := listener_after rest (b.take x s).2
    have hx := listener_take b x s
    rw [exchanges_cons]
    show (b.after rest (b.take x s).2).listener = _
    rw [ih, hx]
    cases hreply : (b.take x s).1 with
    | none => rfl
    | some reply => rfl

end Runs

/-- **Each request for a design has exactly one reply.** On any canvas, whatever is given to a
bridge, the listener hears the replies in order; one that keeps what it hears has the list of them.
Each input has the reply that it should have. -/
theorem replies_of_inputs :
    (∀ {σ τ : Type} (b : Bridge σ τ) (inputs : List Input) (s : State σ τ),
      let xs := b.exchanges inputs s
      xs.map Exchange.input = inputs ∧
        (b.after inputs s).listener = (xs.filterMap Exchange.reply?).foldl
          (fun heard reply => b.listen reply heard) s.listener ∧
        ∀ x ∈ xs, x.Proper b) ∧
    ∀ {σ : Type} (canvas : Canvas σ) (inputs : List Input) (state : σ),
      let b : Bridge σ (List Reply) := ⟨canvas, fun reply heard => heard ++ [reply]⟩
      (b.after inputs ⟨state, []⟩).listener =
        (b.exchanges inputs ⟨state, []⟩).filterMap Exchange.reply? := by
  refine ⟨fun {σ τ} b inputs s => ?_, fun {σ} canvas inputs state => ?_⟩
  · exact ⟨map_input_exchanges b inputs s, listener_after b inputs s, proper_of_mem_exchanges b⟩
  · intro b
    have hkept : ∀ replies heard : List Reply,
        replies.foldl (fun heard reply => heard ++ [reply]) heard = heard ++ replies := by
      intro replies
      induction replies with
      | nil => intro heard; simp
      | cons reply replies ih => intro heard; rw [List.foldl_cons, ih]; simp
    rw [listener_after]
    exact hkept _ []

/-- A request without data is answered too. -/
example (b : Bridge σ τ) (s : State σ τ) : (b.take (.message (.forDesign .null)) s).1 =
    some (.generationComplete ⟨false, none, some ("Serialization error: " ++
      "invalid type: null, expected struct GenerationRequest")⟩) := rfl

end Bridge

end Artboard
