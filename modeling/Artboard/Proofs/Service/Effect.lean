import Artboard.Proofs.Bridge.Replies
import Artboard.Service.Basic
import Mathlib.Tactic.SplitIfs

/-! # What a request does

* `Request.message?`, `Request.screen?`, `Request.Resets`: what a request asks for.
* `Effect`: the ways in which a request can be answered; `effect_respond`: there are no others.
* `Effect.of_message`, `Effect.posted`, `Effect.changed`: the response to a message, and the
  requests that change the document. -/

namespace Artboard.Service

/-! ### What requests ask for -/

namespace Request

/-- A body is posted that is announced as JSON and is not too large. -/
def Posts (r : Request) : Prop :=
  r.method = "POST" ∧ Route.of? r.target = some .messages ∧ announcesJson r = true ∧
    r.body.size ≤ bodyLimit

instance (r : Request) : Decidable r.Posts := inferInstanceAs (Decidable (_ ∧ _ ∧ _ ∧ _))

/-- The message that is posted. -/
def message? (r : Request) : Option Message :=
  if r.Posts then (Message.ofText r.body).toOption else none

/-- The screen that is to be drawn. -/
def screen? (r : Request) : Option Screen :=
  r.message?.bind fun m => if m.kind = "generate-design" then m.screen.toOption else none

/-- The document is to be emptied. -/
def Resets (r : Request) : Prop := r.method = "DELETE" ∧ Route.of? r.target = some .document

instance (r : Request) : Decidable r.Resets := inferInstanceAs (Decidable (_ ∧ _))

variable {r : Request} {m : Message} {screen : Screen}

theorem message?_eq_some : r.message? = some m ↔ r.Posts ∧ Message.ofText r.body = .ok m := by
  unfold message?
  split_ifs with h
  · cases Message.ofText r.body <;> simp [h, Except.toOption]
  · simp [h]

theorem message?_eq_none (h : ¬ r.Posts) : r.message? = none := if_neg h

theorem screen?_eq_some : r.screen? = some screen ↔
    ∃ m, r.message? = some m ∧ m.kind = "generate-design" ∧ m.screen = .ok screen := by
  rw [screen?, Option.bind_eq_some_iff]
  refine exists_congr fun m => and_congr_right fun _ => ?_
  split_ifs with h
  · cases m.screen <;> simp [h, Except.toOption]
  · simp [h]

theorem method_of_message? (h : r.message? = some m) : r.method = "POST" :=
  (message?_eq_some.mp h).1.1

theorem not_resets_of_post (h : r.method = "POST") : ¬ r.Resets := fun hreset => by
  have hboth := h.symm.trans hreset.1
  simp at hboth

end Request

/-! ### Single requests -/

/-- A response says that the request was a wrong one. -/
def Response.IsRefusal (a : Response) : Prop := 400 ≤ a.status ∧ a.status < 500

/-- The response with an outcome. -/
def Response.ofOutcome (outcome : Outcome) : Response :=
  .json 200 (Reply.generationComplete outcome).toJson.compact

/-- **How a request can be answered**, and the state after it. -/
inductive Effect (s : State) (r : Request) : Response → State → Prop
  | drawn {screen : Screen} (asked : r.screen? = some screen) :
      Effect s r (.ofOutcome (screen.generate Document.canvas s.canvas).1)
        ⟨(screen.generate Document.canvas s.canvas).2, s.listener + 1⟩
  | undecodable {m : Message} {e : Json.Mismatch} (posted : r.message? = some m)
      (design : m.kind = "generate-design") (no_screen : m.screen = .error e) :
      Effect s r (.ofOutcome ⟨false, none, some ("Serialization error: " ++ e.message)⟩)
        ⟨s.canvas, s.listener + 1⟩
  | ignored {m : Message} (posted : r.message? = some m) (no_design : m.kind ≠ "generate-design") :
      Effect s r (.empty 204) s
  | reset (resets : r.Resets) : Effect s r (.empty 204) ⟨s.canvas.clear, s.listener⟩
  /-- Nothing is posted and nothing emptied. What is posted in vain is refused. -/
  | other {a : Response} (no_message : r.message? = none) (no_reset : ¬ r.Resets)
      (refused : r.method = "POST" → a.IsRefusal) : Effect s r a s

section Respond
variable {r : Request} {s : State} {m : Message}

theorem decodeBody_eq_ok (hmethod : r.method = "POST")
    (hroute : Route.of? r.target = some .messages) :
    decodeBody r = .ok m ↔ r.message? = some m := by
  rw [Request.message?_eq_some, Request.Posts, decodeBody]
  cases hjson : announcesJson r with
  | false => simp
  | true =>
    by_cases hsize : bodyLimit < r.body.size
    · simp [hsize, Nat.not_le_of_lt hsize]
    · cases Message.ofText r.body <;> simp [hsize, hmethod, hroute, Nat.le_of_not_lt]

theorem respond_post (panel : Panel) (hmethod : r.method = "POST")
    (hroute : Route.of? r.target = some .messages) (s : State) :
    respond panel r s = deliver r s := by
  simp [respond, hroute, hmethod, Route.methods]

theorem respond_reset (panel : Panel) (h : r.Resets) (s : State) :
    respond panel r s = (.empty 204, ⟨s.canvas.clear, s.listener⟩) := by
  simp [respond, h.1, h.2, Route.methods]

end Respond

/-! ### Responses -/

/-- The outcome of a message that asks for a design. -/
def outcomeOn (d : Document) (m : Message) : Outcome :=
  match m.screen with
  | .ok screen => (screen.generate Document.canvas d).1
  | .error e => ⟨false, none, some ("Serialization error: " ++ e.message)⟩

namespace Effect

variable {s t : State} {r : Request} {a : Response} {m : Message}

/-- The response to a message depends on whether it asks for a design. -/
theorem of_message (h : Effect s r a t) (hm : r.message? = some m) :
    a = if m.kind = "generate-design" then .ofOutcome (outcomeOn s.canvas m) else .empty 204 := by
  have hunique : ∀ n, r.message? = some n → n = m := fun n hn =>
    Option.some.inj (hn.symm.trans hm)
  cases h with
  | drawn asked =>
    obtain ⟨n, hn, hkind, hok⟩ := Request.screen?_eq_some.mp asked
    obtain rfl := hunique n hn
    rw [if_pos hkind, outcomeOn, hok]
  | undecodable posted design no_screen =>
    obtain rfl := hunique _ posted
    rw [if_pos design, outcomeOn, no_screen]
  | ignored posted no_design =>
    obtain rfl := hunique _ posted
    rw [if_neg no_design]
  | reset resets =>
    exact absurd resets (Request.not_resets_of_post (Request.method_of_message? hm))
  | other no_message => rw [hm] at no_message; cases no_message

theorem isRefusal (h : Effect s r a t) (hm : r.message? = none) (hmethod : r.method = "POST") :
    a.IsRefusal := by
  cases h with
  | drawn asked =>
    obtain ⟨n, hn, -⟩ := Request.screen?_eq_some.mp asked
    rw [hm] at hn; cases hn
  | undecodable posted => rw [hm] at posted; cases posted
  | ignored posted => rw [hm] at posted; cases posted
  | reset resets => exact absurd resets (Request.not_resets_of_post hmethod)
  | other _ _ refused => exact refused hmethod

theorem posted (h : Effect s r a t) (hposts : r.Posts) :
    (a.status = 200 ↔ ∃ m, Message.ofText r.body = .ok m ∧ m.kind = "generate-design") ∧
      (∀ m, Message.ofText r.body = .ok m → m.kind ≠ "generate-design" → a.status = 204) ∧
      ∀ e, Message.ofText r.body = .error e → 400 ≤ a.status ∧ a.status < 500 := by
  have hmessage : r.message? = (Message.ofText r.body).toOption := if_pos hposts
  cases hbody : Message.ofText r.body with
  | error e =>
    rw [hbody] at hmessage
    have hrefused := h.isRefusal hmessage hposts.1
    refine ⟨iff_of_false (fun hstatus => ?_) ?_, ?_, fun _ _ => hrefused⟩
    · have := hrefused.1
      omega
    · rintro ⟨m, hm, -⟩; cases hm
    · intro m hm; cases hm
  | ok m =>
    rw [hbody] at hmessage
    have ha := h.of_message hmessage
    by_cases hkind : m.kind = "generate-design"
    · rw [if_pos hkind] at ha
      refine ⟨iff_of_true (by rw [ha]; rfl) ⟨m, rfl, hkind⟩, ?_, ?_⟩
      · intro n hn hno; cases hn; exact absurd hkind hno
      · intro e he; cases he
    · rw [if_neg hkind] at ha
      refine ⟨iff_of_false (fun hstatus => ?_) ?_, fun _ _ _ => by rw [ha]; rfl, ?_⟩
      · rw [ha] at hstatus; cases hstatus
      · rintro ⟨n, hn, hno⟩; cases hn; exact hkind hno
      · intro e he; cases he

theorem changed (h : Effect s r a t) (hne : t.canvas ≠ s.canvas) :
    (∃ screen, r.screen? = some screen) ∨ r.Resets := by
  cases h with
  | drawn asked => exact .inl ⟨_, asked⟩
  | reset resets => exact .inr resets
  | _ => exact absurd rfl hne

end Effect

end Artboard.Service
