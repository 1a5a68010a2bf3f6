import Artboard.CommandLine.Generate
import Artboard.Proofs.Bridge.Messages
import Artboard.Proofs.Bridge.Replies
import Artboard.Proofs.Document.Alike

/-! # The command against the bridge

The command draws messages and bare requests on a document that is empty, as a bridge does.

* `receive_alike`: two bridges to empty documents with one viewport answer a message alike.
* `reported`: what the command prints for a reply.
* `generate_of_message`: what the command prints for a text that the bridge answers. -/

namespace Artboard

open Json (Decoder resolved spelled)

/-! ### Bridges to empty documents -/

/-- The screens that a message has drawn, if any. -/
def Message.screens (m : Message) : List Screen :=
  if m.kind = generateDesign then m.screen.toOption.toList else []

namespace Bridge

variable {τ υ : Type} {m : Message}

theorem canvas_receive (listen : Reply → τ → τ) (m : Message) (s : State Document τ) :
    (receive ⟨Document.canvas, listen⟩ m s).2.canvas = s.canvas.afterAll m.screens := by
  by_cases hkind : m.kind = Message.generateDesign
  · rw [Message.screens, if_pos hkind]
    cases hscreen : m.screen with
    | error e =>
      exact congrArg (fun r => r.2.canvas)
        (take_of_undecodable ⟨Document.canvas, listen⟩ (x := .message m) rfl hkind hscreen s)
    | ok screen =>
      exact congrArg (fun r => r.2.canvas)
        (take_of_drawn ⟨Document.canvas, listen⟩ (x := .message m) rfl hkind hscreen s)
  · have hignored : ∀ n, Input.message? (.message m) = some n → n.kind ≠ Message.generateDesign :=
      fun n hn => by cases hn; exact hkind
    rw [Message.screens, if_neg hkind]
    exact congrArg (fun r => r.2.canvas)
      (take_of_ignored ⟨Document.canvas, listen⟩ (x := .message m) hignored s)

/-- The reply depends on the viewport only. -/
theorem reply_receive (listen : Reply → τ → τ) (listen' : Reply → υ → υ) {s : State Document τ}
    {s' : State Document υ} (hs : s.canvas.WellFormed) (hs' : s'.canvas.WellFormed)
    (hview : s.canvas.viewport = s'.canvas.viewport) (m : Message) :
    (receive ⟨Document.canvas, listen⟩ m s).1 = (receive ⟨Document.canvas, listen'⟩ m s').1 := by
  unfold receive answer generate
  cases m.isForDesign with
  | false => rfl
  | true =>
    cases m.screen with
    | error e => rfl
    | ok screen =>
      exact congrArg (fun outcome => some (Reply.generationComplete outcome))
        (Document.outcome_eq_of_viewport hs hs' hview screen)

/-- **Bridges to empty documents answer a message alike**, whoever listens: with the same reply, and
documents that are the same up to their ids. -/
theorem receive_alike (listen : Reply → τ → τ) (listen' : Reply → υ → υ) (heard : τ) (heard' : υ)
    (ids ids' : IdSupply) (view : Viewport) (m : Message) :
    let after := receive ⟨Document.canvas, listen⟩ m ⟨.new ids view, heard⟩
    let after' := receive ⟨Document.canvas, listen'⟩ m ⟨.new ids' view, heard'⟩
    after.1 = after'.1 ∧ after.2.canvas.snapshot.Alike after'.2.canvas.snapshot := by
  constructor
  · exact reply_receive listen listen' (Document.wellFormed_new ids view)
      (Document.wellFormed_new ids' view) rfl m
  · rw [canvas_receive, canvas_receive]
    exact Document.alike_afterAll ids ids' view m.screens

/-- Only a message for the design is answered. -/
theorem exists_of_receiveText {σ : Type} {b : Bridge σ τ} {text : Json.Text} {s after : State σ τ}
    {reply : Reply} (h : b.receiveText text s = (some reply, after)) :
    ∃ m, Message.ofText text = .ok m ∧ m.kind = Message.generateDesign ∧
      b.receive m s = (some reply, after) := by
  rw [receiveText] at h
  cases hm : Message.ofText text with
  | error e => rw [hm] at h; cases h
  | ok m =>
    rw [hm] at h
    refine ⟨m, rfl, ?_, h⟩
    by_contra hkind
    have hdesign : m.isForDesign = false := decide_eq_false hkind
    have hreceive : b.receive m s = (some reply, after) := h
    rw [receive, hdesign] at hreceive
    cases hreceive

end Bridge

namespace CommandLine

/-! ### What is printed -/

/-- What the command prints for a reply. The exit code tells whether it is a success. -/
def reported (snapshot : Bool) (reply : Reply) (document : Document) : Report :=
  ⟨if reply.outcome.success then 0 else 1,
    (printed snapshot reply document).canonical.pretty ++ "\n", ""⟩

theorem isValid_ofString (t : String) : (Json.Text.ofString t).isValid = true := by
  simp [Json.Text.isValid, Json.Text.ofString]

section Inputs
variable {document document' : Document} {t : String} {v : Json} {reply : Reply}
  {input : String}

theorem generate_of_notJson {e : Json.ReadError} (h : Json.parse (Json.Text.ofString t) = .error e)
    (document : Document) (input : String) (snapshot : Bool) :
    generate document input snapshot (.ok (Json.Text.ofString t)) =
      ⟨1, "", (Failure.notJson input e.message).message⟩ := by
  rw [generate, outcome]
  simp only [isValid_ofString, Bool.not_true, Bool.false_eq_true, if_false, h]

theorem generate_of_compile (h : Json.parse (Json.Text.ofString t) = .ok v)
    (hreply : compile document (Json.Text.ofString t) v = (some reply, document'))
    (input : String) (snapshot : Bool) :
    generate document input snapshot (.ok (Json.Text.ofString t)) =
      reported snapshot reply document' := by
  rw [generate, outcome]
  simp only [isValid_ofString, Bool.not_true, Bool.false_eq_true, if_false, h, hreply]
  rfl

end Inputs

/-! ### Messages -/

section Messages
variable {t : String} {v w : Json} {m : Message}

/-- A text that is both a message and a tree is a message as it is written. -/
theorem ofWritten_of_parse (hm : Message.ofText (Json.Text.ofString t) = .ok m)
    (hv : Json.parse (Json.Text.ofString t) = .ok v) :
    ∃ w, resolved spelled w = some v ∧ Message.asWritten.ofJson .value w = .ok m := by
  obtain ⟨w, hw, hresolved⟩ := Json.parse_eq_ok.mp hv
  refine ⟨w, hresolved, ?_⟩
  rw [← Json.toOption_eq_some, ← Message.toOption_ofText hw, hm]
  rfl

/-- **A message that reads as a tree has a type there**, or it is a list that begins with it. -/
theorem tree_of_message (hm : Message.ofText (Json.Text.ofString t) = .ok m)
    (hv : Json.parse (Json.Text.ofString t) = .ok v) :
    (v.member? "type").isSome ∨ ∃ js, v = .array (.string m.kind :: js) := by
  obtain ⟨w, hw, hmessage⟩ := ofWritten_of_parse hm hv
  rcases Message.ofWritten_cases hmessage with ⟨ms, rfl, htype⟩ | ⟨js, rfl⟩
  · left
    by_cases hms : Json.embeddedIn? ms = none
    · exact Json.isSome_member?_of_resolved hms htype hw
    · obtain ⟨s, rfl⟩ := Json.eq_of_embedded hms hw
      have hkey : "type" ≠ Json.embeddedKey := by decide
      exact absurd (List.mem_singleton.mp htype) hkey
  · right
    rw [resolved, Json.resolvedItems, resolved] at hw
    obtain ⟨is, his, rfl⟩ := Option.map_eq_some_iff.mp hw
    obtain ⟨js', -, rfl⟩ := Option.map_eq_some_iff.mp his
    exact ⟨js', rfl⟩

/-- The mismatch where a list that begins with the type of messages is taken for a request: its
first item is no frame. -/
def misfit : Json.Mismatch := .unexpected "struct FrameSpec" (.string Message.generateDesign)

/-- The reply to such a list. -/
def misread : Reply := .generationComplete (.failed (undecodable ++ misfit.message))

theorem screen_misread (js : List Json) :
    (Message.forDesign (Json.array (.string Message.generateDesign :: js)).canonical).screen =
      .error misfit := by
  rw [Message.screen, Message.forDesign, Screen.ofTree, Decoder.ofTree]
  rfl

theorem receive_misread {σ τ : Type} (b : Bridge σ τ) (js : List Json) (s : Bridge.State σ τ) :
    b.receive (.forDesign (Json.array (.string Message.generateDesign :: js)).canonical) s =
      (some misread, ⟨s.canvas, b.listen misread s.listener⟩) :=
  b.take_of_undecodable (x := .message _) rfl rfl (screen_misread js) s

end Messages

/-- **The command compiles messages as the bridge does**, if they read as trees other than lists.
Let a bridge to an empty document answer a text, whoever listens. Then the command prints the same
reply on an empty document with the same viewport, and has a document that is the same up to its
ids. But a list is refused, for its first item, the type, is no frame; and what does not read as a
tree is no input. -/
theorem generate_of_message {τ : Type} {listen : Reply → τ → τ} {heard : τ} {ids : IdSupply}
    {view : Viewport} {t : String} {reply : Reply} {after : Bridge.State Document τ}
    (hanswer : (Bridge.mk Document.canvas listen).receiveText (Json.Text.ofString t)
      ⟨.new ids view, heard⟩ = (some reply, after))
    (ids' : IdSupply) (input : String) (snapshot : Bool) :
    let report := generate (.new ids' view) input snapshot (.ok (Json.Text.ofString t))
    (∀ v, Json.parse (Json.Text.ofString t) = .ok v → (∀ js, v ≠ .array js) →
      ∃ document, report = reported snapshot reply document ∧
        after.canvas.snapshot.Alike document.snapshot) ∧
    (∀ js, Json.parse (Json.Text.ofString t) = .ok (.array js) →
      report = reported snapshot misread (.new ids' view)) ∧
    ∀ e, Json.parse (Json.Text.ofString t) = .error e →
      report = ⟨1, "", (Failure.notJson input e.message).message⟩ := by
  intro report
  obtain ⟨m, hm, hkind, hreceive⟩ := Bridge.exists_of_receiveText hanswer
  refine ⟨fun v hv hlist => ?_, fun js hv => ?_, fun e he => generate_of_notJson he _ _ _⟩
  · have htype : (v.member? "type").isSome := by
      rcases tree_of_message hm hv with htype | ⟨js, hjs⟩
      · exact htype
      · exact absurd hjs (hlist _)
    obtain ⟨hreply, halike⟩ :=
      Bridge.receive_alike listen bridge.listen heard () ids ids' view m
    rw [hreceive] at hreply halike
    have hcompile : compile (.new ids' view) (Json.Text.ofString t) v =
        (some reply, (bridge.receive m ⟨.new ids' view, ()⟩).2.canvas) := by
      rw [compile, if_pos htype, Bridge.receiveText, hm]
      exact Prod.ext hreply.symm rfl
    exact ⟨_, generate_of_compile hv hcompile input snapshot, halike⟩
  · obtain ⟨js', hjs⟩ : ∃ js', js = .string Message.generateDesign :: js' := by
      rcases tree_of_message hm hv with htype | ⟨js', hjs⟩
      · cases htype
      · rw [hkind] at hjs
        exact ⟨js', Json.array.inj hjs⟩
    refine generate_of_compile hv ?_ input snapshot
    rw [hjs, compile, if_neg (by simp [Json.member?]), receive_misread]

/-- A message whose type comes last, with a frame in brackets and one unknown component. -/
theorem generate_of_message_login :
    let t := "\x7b\"data\":\x7b\"frame\":[\"Login\"],\"components\":[null]\x7d," ++
      "\"type\":\"generate-design\"\x7d"
    let b : Bridge Document (List Reply) := ⟨Document.canvas, fun reply heard => reply :: heard⟩
    let reply : Reply := .generationComplete ⟨true, some 1, none⟩
    ∃ after : Bridge.State Document (List Reply),
      b.receiveText (Json.Text.ofString t) ⟨.new (.from 0) .standard, []⟩ = (some reply, after) ∧
        ∃ document, generate (.new (.from 9) .standard) "-" true (.ok (Json.Text.ofString t)) =
          reported true reply document ∧ after.canvas.snapshot.Alike document.snapshot := by
  intro t b reply
  let v : Json := .object [("data", .object [("frame", .array [.string "Login"]),
    ("components", .array [.null])]), ("type", .string "generate-design")]
  let data : Json := .object [("components", .array [.null]), ("frame", .array [.string "Login"])]
  have hw : Json.complete Json.written (Json.Text.ofString t) = .ok v :=
    Json.eq_ok_of_same (by decide +kernel)
  have hm : Message.ofText (Json.Text.ofString t) = .ok (.forDesign data) :=
    Message.ofText_of_written hw rfl
  have hv : Json.parse (Json.Text.ofString t) = .ok v := Json.eq_ok_of_same (by decide +kernel)
  have hreply : (b.receiveText (Json.Text.ofString t) ⟨.new (.from 0) .standard, []⟩).1 =
      some reply := by
    rw [Bridge.receiveText, hm]
    decide +kernel
  have hanswer : b.receiveText (Json.Text.ofString t) ⟨.new (.from 0) .standard, []⟩ =
    (some reply, (b.receiveText (Json.Text.ofString t) ⟨.new (.from 0) .standard, []⟩).2) :=
      Prod.ext hreply rfl
  have hlist : ∀ js, v ≠ .array js := fun js h => by simp only [v] at h; cases h
  exact ⟨_, hanswer, (generate_of_message hanswer (.from 9) "-" true).1 v hv hlist⟩

/-- A message in brackets: the bridge draws a screen, and the command takes the type for a frame. -/
theorem listed_message_misread :
    let t := "[\"generate-design\",\x7b\x7d]"
    let reply : Reply := .generationComplete ⟨true, some 0, none⟩
    let report := generate (.new (.from 0) .standard) "-" false (.ok (Json.Text.ofString t))
    (bridge.receiveText (Json.Text.ofString t) ⟨.new (.from 0) .standard, ()⟩).1 = some reply ∧
      report = reported false misread (.new (.from 0) .standard) ∧
      ¬ ∃ document, report = reported false reply document := by
  intro t reply report
  let v : Json := .array [.string Message.generateDesign, .object []]
  have hw : Json.complete Json.written (Json.Text.ofString t) = .ok v :=
    Json.eq_ok_of_same (by decide +kernel)
  have hm : Message.ofText (Json.Text.ofString t) = .ok (.forDesign (.object [])) :=
    Message.ofText_of_written hw rfl
  have hv : Json.parse (Json.Text.ofString t) = .ok v := Json.eq_ok_of_same (by decide +kernel)
  have hreply : (bridge.receiveText (Json.Text.ofString t) ⟨.new (.from 0) .standard, ()⟩).1 =
      some reply := by
    rw [Bridge.receiveText, hm]
    decide +kernel
  have hcompile : compile (.new (.from 0) .standard) (Json.Text.ofString t) v =
      (some misread, .new (.from 0) .standard) := by
    rw [compile, if_neg (by simp [Json.member?]), receive_misread]
  have hreport : report = reported false misread (.new (.from 0) .standard) :=
    generate_of_compile hv hcompile "-" false
  refine ⟨hreply, hreport, ?_⟩
  rintro ⟨document, h⟩
  have hcode : (1 : Nat) = 0 := congrArg Report.exitCode (hreport.symm.trans h)
  cases hcode

end CommandLine

end Artboard
