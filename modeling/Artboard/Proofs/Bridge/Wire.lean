import Artboard.Bridge
import Artboard.Proofs.Json.RoundTrip

/-! # Replies on the wire

A reply is sent as the compact text of its tree, and so is an outcome by itself.

* `Outcome.Fits`: the count has 64 bits.
* `Outcome.recovers`, `Reply.recovers`: what the decoders make of the trees.
* `wire_of_fits`: both decoders give back what was sent, straight from the text and from the tree in
  it; different outcomes have different texts. -/

namespace Artboard

open Json (Decoder Text Field)

namespace Outcome

/-- The count of an outcome, if it has one, has 64 bits. -/
def Fits (o : Outcome) : Prop := ∀ n, o.count = some n → n < Nat.pow 2 64

variable {o : Outcome}

/-! ### The tree of an outcome -/

theorem keys_members (o : Outcome) :
    (Json.keys o.members).Sublist ["success", "count", "error"] := by
  obtain ⟨success, _ | n, _ | e⟩ := o <;> simp [members, Json.ifPresent, Json.keys]

theorem nodup_keys_members (o : Outcome) : (Json.keys o.members).Nodup :=
  (keys_members o).nodup (by decide)

theorem tag_not_mem_keys (o : Outcome) : Json.Tagged.key ∉ Json.keys o.members := fun h =>
  absurd ((keys_members o).subset h) (by decide)

theorem lookup_members (o : Outcome) : Json.lookup "success" o.members = some (.bool o.success) ∧
    Json.lookup "count" o.members = o.count.map (fun n => .int n) ∧
      Json.lookup "error" o.members = o.error.map .string := by
  obtain ⟨success, _ | n, _ | e⟩ := o <;> exact ⟨rfl, rfl, rfl⟩

theorem legible_members (ho : o.Fits) (depth : Nat) : Json.LegibleMembers o.members depth := by
  obtain ⟨success, _ | n, error⟩ := o
  · cases error <;> simp [members, Json.ifPresent, Json.LegibleMembers, Json.Legible]
  · have hn : (n : Int) < Nat.pow 2 64 := Int.ofNat_lt.mpr (ho n rfl)
    have hint : (Json.int n).Legible depth := ⟨by omega, hn⟩
    cases error <;> simp [members, Json.ifPresent, Json.LegibleMembers, hint] <;>
      simp [Json.Legible]

theorem unembedded_members (o : Outcome) : Json.UnembeddedMembers o.members := by
  obtain ⟨success, _ | n, _ | e⟩ := o <;>
    simp [members, Json.ifPresent, Json.UnembeddedMembers, Json.Unembedded]

theorem legible (ho : o.Fits) : o.toJson.Legible Json.depthLimit :=
  ⟨by decide, legible_members ho _⟩

theorem unembedded (o : Outcome) : o.toJson.Unembedded := ⟨rfl, unembedded_members o⟩

/-- The fields of the decoder of outcomes. -/
def fields : Json.Fields (Bool × Option Nat × Option String × Unit) :=
  .cons (.required "success" .boolean) (.cons (.placed "count" (.natural "usize" (Nat.pow 2 64)))
    (.cons (.placed "error" .string) .nil))

theorem fields_recovers (ho : o.Fits) :
    fields.Recovers o.members (o.success, o.count, o.error, ()) := by
  obtain ⟨hsuccess, hcount, herror⟩ := lookup_members o
  refine ⟨?_, ?_, ?_, trivial⟩
  · show Field.Recovers _ (Json.lookup "success" o.members) _
    rw [hsuccess]
    exact Field.recovers_required (Json.recovers_boolean o.success)
  · show Field.Recovers _ (Json.lookup "count" o.members) _
    rw [hcount]
    exact Field.recovers_placed fun n hn =>
      (Json.recovers_natural (ho n hn)).optional nofun nofun
  · show Field.Recovers _ (Json.lookup "error" o.members) _
    rw [herror]
    exact Field.recovers_placed fun e _ => (Json.recovers_string e).optional nofun nofun

/-- **An outcome is recovered from its tree.** -/
theorem recovers (ho : o.Fits) : decoder.Recovers o o.toJson := by
  have hnames : fields.names.Nodup := by decide
  exact Json.recovers_record hnames (nodup_keys_members o) (fields_recovers ho)

theorem faithful_decoder : decoder.Faithful := by
  have hboolean : Decoder.boolean.Faithful := Json.faithful_scalar (fun _ => rfl) fun _ => rfl
  have hnatural : (Decoder.natural "usize" (Nat.pow 2 64)).Faithful :=
    Json.faithful_scalar (fun _ => rfl) fun _ => rfl
  have hfields : fields.Faithful :=
    ⟨hboolean, hnatural.optional, Json.faithful_string.optional, trivial⟩
  unfold decoder Decoder.record
  exact Json.faithful_recordAs hfields

end Outcome

namespace Reply

variable {o : Outcome}

theorem legible (ho : o.Fits) : (generationComplete o).toJson.Legible Json.depthLimit :=
  ⟨by decide, trivial, o.legible_members ho _⟩

theorem unembedded (o : Outcome) : (generationComplete o).toJson.Unembedded :=
  ⟨rfl, trivial, o.unembedded_members⟩

/-- The only form of replies. -/
def variant : Json.Variant Reply := .record tag (Outcome.decoder.map generationComplete)

/-- **A reply is recovered from its tree.** -/
theorem recovers (ho : o.Fits) :
    decoder.Recovers (generationComplete o) (generationComplete o).toJson := by
  have hvariant : [variant].find? (fun v => v.tag = variant.tag) = some variant := rfl
  obtain ⟨hrest, hcanonical⟩ := (Outcome.recovers ho).map generationComplete .buffer
  have hrest : variant.ofRest (.object o.members) = .ok (generationComplete o) := hrest
  have hcanonical : variant.ofRest (.object (Json.canonicalMembers o.members)) =
      .ok (generationComplete o) := hcanonical
  exact Json.recovers_tagged hvariant o.tag_not_mem_keys hrest hcanonical

end Reply

/-- **What is sent is received.** A reply whose count has 64 bits is decoded from its text and from
the tree in its text, and so is its outcome by itself; no other outcome has the same text. -/
theorem wire_of_fits (o : Outcome) (ho : o.Fits) :
    let message := Text.ofString (Reply.generationComplete o).toJson.compact
    let bare := Text.ofString o.toJson.compact
    (Reply.decoder.parse message = .ok (.generationComplete o) ∧
      ∃ i, Json.parse message = .ok i ∧ Reply.decoder.ofTree i = .ok (.generationComplete o)) ∧
    (Outcome.decoder.parse bare = .ok o ∧
      ∃ i, Json.parse bare = .ok i ∧ Outcome.decoder.ofTree i = .ok o) ∧
    ∀ o' : Outcome, o'.Fits → o' ≠ o →
      (Reply.generationComplete o').toJson.compact ≠ (Reply.generationComplete o).toJson.compact ∧
        o'.toJson.compact ≠ o.toJson.compact := by
  intro message bare
  have hreply (o : Outcome) (ho : o.Fits) :=
    (Reply.recovers ho).routes Json.faithful_tagged (Reply.legible ho) (Reply.unembedded o)
  have houtcome (o : Outcome) (ho : o.Fits) :=
    (Outcome.recovers ho).routes Outcome.faithful_decoder (Outcome.legible ho) o.unembedded
  refine ⟨hreply o ho, houtcome o ho, fun o' ho' hne => ⟨fun htext => hne ?_, fun htext => hne ?_⟩⟩
  · have h := (hreply o' ho').1
    rw [htext, (hreply o ho).1] at h
    exact (Reply.generationComplete.inj (Except.ok.inj h)).symm
  · have h := (houtcome o' ho').1
    rw [htext, (houtcome o ho).1] at h
    exact (Except.ok.inj h).symm

/-- The greatest count, and quotes, backslashes, control characters and others in the reason. -/
theorem wire_of_fits_escaped :
    let o : Outcome := ⟨false, some 18446744073709551615, some "\"\\\n\x1f é"⟩
    o.Fits ∧ o.toJson.compact =
      "\x7b\"success\":false,\"count\":18446744073709551615,\"error\":\"\\\"\\\\\\n\\u001f é\"\x7d" ∧
      Outcome.decoder.parse (Text.ofString o.toJson.compact) = .ok o := by
  intro o
  have ho : o.Fits := by
    intro n hn
    cases hn
    decide
  exact ⟨ho, by decide +kernel, (wire_of_fits o ho).2.1.1⟩

end Artboard
