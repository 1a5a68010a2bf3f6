import Artboard.Bridge
import Artboard.Proofs.Json.Parts
import Artboard.Proofs.Json.Reading

/-! # Messages as they are written

A text that reads as JSON is decoded as a message from the tree as it is written.

* `Message.asWritten`: the decoder of messages for such trees. `toOption_ofText`: texts are read as
  it says.
* `Message.ofWritten_cases`: a message is an object with a type, or a list that begins with it.
* `Message.ofWritten_of_members`: the message in an object with a type and data. -/

namespace Artboard

open Json (Decoder Field Fields Source keys resolved spelled)

/-! ### Fields that must be there -/

namespace Json.Fields

variable {α β : Type} {field : Field α} {rest : Fields β} {source : Source} {j : Json}
  {draft draft' : (Fields.cons field rest).Draft} {key : String} {ms : List (String × Json)}

/-- The value of another key leaves the first field as it is. -/
theorem first_ofMember (hkey : key ≠ field.name)
    (h : (Fields.cons field rest).ofMember source draft (key, j) = .ok draft') :
    draft'.first = draft.first := by
  rw [ofMember, slot, if_neg hkey] at h
  cases hslot : rest.slot key draft.others with
  | unknown => rw [hslot] at h; cases h; rfl
  | repeated => rw [hslot] at h; cases h
  | free d =>
    rw [hslot] at h
    change (d.ofJson source j).map _ = _ at h
    cases hj : d.ofJson source j with
    | error m => rw [hj] at h; cases h
    | ok others => rw [hj] at h; cases h; rfl

theorem first_foldlM : ∀ {ms : List (String × Json)} {draft : (Fields.cons field rest).Draft},
    field.name ∉ keys ms →
      ms.foldlM ((Fields.cons field rest).ofMember source) draft = .ok draft' →
        draft'.first = draft.first
  | [], _, _, h => by cases h; rfl
  | (key, j) :: ms, draft, hname, h => by
    obtain ⟨hkey, hname⟩ := List.ne_and_not_mem_of_not_mem_cons hname
    rw [List.foldlM_cons] at h
    cases hj : (Fields.cons field rest).ofMember source draft (key, j) with
    | error m => rw [hj] at h; cases h
    | ok next =>
      rw [hj] at h
      exact (first_foldlM hname h).trans (first_ofMember hkey.symm hj)

/-- **A record has its required field.** -/
theorem mem_keys_of_required {values : α × β} (hrequired : field.presence = .required)
    (h : (Fields.cons field rest).ofMembers source ms = .ok values) : field.name ∈ keys ms := by
  by_contra hname
  rw [ofMembers] at h
  cases hdraft : ms.foldlM ((Fields.cons field rest).ofMember source)
    (Fields.cons field rest).blank with
  | error m => rw [hdraft] at h; cases h
  | ok draft =>
    have hfirst : draft.first = none := first_foldlM hname hdraft
    rw [hdraft] at h
    dsimp only at h
    rw [finish, hfirst, hrequired] at h
    cases h

/-- An item is decoded for the first field. -/
theorem first_ofItems {expected : String} {index : Nat} {js left : List Json} {values : α × β}
    (h : (Fields.cons field rest).ofItems source expected index (j :: js) = .ok (values, left)) :
    field.decoder.ofJson source j = .ok values.1 := by
  rw [ofItems] at h
  cases hj : field.decoder.ofJson source j with
  | error m => rw [hj] at h; cases h
  | ok a =>
    rw [hj] at h
    cases hjs : rest.ofItems source expected (index + 1) js with
    | error m => rw [hjs] at h; cases h
    | ok r => rw [hjs] at h; cases h; rfl

end Json.Fields

theorem Json.ofItems_of_recordAs {α δ : Type} {described : String} {fields : Fields δ}
    {build : δ → α} {source : Source} {js : List Json} {a : α}
    (h : (Decoder.recordAs described fields build).ofJson source (.array js) = .ok a) :
    ∃ values, fields.ofItems source (completeArray described fields.length) 0 js =
      .ok (values, []) ∧ build values = a := by
  unfold Decoder.recordAs at h
  dsimp only at h
  rcases hjs : fields.ofItems source (completeArray described fields.length) 0 js with
    m | ⟨values, _ | ⟨j, left⟩⟩
  · rw [hjs] at h; cases h
  · rw [hjs] at h; cases h; exact ⟨values, rfl, rfl⟩
  · rw [hjs] at h; cases h

/-! ### Messages -/

namespace Message

variable {w : Json} {m : Message}

/-- The fields of messages, for trees as they are written. -/
def fieldsAsWritten : Fields (String × Json × Unit) :=
  .cons (.required "type" .string) (.cons (.default "data" .null .unfolded) .nil)

/-- The decoder of messages, for trees as they are written. -/
def asWritten : Decoder Message :=
  .record "InboundMessage" fieldsAsWritten fun (kind, data, _) => ⟨kind, data⟩

theorem faithful_asWritten : asWritten.Faithful := by
  have hfields : fieldsAsWritten.Faithful :=
    ⟨Json.faithful_string, Json.faithful_unfolded, trivial⟩
  unfold asWritten Decoder.record
  exact Json.faithful_recordAs hfields

theorem read_asWritten : asWritten.read = decoder.read := Json.recordAs_read_congr

/-- **A text is read as the tree as it is written.** -/
theorem toOption_ofText {t : Json.Text} (h : Json.complete Json.written t = .ok w) :
    (ofText t).toOption = (asWritten.ofJson .value w).toOption := by
  rw [← faithful_asWritten.toOption_parse h]
  show (Json.complete decoder.read t).toOption = (Json.complete asWritten.read t).toOption
  rw [read_asWritten]

theorem ofText_of_written {t : Json.Text} (h : Json.complete Json.written t = .ok w)
    (hm : asWritten.ofJson .value w = .ok m) : ofText t = .ok m := by
  rw [← Json.toOption_eq_some, toOption_ofText h, hm]
  rfl

/-- **A message is an object with a type, or a list that begins with it.** -/
theorem ofWritten_cases (h : asWritten.ofJson .value w = .ok m) :
    (∃ ms, w = .object ms ∧ "type" ∈ keys ms) ∨ ∃ js, w = .array (.string m.kind :: js) := by
  cases w with
  | object ms =>
    change (fieldsAsWritten.ofMembers .value ms).map _ = _ at h
    cases hms : fieldsAsWritten.ofMembers .value ms with
    | error e => rw [hms] at h; cases h
    | ok values => exact .inl ⟨ms, rfl, Fields.mem_keys_of_required rfl hms⟩
  | array js =>
    obtain ⟨values, hjs, rfl⟩ := Json.ofItems_of_recordAs h
    cases js with
    | nil => cases hjs
    | cons j js =>
      have hkind : Decoder.string.ofJson .value j = .ok values.1 := Fields.first_ofItems hjs
      cases j with
      | string kind => cases hkind; exact .inr ⟨js, rfl⟩
      | _ => cases hkind
  | _ => cases h

/-- A message with a type and data, as they are written. -/
theorem ofWritten_of_members {w v : Json} (hv : resolved spelled w = some v) (kind : String) :
    asWritten.ofJson .value (.object [("type", .string kind), ("data", w)]) =
      .ok ⟨kind, v.canonical⟩ := by
  have hmembers : fieldsAsWritten.ofMembers .value [("type", .string kind), ("data", w)] =
      .ok (kind, v.canonical, ()) := by
    have htype : fieldsAsWritten.ofMember .value fieldsAsWritten.blank ("type", .string kind) =
        .ok (some kind, none, ()) := rfl
    have hrest : fieldsAsWritten.ofMember .value (some kind, none, ()) ("data", w) =
        .ok (some kind, some v.canonical, ()) := by
      show ((Decoder.unfolded.ofJson .value w).map _).map _ = _
      rw [Json.unfolded_of_resolved .value hv]; rfl
    have hboth : [("type", Json.string kind), ("data", w)].foldlM
        (fieldsAsWritten.ofMember .value) fieldsAsWritten.blank =
          .ok (some kind, some v.canonical, ()) := by
      rw [List.foldlM_cons, htype]
      show fieldsAsWritten.ofMember .value (some kind, none, ()) ("data", w) >>= pure = _
      rw [hrest]; rfl
    rw [Fields.ofMembers, hboth]; rfl
  show (fieldsAsWritten.ofMembers .value _).map _ = _
  rw [hmembers]; rfl

end Message

end Artboard
