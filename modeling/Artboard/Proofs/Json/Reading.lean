import Artboard.Json.Record
import Artboard.Proofs.Json.Resolved

/-! # Decoding texts as trees

A decoder that is faithful reads from a text what it gives for the tree as it is written.

* `Decoder.Faithful`: such decoders. `faithful_scalar`, `Faithful.optional`, `Faithful.list` and the
  like: they are built from one another.
* `faithful_recordAs`: a record with faithful fields. A key that is repeated, or items that are left
  over, are refused in the text just if they are in the tree.
* `Decoder.unfolded`: values with embedded texts opened. -/

namespace Artboard.Json

/-- Where a tree is written, the decoder reads what it gives for this tree. -/
def Decoder.Faithful {α : Type} (d : Decoder α) : Prop :=
  ∀ ⦃depth : Nat⦄ ⦃text rest : Text⦄ ⦃w : Json⦄, Written depth text w rest →
    (d.read depth text).toOption = (d.ofJson .value w).toOption.map fun a => (a, rest)

section Leaves
variable {α β : Type} {d : Decoder α} {depth : Nat} {text rest : Text} {w : Json}

theorem faithful_scalar {expected : String} {accept : Json → Except Mismatch α}
    (hlist : ∀ js, (accept (.array js)).toOption = none)
    (hobject : ∀ ms, (accept (.object ms)).toOption = none) :
    (Decoder.scalar expected accept).Faithful :=
  fun _ _ _ _ h => toOption_scalarAs hlist hobject h

theorem faithful_number : Decoder.number.Faithful := faithful_scalar (fun _ => rfl) fun _ => rfl

theorem faithful_string : Decoder.string.Faithful := faithful_scalar (fun _ => rfl) fun _ => rfl

/-- The word `null` is known by its first letter. -/
theorem Written.eq_null_iff (h : Written depth text w rest) :
    w = .null ↔ ∃ t, text.skipBlank = .char 'n' :: t := by
  cases h with
  | scalar h =>
    constructor
    · rintro rfl
      generalize hu : text.skipBlank = u at h
      generalize hj : Json.null = j at h
      cases h with
      | null h => exact ⟨_, rfl⟩
      | minus h => rcases unsignedNumber_isNumber h with ⟨n, rfl⟩ | ⟨x, rfl⟩ <;> cases hj
      | number _ h => rcases unsignedNumber_isNumber h with ⟨n, rfl⟩ | ⟨x, rfl⟩ <;> cases hj
      | _ => cases hj
    · rintro ⟨t, ht⟩
      rw [ht] at h
      cases h with
      | null h => rfl
      | number hdigit h => cases hdigit
  | array hopen _ _ => simp [hopen]
  | object hopen _ _ => simp [hopen]

theorem Written.skipBlank (h : Written depth text w rest) :
    Written depth text.skipBlank w rest := by
  cases h with
  | scalar h => exact .scalar (by rw [skipBlank_skipBlank]; exact h)
  | array hopen hitems hclose =>
    exact .array (by rw [skipBlank_skipBlank]; exact hopen) hitems hclose
  | object hopen hmembers hclose =>
    exact .object (by rw [skipBlank_skipBlank]; exact hopen) hmembers hclose

theorem Decoder.ofJson_optional (source : Source) (hw : w ≠ .null) :
    d.optional.ofJson source w = (d.ofJson source w).map some := by
  cases w with
  | null => exact absurd rfl hw
  | _ => rfl

theorem toOption_ofItems (decode : Json → Except Mismatch α) : ∀ js : List Json,
    (Decoder.ofItems decode js).toOption = js.mapM fun j => (decode j).toOption
  | [] => rfl
  | j :: js => by
    rw [Decoder.ofItems, List.mapM_cons, ← toOption_ofItems decode js]
    cases decode j with
    | error m => rfl
    | ok a =>
      dsimp only
      cases Decoder.ofItems decode js <;> rfl

/-- Where brackets are expected a scalar is refused. -/
theorem toOption_refuse (expected : String) (text : Text) :
    (Decoder.refuse expected text : Except Failure (α × Text)).toOption = none := by
  unfold Decoder.refuse
  cases Json.scalar text <;> rfl

namespace Decoder.Faithful

theorem map (hd : d.Faithful) (f : α → β) : (d.map f).Faithful := by
  intro depth text rest w h
  show ((d.read depth text).map _).toOption = ((d.ofJson .value w).map f).toOption.map _
  rw [toOption_map, toOption_map, hd h, Option.map_map, Option.map_map]; rfl

theorem optional (hd : d.Faithful) : d.optional.Faithful := by
  intro depth text rest w h
  conv_lhs => rw [Decoder.optional]
  dsimp only
  split
  · rename_i t hblank
    obtain rfl := h.eq_null_iff.mpr ⟨t, hblank⟩
    cases h with
    | scalar h =>
      rw [hblank] at h
      cases h with
      | null h => rw [h]; rfl
      | number hdigit h => cases hdigit
  · rename_i hblank
    have hw : w ≠ .null := fun hw => by
      obtain ⟨t, ht⟩ := h.eq_null_iff.mp hw
      exact hblank t ht
    rw [Decoder.ofJson_optional .value hw, toOption_map, toOption_map, hd h.skipBlank,
      Option.map_map, Option.map_map]; rfl

theorem nullable (hd : d.Faithful) (default : α) : (d.nullable default).Faithful :=
  hd.optional.map _

theorem convert (hd : d.Faithful) (f : α → Except Mismatch β) : (d.convert f).Faithful := by
  intro depth text rest w h
  unfold Decoder.convert
  dsimp only
  rcases toOption_cases (hd h) with ⟨e, m, hread, hj⟩ | ⟨a, hread, hj⟩
  · rw [hread, hj]; rfl
  · rw [hread, hj]
    dsimp only
    show _ = (f a).toOption.map _
    cases f a <;> rfl

theorem list (hd : d.Faithful) : (Decoder.list d).Faithful := by
  intro depth text rest w h
  conv_lhs => rw [Decoder.list]
  dsimp only
  cases h with
  | scalar h =>
    have hw : (d.list.ofJson .value w).toOption = none := by
      cases w with
      | array js => exact absurd rfl (h.ne_array js)
      | _ => rfl
    rw [hw]
    split
    · rename_i hblank; exact absurd hblank (h.ne_bracket _).1
    · rename_i hblank; exact absurd hblank (h.ne_bracket _).2
    · exact toOption_refuse ..
  | @array depth _ inner t _ js hopen hitems hclose =>
    have hread : (items .keep (d.read depth) inner).toOption =
        (js.mapM fun j => (d.ofJson .value j).toOption).map fun as => (as, t) :=
      toOption_itemsFrom (fun h => (written_eq_ok.mp h).length_lt.le)
        (fun _ h => hd (written_eq_ok.mp h)) le_rfl hitems
    rw [hopen]
    show (inList (some (items .keep (d.read depth))) (.char '[' :: inner)).toOption = _
    rw [inList, toOption_enclosed, hread, ← toOption_ofItems, bind_closed, hclose]; rfl
  | object hopen _ _ => rw [hopen]; rfl

end Decoder.Faithful

end Leaves

/-! ### Records -/

namespace Fields

/-- All fields have faithful decoders. -/
def Faithful : {δ : Type} → Fields δ → Prop
  | _, .nil => True
  | _, .cons field rest => field.decoder.Faithful ∧ rest.Faithful

section Members
variable {key : String}

theorem faithful_slot : ∀ {δ : Type} {fields : Fields δ} {draft : fields.Draft}
    {d : Decoder fields.Draft}, fields.Faithful → fields.slot key draft = .free d → d.Faithful
  | _, .nil, _, _, _, h => by cases h
  | _, .cons field rest, draft, d, hfields, h => by
    rw [slot] at h
    split_ifs at h
    · cases h
      exact hfields.1.map _
    · cases hs : rest.slot key draft.others with
      | unknown => rw [hs] at h; cases h
      | repeated => rw [hs] at h; cases h
      | free d' =>
        rw [hs] at h
        cases h
        exact (faithful_slot hfields.2 hs).map _

variable {δ : Type} {fields : Fields δ} {draft : fields.Draft} {depth : Nat} {text rest : Text}
  {w : Json}

/-- A member is read into the draft into which it is decoded. -/
theorem toOption_readMember (hfields : fields.Faithful) (h : Written depth text w rest) :
    ((fields.readMember depth key draft).toOption.bind fun reader => (reader text).toOption) =
      (fields.ofMember .value draft (key, w)).toOption.map fun draft => (draft, rest) := by
  rw [readMember, ofMember]
  cases hs : fields.slot key draft with
  | unknown =>
    show ((skip text).map _).toOption = _
    rw [h.skip]; rfl
  | repeated => rfl
  | free d => exact faithful_slot hfields hs h

theorem toOption_foldlM {σ : Type} (f : σ → String × Json → Except Mismatch σ) :
    ∀ (ms : List (String × Json)) (state : σ),
      (ms.foldlM f state).toOption = ms.foldlM (fun state m => (f state m).toOption) state
  | [], _ => rfl
  | m :: ms, state => by
    rw [List.foldlM_cons, List.foldlM_cons]
    cases f state m with
    | error e => rfl
    | ok state' => exact toOption_foldlM f ms state'

/-- An object is read into what it is decoded into. -/
theorem toOption_readMembers {ms : List (String × Json)} (hfields : fields.Faithful)
    (h : members (keepMember (written depth)) [] text = .ok (ms.reverse, rest)) :
    (fields.readMembers depth text).toOption =
      (fields.ofMembers .value ms).toOption.map fun values => (values, rest) := by
  obtain ⟨ns, hns, hread⟩ : ∃ ns : List (String × Json), ms.reverse = ns.reverse ++ [] ∧
      (members (fields.readMember depth) fields.blank text).toOption =
        (ns.foldlM (fun draft m => (fields.ofMember .value draft m).toOption) fields.blank).map
          fun draft => (draft, rest) :=
    toOption_membersFrom (fun h => (written_eq_ok.mp h).length_lt.le) id
      (fun _ h => toOption_readMember hfields (written_eq_ok.mp h)) le_rfl h
  obtain rfl : ms = ns := List.reverse_injective (by rw [hns, List.append_nil])
  rw [← toOption_foldlM] at hread
  rw [readMembers, ofMembers]
  rcases toOption_cases hread with ⟨e, m, hread, hdraft⟩ | ⟨draft, hread, hdraft⟩
  · rw [hread, hdraft]; rfl
  · rw [hread, hdraft]
    dsimp only
    cases fields.finish draft <;> rfl

end Members

section Items

theorem closeList_of_close {first : Bool} {text t : Text} (h : NextItem first text .close t) :
    closeList text = closeList t := by
  cases h with
  | close h => unfold closeList; rw [h]; rfl

theorem closeList_of_entry {first : Bool} {text t : Text} (h : NextItem first text .entry t) :
    (closeList text).toOption = none := by
  cases hclose : closeList text with
  | error f => rfl
  | ok rest =>
    have hblank := closeList_eq_ok.mp hclose
    cases h with
    | first h hg => rw [h] at hblank; exact absurd (List.cons.inj hblank).1 hg
    | comma h _ _ => rw [h] at hblank; cases hblank

/-- An array is read up to the end of its fields. It can be closed there just if no item is left
over. -/
theorem toOption_readItems {depth : Nat} {expected : String} {t rest : Text}
    (hclose : closeList t = .ok rest) : ∀ {δ : Type} {fields : Fields δ} {steps index : Nat}
      {text : Text} {js : List Json}, fields.Faithful →
        itemsFrom .keep (written depth) steps index text = .ok (js, t) →
          (fields.readItems depth expected index text).toOption.bind (closed closeList) =
            match fields.ofItems .value expected index js with
            | .ok (values, []) => some (values, rest)
            | _ => none
  | _, _, 0, _, _, _, _, h => by cases h
  | _, .nil, steps + 1, index, text, js, _, h => by
    show (closeList text).toOption.map _ = _
    rcases itemsFrom_cases h with ⟨hnext, rfl⟩ | ⟨t', w, u, ws, hnext, -, -, rfl⟩
    · rw [closeList_of_close hnext, hclose]; rfl
    · rw [closeList_of_entry hnext]; rfl
  | _, .cons field fields, steps + 1, index, text, js, hfields, h => by
    rcases itemsFrom_cases h with ⟨hnext, rfl⟩ | ⟨t', w, u, ws, hnext, hw, hws, rfl⟩
    · rw [readItems, nextItem_eq_ok.mpr hnext, ofItems]
      cases (Fields.cons field fields).pastArray index expected with
      | error m => rfl
      | ok values =>
        show (closeList t).toOption.map _ = _
        rw [hclose]; rfl
    · rw [readItems, nextItem_eq_ok.mpr hnext, ofItems]
      dsimp only
      rcases toOption_cases (hfields.1 (written_eq_ok.mp hw)) with
        ⟨e, m, hread, hj⟩ | ⟨a, hread, hj⟩
      · rw [hread, hj]; rfl
      · rw [hread, hj]
        dsimp only
        rw [toOption_map, map_bind_closed (fun b => (a, b)),
          toOption_readItems hclose hfields.2 hws]
        cases fields.ofItems .value expected (index + 1) ws with
        | error m => rfl
        | ok r =>
          obtain ⟨values, left⟩ := r
          cases left <;> rfl

end Items

end Fields

/-- **A record is read from a text as it is decoded from the tree as it is written.** -/
theorem faithful_recordAs {α δ : Type} {described : String} {fields : Fields δ} {build : δ → α}
    (hfields : fields.Faithful) : (Decoder.recordAs described fields build).Faithful := by
  intro depth text rest w h
  conv_lhs => rw [Decoder.recordAs]
  dsimp only
  rw [toOption_map]
  cases h with
  | scalar h =>
    have hw : ((Decoder.recordAs described fields build).ofJson .value w).toOption = none := by
      cases w with
      | array js => exact absurd rfl (h.ne_array js)
      | object ms => exact absurd rfl (h.ne_object ms)
      | _ => rfl
    rw [hw]
    split
    · rename_i hblank; exact absurd hblank (h.ne_bracket _).1
    · rename_i hblank; exact absurd hblank (h.ne_bracket _).2
    · rw [toOption_refuse]; rfl
  | @array depth _ inner t _ js hopen hitems hclose =>
    rw [hopen]
    show Option.map _ (inList (some (fields.readItems depth _ 0)) (.char '[' :: inner)).toOption = _
    rw [inList, toOption_enclosed, Fields.toOption_readItems hclose hfields hitems]
    rw [Decoder.recordAs]
    dsimp only
    cases fields.ofItems .value (completeArray described fields.length) 0 js with
    | error m => rfl
    | ok r =>
      obtain ⟨values, left⟩ := r
      cases left <;> rfl
  | @object depth _ inner t _ ms hopen hmembers hclose =>
    rw [hopen]
    show Option.map _
      (inObject (some (fields.readMembers depth)) (.char '\x7b' :: inner)).toOption = _
    rw [inObject, toOption_enclosed, Fields.toOption_readMembers hfields hmembers, bind_closed,
      hclose]
    show _ = Option.map _ (Except.map _ (fields.ofMembers .value ms)).toOption
    cases fields.ofMembers .value ms <;> rfl

/-! ### Whole texts -/

section Whole
variable {α : Type} {d : Decoder α} {text : Text} {w : Json}

/-- A whole text is decoded as the tree as it is written. -/
theorem Decoder.Faithful.toOption_parse (hd : d.Faithful) (h : complete Json.written text = .ok w) :
    (d.parse text).toOption = (d.ofJson .value w).toOption := by
  obtain ⟨rest, hw, hrest⟩ := complete_eq_ok.mp h
  rw [Decoder.parse, toOption_complete, hd (written_eq_ok.mp hw)]
  cases d.ofJson .value w with
  | error m => rfl
  | ok a =>
    show (if rest.skipBlank = [] then some a else none) = some a
    rw [if_pos hrest]

end Whole

/-! ### Values -/

/-- Any tree in canonical form, with embedded texts opened in the tree as it is written. -/
def Decoder.unfolded : Decoder Json where
  read := Decoder.value.read
  ofJson _ w :=
    match resolved spelled w with
    | some v => .ok v.canonical
    | none => .error (.embedded embeddedName)

theorem faithful_unfolded : Decoder.unfolded.Faithful := by
  intro depth text rest w h
  show ((tree depth text).map _).toOption = _
  rw [toOption_map, toOption_tree h]
  unfold Decoder.unfolded
  dsimp only
  cases resolved spelled w <;> rfl

theorem unfolded_of_resolved {v w : Json} (source : Source) (hv : resolved spelled w = some v) :
    Decoder.unfolded.ofJson source w = .ok v.canonical := by
  unfold Decoder.unfolded
  dsimp only
  rw [hv]

section Congruence
variable {α β γ : Type} {first : Field β} {name : String} {presence : Presence γ}
  {read : Nat → Reader γ} {ofJson ofJson' : Source → Json → Except Mismatch γ}

/-- Two fields. How the last one is decoded from trees makes no difference to texts. -/
def Fields.pair (first : Field β) (name : String) (presence : Presence γ) (read : Nat → Reader γ)
    (ofJson : Source → Json → Except Mismatch γ) : Fields (β × γ × Unit) :=
  .cons first (.cons ⟨name, ⟨read, ofJson⟩, presence⟩ .nil)

namespace Fields

theorem readMember_pair (depth : Nat) (key : String)
    (draft : (pair first name presence read ofJson).Draft) :
    (pair first name presence read ofJson).readMember depth key draft =
      (pair first name presence read ofJson').readMember depth key draft := by
  obtain ⟨b, c, _⟩ : Option β × Option γ × Unit := draft
  by_cases hfirst : key = first.name
  · simp only [pair, readMember, slot, if_pos hfirst]
    cases b <;> rfl
  · by_cases hlast : key = name
    · simp only [pair, readMember, slot, if_neg hfirst, if_pos hlast]
      cases c <;> rfl
    · simp only [pair, readMember, slot, if_neg hfirst, if_neg hlast]
      rfl

theorem readMembers_pair (depth : Nat) (text : Text) :
    (pair first name presence read ofJson).readMembers depth text =
      (pair first name presence read ofJson').readMembers depth text := by
  have hread : (pair first name presence read ofJson).readMember depth =
      (pair first name presence read ofJson').readMember depth :=
    funext fun key => funext fun draft => readMember_pair depth key draft
  have hmembers : members ((pair first name presence read ofJson).readMember depth)
      (pair first name presence read ofJson).blank text =
        members ((pair first name presence read ofJson').readMember depth)
          (pair first name presence read ofJson').blank text :=
    congrArg (fun f : String → Option β × Option γ × Unit →
      Except Mismatch (Reader (Option β × Option γ × Unit)) =>
        members f (none, none, ()) text) hread
  have hfinish (draft : Option β × Option γ × Unit) :
      (pair first name presence read ofJson).finish draft =
        (pair first name presence read ofJson').finish draft := rfl
  rw [readMembers, readMembers]
  rcases hr : members ((pair first name presence read ofJson').readMember depth)
    (pair first name presence read ofJson').blank text with f | ⟨draft, rest⟩
  · rw [hmembers.trans hr]
  · rw [hmembers.trans hr]
    dsimp only
    rcases hv : (pair first name presence read ofJson').finish draft with m | v
    · rw [(hfinish draft).trans hv]
    · rw [(hfinish draft).trans hv]

theorem readItems_pair (depth : Nat) (expected : String) (text : Text) :
    (pair first name presence read ofJson).readItems depth expected 0 text =
      (pair first name presence read ofJson').readItems depth expected 0 text := by
  have hlast (text : Text) : readItems depth expected (0 + 1)
      (.cons ⟨name, ⟨read, ofJson⟩, presence⟩ .nil) text =
        readItems depth expected (0 + 1) (.cons ⟨name, ⟨read, ofJson'⟩, presence⟩ .nil) text := by
    rw [readItems, readItems]
    rcases nextItem .keep (decide (0 + 1 = 0)) text with f | ⟨_ | _, more⟩ <;> rfl
  rw [pair, pair, readItems, readItems]
  rcases nextItem .keep (decide (0 = 0)) text with f | ⟨_ | _, more⟩
  · rfl
  · rfl
  · dsimp only
    rcases first.decoder.read depth more with f | ⟨b, more⟩
    · rfl
    · exact congrArg (Except.map fun r => ((b, r.1), r.2)) (hlast more)

end Fields

/-- The last of two fields may be decoded from trees in another way; texts are read the same. -/
theorem recordAs_read_congr {described : String} {build : β × γ × Unit → α} :
    (Decoder.recordAs described (.pair first name presence read ofJson) build).read =
      (Decoder.recordAs described (.pair first name presence read ofJson') build).read := by
  funext depth text
  have hitems : within (fun depth => Fields.readItems depth (completeArray described 2) 0
      (.pair first name presence read ofJson)) depth =
        within (fun depth => Fields.readItems depth (completeArray described 2) 0
          (.pair first name presence read ofJson')) depth :=
    congrArg (within · depth) (funext fun depth => funext (Fields.readItems_pair depth _))
  have hmembers : within (fun depth => Fields.readMembers depth
      (.pair first name presence read ofJson)) depth =
        within (fun depth => Fields.readMembers depth
          (.pair first name presence read ofJson')) depth :=
    congrArg (within · depth) (funext fun depth => funext (Fields.readMembers_pair depth))
  refine congrArg (Except.map _) ?_
  generalize text.skipBlank = u
  split
  · exact congrArg (fun body => inList body _) hitems
  · exact congrArg (fun body => inObject body _) hmembers
  · rfl

end Congruence

end Artboard.Json
