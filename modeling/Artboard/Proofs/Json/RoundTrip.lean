import Artboard.Proofs.Json.Compact
import Artboard.Proofs.Json.Parts
import Artboard.Proofs.Json.Tagged

/-! # Decoding what was encoded

* `Decoder.Recovers`: a tree is decoded as a value, as it is and in canonical form.
* `recovers_record`, `recovers_tagged`: records and tagged variants that were encoded as objects.
* `parse_compact`: a legible tree with nothing to open is read from its compact text.
* `Decoder.Recovers.routes`: a value is decoded from the compact text of its tree, and from the tree
  that this text gives. -/

namespace Artboard.Json

/-- **A tree is decoded as a value**, as it is and in canonical form. -/
def Decoder.Recovers {α : Type} (d : Decoder α) (a : α) (j : Json) : Prop :=
  ∀ source, d.ofJson source j = .ok a ∧ d.ofJson source j.canonical = .ok a

/-! ### Scalars -/

section Scalars
variable {α β : Type} {d : Decoder α} {a : α} {j : Json}

theorem recovers_string (s : String) : Decoder.string.Recovers s (.string s) :=
  fun _ => ⟨rfl, rfl⟩

theorem recovers_boolean (b : Bool) : Decoder.boolean.Recovers b (.bool b) := fun _ => ⟨rfl, rfl⟩

theorem recovers_natural {expected : String} {bound n : Nat} (h : n < bound) :
    (Decoder.natural expected bound).Recovers n (.int n) := by
  have hn : (Decoder.natural expected bound).ofJson .value (.int n) = .ok n := by
    show (if (0 : Int) ≤ n ∧ (n : Int) < bound then Except.ok _ else _) = _
    rw [if_pos ⟨by omega, by omega⟩, Int.toNat_natCast]
  exact fun _ => ⟨hn, hn⟩

theorem Decoder.Recovers.optional (h : d.Recovers a j) (hj : j ≠ .null)
    (hc : j.canonical ≠ .null) : d.optional.Recovers (some a) j := by
  intro source
  rw [Decoder.ofJson_optional source hj, Decoder.ofJson_optional source hc, (h source).1,
    (h source).2]
  exact ⟨rfl, rfl⟩

theorem Decoder.Recovers.map (h : d.Recovers a j) (f : α → β) : (d.map f).Recovers (f a) j := by
  intro source
  show (d.ofJson source j).map f = _ ∧ (d.ofJson source j.canonical).map f = _
  rw [(h source).1, (h source).2]
  exact ⟨rfl, rfl⟩

end Scalars

/-! ### Fields -/

namespace Field

variable {α : Type} {name : String} {d : Decoder α} {a : α} {j : Json}

/-- What a field of an object is when its member is this. -/
def Found (source : Source) (field : Field α) : Option Json → α → Prop
  | none, a => field.presence.inObject? = some a
  | some j, a => field.decoder.ofJson source j = .ok a

/-- What a field of an object is when its member is this, in canonical form or not. -/
def Recovers (field : Field α) : Option Json → α → Prop
  | none, a => field.presence.inObject? = some a
  | some j, a => field.decoder.Recovers a j

theorem recovers_required (h : d.Recovers a j) : (required name d).Recovers (some j) a := h

/-- A member that is left out where the value is absent. -/
theorem recovers_placed {toJson : α → Json} {o : Option α}
    (h : ∀ a, o = some a → d.optional.Recovers (some a) (toJson a)) :
    (placed name d).Recovers (o.map toJson) o := by
  cases o with
  | none => rfl
  | some a => exact h a rfl

end Field

/-! ### Records -/

namespace Fields

/-- What the fields are when an object has these members, each at most once. -/
def Found (source : Source) (ms : List (String × Json)) : {δ : Type} → Fields δ → δ → Prop
  | _, .nil, _ => True
  | _, .cons field rest, values =>
    field.Found source (lookup field.name ms) values.1 ∧ rest.Found source ms values.2

/-- A draft has the values of the fields whose members were read. -/
def Filled (done : List (String × Json)) : {δ : Type} → (fields : Fields δ) → fields.Draft → δ →
    Prop
  | _, .nil, _, _ => True
  | _, .cons field rest, draft, values =>
    draft.first = (lookup field.name done).map (fun _ => values.1) ∧
      rest.Filled done draft.others values.2

variable {source : Source} {ms done : List (String × Json)} {key : String} {j : Json}

theorem filled_blank : ∀ {δ : Type} (fields : Fields δ) (values : δ),
    fields.Filled [] fields.blank values
  | _, .nil, _ => trivial
  | _, .cons _ rest, values => ⟨rfl, filled_blank rest values.2⟩

theorem filled_concat : ∀ {δ : Type} {fields : Fields δ} {draft : fields.Draft} {values : δ},
    key ∉ fields.names → fields.Filled done draft values →
      fields.Filled (done ++ [(key, j)]) draft values
  | _, .nil, _, _, _, _ => trivial
  | _, .cons field rest, draft, values, hkey, h => by
    obtain ⟨hne, hrest⟩ := not_or.mp (mt List.mem_cons.mpr hkey)
    refine ⟨?_, filled_concat hrest h.2⟩
    rw [lookup_concat, if_neg hne]; exact h.1

/-- The next member is read into its field. -/
theorem ofMember_of_found (hj : lookup key ms = some j) (hkey : key ∉ keys done) :
    ∀ {δ : Type} {fields : Fields δ} {draft : fields.Draft} {values : δ}, fields.names.Nodup →
      fields.Found source ms values → fields.Filled done draft values →
        ∃ draft', fields.ofMember source draft (key, j) = .ok draft' ∧
          fields.Filled (done ++ [(key, j)]) draft' values
  | _, .nil, draft, _, _, _, _ => ⟨draft, rfl, trivial⟩
  | _, .cons field rest, draft, values, hnames, hfound, hfilled => by
    obtain ⟨hname, hnames⟩ := List.nodup_cons.mp hnames
    by_cases heq : key = field.name
    · subst heq
      have hfirst : draft.first = none := by rw [hfilled.1, lookup_eq_none.mpr hkey]; rfl
      have hvalue : field.decoder.ofJson source j = .ok values.1 := by
        have := hfound.1
        rwa [hj] at this
      refine ⟨Draft.join field (some values.1) draft.others, ?_, ?_,
        filled_concat hname hfilled.2⟩
      · simp only [ofMember, slot, if_pos, hfirst]
        show (field.decoder.ofJson source j).map _ = _
        rw [hvalue]; rfl
      · rw [lookup_concat, if_pos rfl]; rfl
    · obtain ⟨others, hothers, hfilled'⟩ := ofMember_of_found hj hkey hnames hfound.2 hfilled.2
      refine ⟨Draft.join field draft.first others, ?_, ?_, hfilled'⟩
      · have hmember : (Fields.cons field rest).ofMember source draft (key, j) =
            (rest.ofMember source draft.others (key, j)).map (Draft.join field draft.first) := by
          simp only [ofMember, slot, if_neg heq]
          cases rest.slot key draft.others <;> rfl
        rw [hmember, hothers]; rfl
      · rw [lookup_concat, if_neg heq]; exact hfilled.1

theorem foldlM_of_found {δ : Type} {fields : Fields δ} {values : δ} (hnames : fields.names.Nodup)
    (hfound : fields.Found source ms values) (hms : (keys ms).Nodup) :
    ∀ {rest done : List (String × Json)} {draft : fields.Draft}, done ++ rest = ms →
      fields.Filled done draft values →
        ∃ draft', rest.foldlM (fields.ofMember source) draft = .ok draft' ∧
          fields.Filled ms draft' values
  | [], done, draft, h, hfilled => ⟨draft, rfl, by rw [← h, List.append_nil]; exact hfilled⟩
  | (key, j) :: rest, done, draft, h, hfilled => by
    have hsplit : done ++ [(key, j)] ++ rest = ms := by rw [← h]; simp
    have hmem : (key, j) ∈ ms := by rw [← h]; simp
    have hkey : key ∉ keys done := by
      rw [← h, keys, List.map_append, List.map_cons, List.nodup_middle, List.nodup_cons] at hms
      exact fun hmem => hms.1 (List.mem_append_left _ hmem)
    obtain ⟨draft', hdraft', hfilled'⟩ :=
      ofMember_of_found (lookup_of_mem hms hmem) hkey hnames hfound hfilled
    rw [List.foldlM_cons, hdraft']
    exact foldlM_of_found hnames hfound hms hsplit hfilled'

theorem finish_of_found : ∀ {δ : Type} {fields : Fields δ} {draft : fields.Draft} {values : δ},
    fields.Found source ms values → fields.Filled ms draft values →
      fields.finish draft = .ok values
  | _, .nil, _, _, _, _ => rfl
  | _, .cons field rest, draft, values, hfound, hfilled => by
    have hrest := finish_of_found hfound.2 hfilled.2
    have hfirst : draft.first.or field.presence.inObject? = some values.1 := by
      have := hfound.1
      rw [hfilled.1]
      cases hl : lookup field.name ms with
      | none => rw [hl] at this; exact this
      | some j => rfl
    rw [finish, hfirst]
    show (rest.finish draft.others).map _ = _
    rw [hrest]; rfl

/-- **The members of an object are decoded as the fields.** -/
theorem ofMembers_of_found {δ : Type} {fields : Fields δ} {values : δ}
    (hnames : fields.names.Nodup) (hms : (keys ms).Nodup) (hfound : fields.Found source ms values) :
    fields.ofMembers source ms = .ok values := by
  obtain ⟨draft, hdraft, hfilled⟩ :=
    foldlM_of_found hnames hfound hms (List.nil_append ms) (filled_blank fields values)
  rw [ofMembers, hdraft]
  exact finish_of_found hfound hfilled

/-- What the fields are when the members of an object are these, on all routes. -/
def Recovers (ms : List (String × Json)) : {δ : Type} → Fields δ → δ → Prop
  | _, .nil, _ => True
  | _, .cons field rest, values =>
    field.Recovers (lookup field.name ms) values.1 ∧ rest.Recovers ms values.2

theorem Recovers.found (source : Source) : ∀ {δ : Type} {fields : Fields δ} {values : δ},
    fields.Recovers ms values →
      fields.Found source ms values ∧ fields.Found source (canonicalMembers ms) values
  | _, .nil, _, _ => ⟨trivial, trivial⟩
  | _, .cons field rest, values, h => by
    obtain ⟨hfirst, hrest⟩ := h
    obtain ⟨hfound, hcanonical⟩ := Recovers.found source hrest
    refine ⟨⟨?_, hfound⟩, ?_, hcanonical⟩
    · cases hl : lookup field.name ms with
      | none => rw [hl] at hfirst; exact hfirst
      | some j => rw [hl] at hfirst; exact (hfirst source).1
    · rw [lookup_canonicalMembers]
      cases hl : lookup field.name ms with
      | none => rw [hl] at hfirst; exact hfirst
      | some j => rw [hl] at hfirst; exact (hfirst source).2

end Fields

/-- **A record is recovered from an object whose members are its fields.** -/
theorem recovers_record {α δ : Type} {described : String} {fields : Fields δ} {build : δ → α}
    {ms : List (String × Json)} {values : δ} (hnames : fields.names.Nodup) (hms : (keys ms).Nodup)
    (h : fields.Recovers ms values) :
    (Decoder.recordAs described fields build).Recovers (build values) (.object ms) := by
  intro source
  obtain ⟨hfound, hcanonical⟩ := h.found source
  constructor
  · show (fields.ofMembers source ms).map build = _
    rw [Fields.ofMembers_of_found hnames hms hfound]; rfl
  · show (fields.ofMembers source (canonicalMembers ms)).map build = _
    rw [Fields.ofMembers_of_found hnames (nodup_keys_canonicalMembers ms) hcanonical]; rfl

/-! ### Tagged variants -/

namespace Tagged

variable {α : Type} {variants : List (Variant α)} {v : Variant α}
  {before after : List (String × Json)}

theorem foldlM_of_untagged : ∀ {ms : List (String × Json)} {draft : Draft α}, key ∉ keys ms →
    ms.foldlM (ofMember variants) draft = .ok (draft.1, draft.2 ++ ms)
  | [], draft, _ => by rw [List.append_nil]; rfl
  | (k, j) :: ms, draft, h => by
    obtain ⟨hk, hms⟩ := not_or.mp (mt List.mem_cons.mpr h)
    rw [List.foldlM_cons, ofMember, if_neg (Ne.symm hk)]
    show ms.foldlM (ofMember variants) (draft.1, draft.2 ++ [(k, j)]) = _
    rw [foldlM_of_untagged hms, List.append_assoc]; rfl

/-- An object is split into its tag, wherever it stands, and the other members in order. -/
theorem split_object (type : String) (hv : variants.find? (fun w => w.tag = v.tag) = some v)
    (hbefore : key ∉ keys before) (hafter : key ∉ keys after) :
    split type variants (.object (before ++ (key, .string v.tag) :: after)) =
      .ok (v, .object (before ++ after)) := by
  have htag : variant variants (.string v.tag) = .ok v := by rw [variant, hv]
  have hmember : ofMember variants (none, before) (key, .string v.tag) = .ok (some v, before) := by
    rw [ofMember, if_pos rfl]
    show (variant variants (.string v.tag)).map _ = _
    rw [htag]; rfl
  have hfold : (before ++ (key, .string v.tag) :: after).foldlM (ofMember variants) (none, []) =
      .ok (some v, before ++ after) := by
    rw [List.foldlM_append, foldlM_of_untagged hbefore]
    show ((key, Json.string v.tag) :: after).foldlM (ofMember variants) (none, before) = _
    rw [List.foldlM_cons, hmember]
    exact foldlM_of_untagged hafter
  rw [split, hfold]; rfl

end Tagged

theorem insertMember_split (key : String) (j : Json) : ∀ ms : List (String × Json),
    ∃ before after, ms = before ++ after ∧ insertMember key j ms = before ++ (key, j) :: after
  | [] => ⟨[], [], rfl, rfl⟩
  | (k, i) :: ms => by
    rw [insertMember]
    split_ifs
    · exact ⟨[], (k, i) :: ms, rfl, rfl⟩
    · obtain ⟨before, after, hms, hinsert⟩ := insertMember_split key j ms
      exact ⟨(k, i) :: before, after, by rw [hms]; rfl, by rw [hinsert]; rfl⟩

/-- **A tagged variant is recovered from an object that begins with its tag.** -/
theorem recovers_tagged {α : Type} {name : String} {variants : List (Variant α)} {v : Variant α}
    {ms : List (String × Json)} {a : α}
    (hv : variants.find? (fun w => w.tag = v.tag) = some v) (hms : Tagged.key ∉ keys ms)
    (hrest : v.ofRest (.object ms) = .ok a)
    (hcanonical : v.ofRest (.object (canonicalMembers ms)) = .ok a) :
    (Decoder.tagged name variants).Recovers a (.object ((Tagged.key, .string v.tag) :: ms)) := by
  have hlater : Tagged.key ∉ keys (canonicalMembers ms) := mt mem_keys_canonicalMembers.mp hms
  have hobject : (Json.object ((Tagged.key, .string v.tag) :: ms)).canonical =
      .object (insertMember Tagged.key (.string v.tag) (canonicalMembers ms)) := by
    rw [canonical, canonicalMembers, hasKey_eq, if_neg (by simpa using hlater)]; rfl
  obtain ⟨before, after, hsplit, hinsert⟩ :=
    insertMember_split Tagged.key (.string v.tag) (canonicalMembers ms)
  rw [hsplit, keys, List.map_append, List.mem_append, not_or] at hlater
  intro source
  constructor
  · have hnil : Tagged.key ∉ keys [] := List.not_mem_nil
    have hmembers := Tagged.split_object ("internally tagged enum " ++ name) hv hnil hms
    rw [List.nil_append] at hmembers
    rw [Decoder.tagged]
    dsimp only
    rw [hmembers]
    exact hrest
  · have hmembers := Tagged.split_object ("internally tagged enum " ++ name) hv hlater.1 hlater.2
    rw [hobject, hinsert, Decoder.tagged]
    dsimp only
    rw [hmembers, ← hsplit]
    exact hcanonical

/-! ### Whole texts -/

section Whole
variable {α : Type} {d : Decoder α} {a : α} {j : Json}

/-- **A legible tree with nothing to open is read from its compact text.** -/
theorem parse_compact (hj : j.Legible depthLimit) (hopen : j.Unembedded) :
    parse (Text.ofString j.compact) = .ok j :=
  parse_eq_ok.mpr ⟨j, complete_written_compact hj, resolved_of_unembedded hopen⟩

/-- **A value is decoded from the compact text of its tree, and from the tree in this text.** -/
theorem Decoder.Recovers.routes (h : d.Recovers a j) (hd : d.Faithful)
    (hj : j.Legible depthLimit) (hopen : j.Unembedded) :
    d.parse (Text.ofString j.compact) = .ok a ∧
      ∃ i, Json.parse (Text.ofString j.compact) = .ok i ∧ d.ofTree i = .ok a := by
  refine ⟨?_, j, parse_compact hj hopen, (h .value).2⟩
  rw [← toOption_eq_some, hd.toOption_parse (complete_written_compact hj), (h .value).1]
  rfl

end Whole

end Artboard.Json
