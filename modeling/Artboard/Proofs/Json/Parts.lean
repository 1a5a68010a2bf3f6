import Artboard.Proofs.Json.Record
import Artboard.Proofs.Json.Resolved

/-! # The parts of a record

A record is decoded from those of its parts that it knows, each by itself.

* `Once`: objects in which no known key is repeated.
* `recordAs_eq_ok_iff`: what a record is decoded into, from the decoders of its fields.
* `Counterpart`: a part of a tree as it is written, and the same part of the canonical tree. -/

namespace Artboard.Json

/-- None of these keys occurs twice in an object. -/
def Once (names : List String) : Json → Prop
  | .object ms => ∀ name ∈ names, (keys ms).count name ≤ 1
  | _ => True

/-- An object without the members that have other keys. -/
def restrict (names : List String) : Json → Json
  | .object ms => .object (ms.filter fun m => m.1 ∈ names)
  | j => j

section Keys
variable {ms : List (String × Json)} {names : List String} {key : String} {j : Json}

theorem lookup_cons (m : String × Json) (ms : List (String × Json)) (key : String) :
    lookup key (m :: ms) = (lookup key ms).or (if m.1 = key then some m.2 else none) := by
  have hlookup (ms : List (String × Json)) : lookup key ms =
    (ms.reverse.find? fun m => decide (m.1 = key)).map Prod.snd := rfl
  rw [hlookup, hlookup, List.reverse_cons, List.find?_append]
  cases ms.reverse.find? fun m => decide (m.1 = key) with
  | some n => rfl
  | none => by_cases hkey : m.1 = key <;> simp [hkey]

theorem keys_filter : keys (ms.filter fun m => m.1 ∈ names) = (keys ms).filter (· ∈ names) := by
  rw [keys, keys, List.filter_map]; rfl

theorem distinct_restrict (h : j.Once names) : (j.restrict names).Distinct := by
  cases j with
  | object ms =>
    show (keys (ms.filter fun m => m.1 ∈ names)).Nodup
    rw [keys_filter, List.nodup_iff_count_le_one]
    intro name
    by_cases hname : name ∈ names
    · rw [List.count_filter (by simpa using hname)]
      exact h name hname
    · have hnot : name ∉ (keys ms).filter (· ∈ names) :=
        fun hmem => hname (by simpa using (List.mem_filter.mp hmem).2)
      rw [List.count_eq_zero_of_not_mem hnot]
      exact Nat.zero_le _
  | _ => trivial

theorem once_of_distinct (h : j.Distinct) (names : List String) : j.Once names := by
  cases j with
  | object ms => exact fun name _ => List.nodup_iff_count_le_one.mp h name
  | _ => trivial

theorem lookup_filter (h : key ∈ names) : ∀ ms : List (String × Json),
    lookup key (ms.filter fun m => m.1 ∈ names) = lookup key ms
  | [] => rfl
  | m :: ms => by
    rw [List.filter_cons]
    split_ifs with hm
    · rw [lookup_cons, lookup_cons, lookup_filter h ms]
    · have hne : m.1 ≠ key := by rintro rfl; simp [h] at hm
      rw [lookup_cons, lookup_filter h ms, if_neg hne, Option.or_none]

theorem part_restrict (h : key ∈ names) (index : Nat) :
    part (j.restrict names) index key = part j index key := by
  cases j with
  | object ms => exact lookup_filter h ms
  | _ => rfl

theorem isRecord_restrict {length : Nat} :
    IsRecord length (j.restrict names) ↔ IsRecord length j := by
  cases j <;> rfl

end Keys

namespace Fields

/-- The names of the fields. -/
def names {δ : Type} (fields : Fields δ) : List String := fields.rules.map Prod.fst

theorem slot_eq_unknown {key : String} : ∀ {δ : Type} {fields : Fields δ} (draft : fields.Draft),
    key ∉ fields.names → fields.slot key draft = .unknown
  | _, .nil, _, _ => rfl
  | _, .cons field rest, draft, h => by
    rw [names, rules, List.map_cons, List.mem_cons, not_or] at h
    rw [slot, if_neg h.1, slot_eq_unknown draft.others h.2]; rfl

/-- Members whose keys are not known make no difference. -/
theorem foldlM_filter {δ : Type} {fields : Fields δ} : ∀ (ms : List (String × Json))
    (draft : fields.Draft),
      (ms.filter fun m => m.1 ∈ fields.names).foldlM (fields.ofMember .value) draft =
        ms.foldlM (fields.ofMember .value) draft
  | [], _ => rfl
  | (key, j) :: ms, draft => by
    rw [List.filter_cons, List.foldlM_cons]
    split_ifs with hkey
    · rw [List.foldlM_cons]
      cases fields.ofMember .value draft (key, j) with
      | error m => rfl
      | ok draft' => exact foldlM_filter ms draft'
    · have hunknown : fields.ofMember .value draft (key, j) = .ok draft := by
        rw [ofMember, slot_eq_unknown draft (by simpa using hkey)]
      rw [hunknown]
      exact foldlM_filter ms draft

section Gives
variable {parts parts' : Nat → String → Option Json}

theorem partsFit_of_gives : ∀ {δ : Type} {fields : Fields δ} {index : Nat} {values : δ},
    fields.Gives parts index values → PartsFit parts index fields.rules
  | _, .nil, _, _, _ => trivial
  | _, .cons field rest, index, values, h => by
    obtain ⟨hfirst, hrest⟩ := h
    refine ⟨fun x hx => ?_, partsFit_of_gives hrest⟩
    rw [hx] at hfirst
    have hfirst : field.decoder.ofJson .value x = .ok values.1 := hfirst
    show field.decoder.complaint x = none
    rw [Decoder.complaint, hfirst]

theorem eq_of_gives : ∀ {δ : Type} {fields : Fields δ} {index : Nat} {values values' : δ},
    fields.Gives parts index values → fields.Gives parts index values' → values = values'
  | _, .nil, _, _, _, _, _ => rfl
  | _, .cons field rest, index, values, values', h, h' => by
    obtain ⟨hfirst, hrest⟩ := h
    obtain ⟨hfirst', hrest'⟩ := h'
    refine Prod.ext ?_ (eq_of_gives hrest hrest')
    cases hx : parts index field.name with
    | none =>
      rw [hx] at hfirst hfirst'
      exact Presence.default.inj (Eq.trans (Eq.symm hfirst) hfirst')
    | some x =>
      rw [hx] at hfirst hfirst'
      exact Except.ok.inj (Eq.trans hfirst.symm hfirst')

theorem gives_congr : ∀ {δ : Type} {fields : Fields δ} {index : Nat} {values : δ},
    (∀ i, ∀ name ∈ fields.names, parts i name = parts' i name) →
      (fields.Gives parts index values ↔ fields.Gives parts' index values)
  | _, .nil, _, _, _ => Iff.rfl
  | _, .cons field rest, index, values, h => by
    refine and_congr ?_ (gives_congr fun i name hname => h i name (List.mem_cons_of_mem _ hname))
    rw [h index field.name List.mem_cons_self]

end Gives

end Fields

section Records
variable {α δ : Type} {described : String} {fields : Fields δ} {build : δ → α} {j : Json} {a : α}

theorem ofJson_restrict : (Decoder.recordAs described fields build).ofJson .value
    (j.restrict fields.names) = (Decoder.recordAs described fields build).ofJson .value j := by
  cases j with
  | object ms =>
    show Except.map _ (fields.ofMembers .value _) = Except.map _ (fields.ofMembers .value ms)
    rw [Fields.ofMembers, Fields.foldlM_filter]; rfl
  | _ => rfl

/-- **A record in which no known key is repeated** is what its fields give. -/
theorem recordAs_eq_ok_iff (hnames : fields.names.Nodup) (hlenient : fields.Lenient)
    (hj : j.Once fields.names) :
    (Decoder.recordAs described fields build).ofJson .value j = .ok a ↔
      IsRecord fields.length j ∧ ∃ values, fields.Gives (part j) 0 values ∧ a = build values := by
  have hdistinct := distinct_restrict hj
  have hparts {values : δ} : fields.Gives (part (j.restrict fields.names)) 0 values ↔
      fields.Gives (part j) 0 values :=
    Fields.gives_congr fun i name hname => part_restrict hname i
  have hverdict : Verdict _ _
      ((Decoder.recordAs described fields build).ofJson .value (j.restrict fields.names)) :=
    verdict_record hnames hlenient hdistinct
  rw [ofJson_restrict] at hverdict
  simp only [hparts, isRecord_restrict] at hverdict
  refine ⟨fun h => hverdict.of_ok h, ?_⟩
  rintro ⟨hrecord, values, hvalues, rfl⟩
  have hnone : recordComplaint described fields.rules (j.restrict fields.names) = none := by
    rw [recordComplaint_eq_none hnames hdistinct, isRecord_restrict, Fields.length_rules]
    exact ⟨hrecord, Fields.partsFit_of_gives (hparts.mpr hvalues)⟩
  obtain ⟨b, hb⟩ := hverdict.ok_iff.mpr hnone
  obtain ⟨-, values', hvalues', rfl⟩ := hverdict.of_ok hb
  rw [hb, Fields.eq_of_gives hvalues hvalues']

end Records

/-! ### Parts of canonical trees -/

section Canonical
variable {ms : List (String × Json)} {key : String} {j : Json}

theorem lookup_insertMember : ∀ {ms : List (String × Json)}, key ∉ keys ms → ∀ name,
    lookup name (insertMember key j ms) = (lookup name ms).or (if key = name then some j else none)
  | [], _, name => lookup_cons (key, j) [] name
  | (k, i) :: ms, h, name => by
    obtain ⟨hk, hms⟩ := not_or.mp (mt List.mem_cons.mpr h)
    rw [insertMember]
    split_ifs with hlt hname hname
    · rw [lookup_cons, if_pos hname]
    · rw [lookup_cons, if_neg hname]
    · subst hname
      rw [lookup_cons, lookup_insertMember hms, if_pos rfl, lookup_cons, lookup_eq_none.mpr hms]
      have hne : ¬ k = key := fun heq => hk heq.symm
      rw [if_neg hne]; rfl
    · rw [lookup_cons, lookup_insertMember hms, if_neg hname, lookup_cons, Option.or_none,
        Option.or_none]

theorem mem_keys_canonicalMembers : ∀ {ms : List (String × Json)},
    key ∈ keys (canonicalMembers ms) ↔ key ∈ keys ms
  | [] => Iff.rfl
  | (k, j) :: ms => by
    have ih : key ∈ keys (canonicalMembers ms) ↔ key ∈ keys ms := mem_keys_canonicalMembers
    rw [canonicalMembers, hasKey_eq]
    rw [show keys ((k, j) :: ms) = k :: keys ms from rfl, List.mem_cons, ← ih]
    split_ifs with hk
    · have hk : k ∈ keys (canonicalMembers ms) := by simpa using hk
      exact ⟨.inr, fun h => h.elim (fun heq => heq ▸ hk) id⟩
    · exact ((perm_insertMember k j.canonical _).map Prod.fst).mem_iff.trans List.mem_cons

/-- The value of a key in a canonical object is the canonical value of its last member. -/
theorem lookup_canonicalMembers (key : String) : ∀ ms : List (String × Json),
    lookup key (canonicalMembers ms) = (lookup key ms).map canonical
  | [] => rfl
  | (k, j) :: ms => by
    have ih := lookup_canonicalMembers key ms
    rw [canonicalMembers, hasKey_eq]
    split_ifs with hk
    · rw [ih, lookup_cons]
      have hk : k ∈ keys (canonicalMembers ms) := by simpa using hk
      by_cases hkey : k = key
      · subst hkey
        -- the member is one that is repeated later
        cases hl : lookup k ms with
        | some i => rfl
        | none => exact absurd (mem_keys_canonicalMembers.mp hk) (lookup_eq_none.mp hl)
      · rw [if_neg hkey, Option.or_none]
    · rw [lookup_insertMember (by simpa using hk), ih, lookup_cons]
      cases lookup key ms <;> by_cases hkey : k = key <;> simp [hkey]

end Canonical

/-! ### Parts as they are written -/

/-- An object begins with the reserved key. -/
def IsEmbedded : Json → Prop
  | .object ms => embeddedIn? ms ≠ none
  | _ => False

/-- A part of a tree as it is written, and the same part of the canonical tree. -/
inductive Counterpart : Option Json → Option Json → Prop
  | none : Counterpart none none
  | some {w v : Json} (h : resolved spelled w = some v) :
      Counterpart (some w) (some v.canonical)

section Counterparts
variable {w v : Json}

theorem lookup_resolvedMembers (key : String) : ∀ {ms ns : List (String × Json)},
    resolvedMembers spelled ms = some ns →
      (lookup key ms = none ∧ lookup key ns = none) ∨
        ∃ w v, lookup key ms = some w ∧ resolved spelled w = some v ∧ lookup key ns = some v
  | [], _, h => by cases h; exact .inl ⟨rfl, rfl⟩
  | (k, j) :: ms, ns, h => by
    rw [resolvedMembers] at h
    obtain ⟨i, hi, h⟩ := Option.bind_eq_some_iff.mp h
    obtain ⟨ns, hns, rfl⟩ := Option.map_eq_some_iff.mp h
    rw [lookup_cons, lookup_cons]
    rcases lookup_resolvedMembers key hns with ⟨hms, hns⟩ | ⟨w, v, hms, hv, hns⟩
    · rw [hms, hns]
      by_cases hkey : k = key
      · exact .inr ⟨j, i, by simp [hkey], hi, by simp [hkey]⟩
      · exact .inl ⟨by simp [hkey], by simp [hkey]⟩
    · exact .inr ⟨w, v, by rw [hms]; rfl, hv, by rw [hns]; rfl⟩

/-- An object that is not opened keeps its keys. -/
theorem isSome_member?_of_resolved {ms : List (String × Json)} {key : String}
    (hms : embeddedIn? ms = none) (hkey : key ∈ keys ms)
    (hv : resolved spelled (.object ms) = some v) : (v.member? key).isSome := by
  rw [resolved, hms] at hv
  obtain ⟨ns, hns, rfl⟩ := Option.map_eq_some_iff.mp hv
  rcases lookup_resolvedMembers key hns with ⟨hnone, -⟩ | ⟨_, i, -, -, hsome⟩
  · exact absurd hkey (lookup_eq_none.mp hnone)
  · exact Option.isSome_iff_exists.mpr ⟨i, hsome⟩

/-- An object that is opened has no other key. -/
theorem eq_of_embedded {ms : List (String × Json)} (hms : embeddedIn? ms ≠ none)
    (hv : resolved spelled (.object ms) = some v) : ∃ s, ms = [(embeddedKey, .string s)] := by
  match ms, hms, hv with
  | [], hms, _ => exact absurd rfl hms
  | (key, j) :: rest, hms, hv =>
    by_cases hkey : key = embeddedKey
    · subst hkey
      rw [resolved, embeddedIn?, if_pos rfl] at hv
      cases j with
      | string s =>
        cases rest with
        | nil => exact ⟨s, rfl⟩
        | cons m rest => cases hv
      | _ => cases hv
    · rw [embeddedIn?, if_neg hkey] at hms
      exact absurd rfl hms

theorem getElem?_resolvedItems : ∀ {js is : List Json} (index : Nat),
    resolvedItems spelled js = some is →
      Counterpart js[index]? (canonicalItems is)[index]?
  | [], _, _, h => by cases h; exact .none
  | j :: js, is, index, h => by
    rw [resolvedItems] at h
    obtain ⟨i, hi, h⟩ := Option.bind_eq_some_iff.mp h
    obtain ⟨is, his, rfl⟩ := Option.map_eq_some_iff.mp h
    cases index with
    | zero => exact .some hi
    | succ index => exact getElem?_resolvedItems index his

/-- **The parts of a tree as it is written have counterparts in the canonical tree**, unless the
tree begins with the reserved key. -/
theorem counterpart_part (hw : ¬ w.IsEmbedded) (hv : resolved spelled w = some v) (index : Nat)
    (key : String) : Counterpart (part w index key) (part v.canonical index key) := by
  cases w with
  | object ms =>
    have hms : embeddedIn? ms = none := not_not.mp hw
    rw [resolved, hms] at hv
    obtain ⟨ns, hns, rfl⟩ := Option.map_eq_some_iff.mp hv
    show Counterpart (lookup key ms) (lookup key (canonicalMembers ns))
    rw [lookup_canonicalMembers]
    rcases lookup_resolvedMembers key hns with ⟨hms, hns⟩ | ⟨w, v, hms, hv, hns⟩
    · rw [hms, hns]; exact .none
    · rw [hms, hns]; exact .some hv
  | array js =>
    rw [resolved] at hv
    obtain ⟨is, his, rfl⟩ := Option.map_eq_some_iff.mp hv
    exact getElem?_resolvedItems index his
  | _ => cases hv; exact .none

theorem length_resolvedItems : ∀ {js is : List Json}, resolvedItems spelled js = some is →
    (canonicalItems is).length = js.length
  | [], _, h => by cases h; rfl
  | j :: js, is, h => by
    rw [resolvedItems] at h
    obtain ⟨i, hi, h⟩ := Option.bind_eq_some_iff.mp h
    obtain ⟨is, his, rfl⟩ := Option.map_eq_some_iff.mp h
    exact congrArg Nat.succ (length_resolvedItems his)

/-- The canonical tree has the form of a record just if the tree as it is written has it. -/
theorem isRecord_counterpart {length : Nat} (hw : ¬ w.IsEmbedded)
    (hv : resolved spelled w = some v) : IsRecord length v.canonical ↔ IsRecord length w := by
  cases w with
  | object ms =>
    have hms : embeddedIn? ms = none := not_not.mp hw
    rw [resolved, hms] at hv
    obtain ⟨ns, -, rfl⟩ := Option.map_eq_some_iff.mp hv
    exact Iff.rfl
  | array js =>
    rw [resolved] at hv
    obtain ⟨is, his, rfl⟩ := Option.map_eq_some_iff.mp hv
    show (canonicalItems is).length ≤ length ↔ js.length ≤ length
    rw [length_resolvedItems his]
  | _ => cases hv; exact Iff.rfl

end Counterparts

end Artboard.Json
