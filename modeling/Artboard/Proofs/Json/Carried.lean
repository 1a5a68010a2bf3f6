import Artboard.Proofs.Json.RoundTrip
import Artboard.Proofs.Number.Figures

/-! # Trees that carry values

* `Closed`: trees with nothing to open, in canonical form either.
* `Decoder.Carries`: a closed tree that is read from its compact text and decoded as a value.
  `carries_number`, `carries_string`, `Decoder.Carries.list`: such values.
* `Fields.Carry`: the members of a record in the order of the fields, some left out.
* `carries_record`, `carries_tagged`: records and tagged variants with such members. A tag may stand
  among the members of a record (`Decoder.CarriesWithTag`).
* `Decoder.Survives`: a value comes back from the text of its tree, straight and by the tree. -/

namespace Artboard.Json

open Number (Restored)

/-! ### Nothing to open -/

/-- There is nothing to open in a tree, nor in its canonical form. -/
def Closed (j : Json) : Prop := j.Unembedded ∧ j.canonical.Unembedded

section Closed
variable {js : List Json} {ms : List (String × Json)} {depth : Nat}

theorem legibleItems_iff : ∀ {js : List Json}, LegibleItems js depth ↔ ∀ j ∈ js, j.Legible depth
  | [] => iff_of_true trivial (List.forall_mem_nil _)
  | _ :: _ => by rw [List.forall_mem_cons, ← legibleItems_iff]; exact Iff.rfl

theorem legibleMembers_iff : ∀ {ms : List (String × Json)},
    LegibleMembers ms depth ↔ ∀ m ∈ ms, m.2.Legible depth
  | [] => iff_of_true trivial (List.forall_mem_nil _)
  | _ :: _ => by rw [List.forall_mem_cons, ← legibleMembers_iff]; exact Iff.rfl

theorem unembeddedItems_iff : ∀ {js : List Json}, UnembeddedItems js ↔ ∀ j ∈ js, j.Unembedded
  | [] => iff_of_true trivial (List.forall_mem_nil _)
  | _ :: _ => by rw [List.forall_mem_cons, ← unembeddedItems_iff]; exact Iff.rfl

theorem unembeddedMembers_iff : ∀ {ms : List (String × Json)},
    UnembeddedMembers ms ↔ ∀ m ∈ ms, m.2.Unembedded
  | [] => iff_of_true trivial (List.forall_mem_nil _)
  | _ :: _ => by rw [List.forall_mem_cons, ← unembeddedMembers_iff]; exact Iff.rfl

theorem closed_array (h : ∀ j ∈ js, j.Closed) : (Json.array js).Closed := by
  refine ⟨unembeddedItems_iff.mpr fun j hj => (h j hj).1, ?_⟩
  rw [canonical, canonicalItems_eq_map]
  refine unembeddedItems_iff.mpr fun i hi => ?_
  obtain ⟨j, hj, rfl⟩ := List.mem_map.mp hi
  exact (h j hj).2

theorem embeddedIn?_eq_none (h : embeddedKey ∉ keys ms) : embeddedIn? ms = none := by
  cases ms with
  | nil => rfl
  | cons m ms =>
    rw [embeddedIn?, if_neg]
    intro hkey
    exact h (hkey ▸ List.mem_cons_self)

theorem closed_object (hkey : embeddedKey ∉ keys ms) (h : ∀ m ∈ ms, m.2.Closed) :
    (Json.object ms).Closed := by
  refine ⟨⟨embeddedIn?_eq_none hkey, unembeddedMembers_iff.mpr fun m hm => (h m hm).1⟩, ?_⟩
  rw [canonical]
  refine ⟨embeddedIn?_eq_none (mt mem_keys_canonicalMembers.mp hkey),
    unembeddedMembers_iff.mpr fun m hm => ?_⟩
  have hlookup := lookup_of_mem (nodup_keys_canonicalMembers ms) hm
  rw [lookup_canonicalMembers] at hlookup
  obtain ⟨j, hj, hcanonical⟩ := Option.map_eq_some_iff.mp hlookup
  rw [← hcanonical]
  exact (h _ (mem_of_lookup hj)).2

end Closed

/-! ### Values -/

/-- **A tree carries a value**: it is decoded as the value, it is legible and there is nothing to
open in it. -/
structure Decoder.Carries {α : Type} (d : Decoder α) (depth : Nat) (a : α) (j : Json) : Prop where
  recovers : d.Recovers a j
  legible : j.Legible depth
  closed : j.Closed
  ne_null : j ≠ .null

section Values
variable {α : Type} {d : Decoder α} {a : α} {j : Json} {depth : Nat}

theorem canonical_eq_null : j.canonical = .null ↔ j = .null := by
  cases j <;> simp [canonical]

theorem ofFloat_of_isFinite {x : Float} (h : x.isFinite = true) : ofFloat x = .float x := if_pos h

theorem carries_string (s : String) : Decoder.string.Carries depth s (.string s) :=
  ⟨recovers_string s, trivial, ⟨trivial, trivial⟩, Json.noConfusion⟩

theorem carries_number {x : Float} (h : Restored x) :
    Decoder.number.Carries depth x (.ofFloat x) := by
  rw [ofFloat_of_isFinite h.finite]
  exact ⟨fun _ => ⟨rfl, rfl⟩, h.isScalar, ⟨trivial, trivial⟩, Json.noConfusion⟩

theorem Decoder.Carries.optional (h : d.Carries depth a j) :
    d.optional.Carries depth (some a) j :=
  { h with recovers := h.recovers.optional h.ne_null (mt canonical_eq_null.mp h.ne_null) }

end Values

/-! ### Lists -/

section Lists
variable {α : Type} {d : Decoder α} {depth : Nat}

theorem ofItems_map {decode : Json → Except Mismatch α} {toJson : α → Json} : ∀ {as : List α},
    (∀ a ∈ as, decode (toJson a) = .ok a) → Decoder.ofItems decode (as.map toJson) = .ok as
  | [], _ => rfl
  | a :: as, h => by
    obtain ⟨ha, has⟩ := List.forall_mem_cons.mp h
    rw [List.map_cons, Decoder.ofItems, ha, ofItems_map has]

/-- **A list of trees carries the list of values.** -/
theorem Decoder.Carries.list {toJson : α → Json} {as : List α}
    (h : ∀ a ∈ as, d.Carries depth a (toJson a)) :
    (Decoder.list d).Carries (depth + 1) as (.array (as.map toJson)) := by
  refine ⟨fun source => ⟨ofItems_map fun a ha => ((h a ha).recovers source).1, ?_⟩,
    ⟨Nat.succ_pos _, legibleItems_iff.mpr ?_⟩, closed_array ?_, Json.noConfusion⟩
  · rw [canonical, canonicalItems_eq_map, List.map_map]
    exact ofItems_map fun a ha => ((h a ha).recovers source).2
  · rintro j hj
    obtain ⟨a, ha, rfl⟩ := List.mem_map.mp hj
    exact (h a ha).legible
  · rintro j hj
    obtain ⟨a, ha, rfl⟩ := List.mem_map.mp hj
    exact (h a ha).closed

end Lists

/-! ### Records -/

/-- **The members of a record** in the order of the fields. A field that is left out has the value
of its absence. -/
inductive Fields.Carry (depth : Nat) : {δ : Type} → Fields δ → δ → List (String × Json) → Prop
  | nil : Fields.Carry depth .nil () []
  | member {α β : Type} {field : Field α} {rest : Fields β} {a : α} {b : β} {j : Json}
      {ms : List (String × Json)} (hrecovers : field.decoder.Recovers a j)
      (hlegible : j.Legible depth) (hclosed : j.Closed) (h : Fields.Carry depth rest b ms) :
      Fields.Carry depth (.cons field rest) (a, b) ((field.name, j) :: ms)
  | absent {α β : Type} {field : Field α} {rest : Fields β} {a : α} {b : β}
      {ms : List (String × Json)} (hfield : field.presence.inObject? = some a)
      (h : Fields.Carry depth rest b ms) : Fields.Carry depth (.cons field rest) (a, b) ms

namespace Fields

section Members
variable {α β δ : Type} {depth : Nat} {name : String} {d : Decoder α} {rest : Fields β}
  {fields : Fields δ} {values : δ} {b : β} {ms all : List (String × Json)}

theorem Carry.required {a : α} {j : Json} (ha : d.Carries depth a j) (h : rest.Carry depth b ms) :
    Carry depth (.cons (.required name d) rest) (a, b) ((name, j) :: ms) :=
  .member ha.recovers ha.legible ha.closed h

/-- A field that is `null` where its value is absent. -/
theorem Carry.ofOption {presence : Presence (Option α)} {toJson : α → Json} {o : Option α}
    (ho : ∀ a ∈ o.toList, d.Carries depth a (toJson a)) (h : rest.Carry depth b ms) :
    Carry depth (.cons ⟨name, d.optional, presence⟩ rest) (o, b)
      ((name, Json.ofOption toJson o) :: ms) := by
  cases o with
  | none => exact .member (fun _ => ⟨rfl, rfl⟩) trivial ⟨trivial, trivial⟩ h
  | some a =>
    have ha := (ho a List.mem_cons_self).optional
    exact .member ha.recovers ha.legible ha.closed h

theorem Carry.number {presence : Presence (Option Float)} {o : Option Float}
    (ho : ∀ x ∈ o.toList, Restored x) (h : rest.Carry depth b ms) :
    Carry depth (.cons ⟨name, Decoder.number.optional, presence⟩ rest) (o, b)
      ((name, Json.ofOption .ofFloat o) :: ms) :=
  .ofOption (fun x hx => carries_number (ho x hx)) h

theorem Carry.string {presence : Presence (Option String)} {o : Option String}
    (h : rest.Carry depth b ms) :
    Carry depth (.cons ⟨name, Decoder.string.optional, presence⟩ rest) (o, b)
      ((name, Json.ofOption .string o) :: ms) :=
  .ofOption (fun s _ => carries_string s) h

/-- A field that is left out where its value is absent. -/
theorem Carry.ifPresent {toJson : α → Json} {o : Option α}
    (ho : ∀ a ∈ o.toList, d.Carries depth a (toJson a)) (h : rest.Carry depth b ms) :
    Carry depth (.cons (.placed name d) rest) (o, b) (Json.ifPresent name toJson o ++ ms) := by
  cases o with
  | none => exact .absent rfl h
  | some a =>
    have ha := (ho a List.mem_cons_self).optional
    exact .member ha.recovers ha.legible ha.closed h

/-- The members are fields, in the order of their declaration. -/
theorem Carry.keys_sublist (h : fields.Carry depth values ms) : (keys ms).Sublist fields.names := by
  induction h with
  | nil => exact .slnil
  | member _ _ _ _ ih => exact ih.cons_cons _
  | absent _ _ ih => exact ih.cons _

theorem Carry.member_sound (h : fields.Carry depth values ms) :
    ∀ m ∈ ms, m.2.Legible depth ∧ m.2.Closed := by
  induction h with
  | nil => exact List.forall_mem_nil _
  | member _ hlegible hclosed _ ih => exact List.forall_mem_cons.mpr ⟨⟨hlegible, hclosed⟩, ih⟩
  | absent _ _ ih => exact ih

/-- **The fields are recovered from an object with these members**, whatever other members it
has. -/
theorem Carry.recovers (h : fields.Carry depth values ms) (hnames : fields.names.Nodup)
    (hall : (keys all).Nodup) (hmem : ∀ m ∈ ms, m ∈ all)
    (hkeys : ∀ key ∈ fields.names, key ∈ keys all → key ∈ keys ms) :
    fields.Recovers all values := by
  induction h with
  | nil => trivial
  | @member _ _ field rest _ _ j ms hrecovers _ _ _ ih =>
    obtain ⟨hname, hnames⟩ := List.nodup_cons.mp hnames
    obtain ⟨hfirst, hmem⟩ := List.forall_mem_cons.mp hmem
    refine ⟨?_, ih hnames hmem fun key hkey hin => ?_⟩
    · rw [lookup_of_mem hall hfirst]
      exact hrecovers
    · refine (List.mem_cons.mp (hkeys key (List.mem_cons_of_mem _ hkey) hin)).resolve_left ?_
      rintro rfl
      exact hname hkey
  | @absent _ _ field rest _ _ ms hfield h ih =>
    obtain ⟨hname, hnames⟩ := List.nodup_cons.mp hnames
    refine ⟨?_, ih hnames hmem fun key hkey => hkeys key (List.mem_cons_of_mem _ hkey)⟩
    have hnone : lookup field.name all = none := lookup_eq_none.mpr fun hin =>
      hname (h.keys_sublist.subset (hkeys _ List.mem_cons_self hin))
    rw [hnone]
    exact hfield

end Members

end Fields

section Objects
variable {α δ : Type} {depth : Nat} {fields : Fields δ} {build : δ → α} {values : δ}
  {ms all : List (String × Json)}

/-- An object carries a record if the fields are among its members and its other keys are not those
of fields. -/
theorem carries_among (described : String) (build : δ → α) (hnames : fields.names.Nodup)
    (h : fields.Carry depth values ms) (hall : (keys all).Nodup) (hkey : embeddedKey ∉ keys all)
    (hmem : ∀ m ∈ ms, m ∈ all) (hkeys : ∀ key ∈ fields.names, key ∈ keys all → key ∈ keys ms)
    (hvalues : ∀ m ∈ all, m.2.Legible depth ∧ m.2.Closed) :
    (Decoder.recordAs described fields build).Carries (depth + 1) (build values)
      (.object all) where
  recovers := recovers_record hnames hall (h.recovers hnames hall hmem hkeys)
  legible := ⟨Nat.succ_pos _, legibleMembers_iff.mpr fun m hm => (hvalues m hm).1⟩
  closed := closed_object hkey fun m hm => (hvalues m hm).2
  ne_null := Json.noConfusion

/-- **An object carries a record** if its members are the fields. -/
theorem carries_recordAs (described : String) (build : δ → α) (hnames : fields.names.Nodup)
    (hkey : embeddedKey ∉ fields.names) (h : fields.Carry depth values ms) :
    (Decoder.recordAs described fields build).Carries (depth + 1) (build values) (.object ms) :=
  carries_among described build hnames h (h.keys_sublist.nodup hnames)
    (fun hmem => hkey (h.keys_sublist.subset hmem)) (fun _ hm => hm) (fun _ _ hmem => hmem)
    h.member_sound

theorem carries_record {d : Decoder α} {a : α} {name : String} (hd : d = .record name fields build)
    (hnames : fields.names.Nodup) (hkey : embeddedKey ∉ fields.names)
    (h : fields.Carry depth values ms) (ha : build values = a) :
    d.Carries (depth + 1) a (.object ms) := by
  rw [hd, ← ha]
  exact carries_recordAs _ build hnames hkey h

/-- **An object carries a record**, and so it does with a tag among its members. -/
structure Decoder.CarriesWithTag (d : Decoder α) (depth : Nat) (a : α) (j : Json) : Prop where
  plain : d.Carries depth a j
  tagged : ∀ (before after : List (String × Json)) (tag : String), j = .object (before ++ after) →
    (keys (before ++ (Tagged.key, .string tag) :: after)).Nodup ∧
      d.Carries depth a (.object (before ++ (Tagged.key, .string tag) :: after))

theorem carriesWithTag_record {d : Decoder α} {a : α} {name : String}
    (hd : d = .record name fields build) (hnames : fields.names.Nodup)
    (hkey : embeddedKey ∉ fields.names) (htag : Tagged.key ∉ fields.names)
    (h : fields.Carry depth values ms) (ha : build values = a) :
    d.CarriesWithTag (depth + 1) a (.object ms) := by
  refine ⟨carries_record hd hnames hkey h ha, fun before after tag hms => ?_⟩
  cases hms
  have hsub := h.keys_sublist.subset
  have hperm : (before ++ (Tagged.key, Json.string tag) :: after).Perm
      ((Tagged.key, .string tag) :: (before ++ after)) := List.perm_middle
  have hkeys : (keys (before ++ (Tagged.key, .string tag) :: after)).Perm
      (Tagged.key :: keys (before ++ after)) := hperm.map Prod.fst
  have hall : (keys (before ++ (Tagged.key, .string tag) :: after)).Nodup :=
    hkeys.nodup_iff.mpr (List.nodup_cons.mpr
      ⟨fun hmem => htag (hsub hmem), h.keys_sublist.nodup hnames⟩)
  refine ⟨hall, ?_⟩
  rw [hd, ← ha]
  refine carries_among _ build hnames h hall (fun hmem => ?_) (fun m hm => ?_)
    (fun key hname hmem => ?_) fun m hm => ?_
  · have hne : embeddedKey ≠ Tagged.key := by decide
    exact (List.mem_cons.mp (hkeys.mem_iff.mp hmem)).elim hne fun hmem => hkey (hsub hmem)
  · exact hperm.mem_iff.mpr (List.mem_cons_of_mem _ hm)
  · refine (List.mem_cons.mp (hkeys.mem_iff.mp hmem)).resolve_left ?_
    rintro rfl
    exact htag hname
  · rcases List.mem_cons.mp (hperm.mem_iff.mp hm) with rfl | hm
    · exact ⟨trivial, trivial, trivial⟩
    · exact h.member_sound m hm

/-- **An object carries a tagged variant** if its members are the tag and those of the variant. -/
theorem carries_tagged {name : String} {variants : List (Variant α)} {v : Variant α} {a : α}
    (hv : variants.find? (fun w => w.tag = v.tag) = some v) (hms : Tagged.key ∉ keys ms)
    (hkey : embeddedKey ∉ keys ms) (hrest : v.ofRest (.object ms) = .ok a)
    (hcanonical : v.ofRest (.object (canonicalMembers ms)) = .ok a)
    (hvalues : ∀ m ∈ ms, m.2.Legible depth ∧ m.2.Closed) :
    (Decoder.tagged name variants).Carries (depth + 1) a
      (.object ((Tagged.key, .string v.tag) :: ms)) := by
  refine ⟨recovers_tagged hv hms hrest hcanonical,
    ⟨Nat.succ_pos _, trivial, legibleMembers_iff.mpr fun m hm => (hvalues m hm).1⟩,
    closed_object (fun hmem => ?_) ?_, Json.noConfusion⟩
  · have hne : embeddedKey ≠ Tagged.key := by decide
    exact (List.mem_cons.mp hmem).elim hne hkey
  · exact List.forall_mem_cons.mpr ⟨⟨trivial, trivial⟩, fun m hm => (hvalues m hm).2⟩

end Objects

/-! ### Whole texts -/

/-- **A value survives**: it is decoded straight from the text of its tree, the text is read as the
tree, and the value is decoded from the tree. -/
structure Decoder.Survives {α : Type} (d : Decoder α) (a : α) (j : Json) : Prop where
  text : d.parse (Text.ofString j.compact) = .ok a
  tree : Json.parse (Text.ofString j.compact) = .ok j
  value : d.ofTree j = .ok a

theorem Decoder.Carries.survives {α : Type} {d : Decoder α} {a : α} {j : Json}
    (h : d.Carries depthLimit a j) (hd : d.Faithful) : d.Survives a j where
  text := (h.recovers.routes hd h.legible h.closed.1).1
  tree := parse_compact h.legible h.closed.1
  value := (h.recovers .value).2

end Artboard.Json
