import Artboard.Json.Record
import Artboard.Proofs.Json.Canonical

/-! # What a record decoder accepts

A record is refused for the first of its parts that its field refuses: an object in the order of its
members, an array in the order of its items, and then for items that are left over.

* `Verdict`: a result is a certain mismatch, or something with a property.
* `part`, `IsRecord`: the parts of a record in an object or an array.
* `recordComplaint`: the mismatch with a record, from what each of its fields refuses.
* `verdict_record`: the decoder of a record gives that mismatch, or what its fields give.
* `recordComplaint_eq_none`: there is none just if all parts fit. -/

namespace Artboard.Json

/-- The result is the complaint, if there is one, and otherwise something with a property. -/
def Verdict {α : Type} (complaint : Option Mismatch) (P : α → Prop) : Except Mismatch α → Prop
  | .error m => complaint = some m
  | .ok a => complaint = none ∧ P a

namespace Verdict

variable {α β : Type} {c c' : Option Mismatch} {P : α → Prop} {Q : β → Prop}
  {r : Except Mismatch α}

theorem imp {P' : α → Prop} (h : Verdict c P r) (hP : ∀ a, P a → P' a) : Verdict c P' r := by
  cases r with
  | error m => exact h
  | ok a => exact ⟨h.1, hP a h.2⟩

theorem map {f : α → β} (h : Verdict c P r) (hf : ∀ a, P a → Q (f a)) : Verdict c Q (r.map f) := by
  cases r with
  | error m => exact h
  | ok a => exact ⟨h.1, hf a h.2⟩

theorem ok_iff (h : Verdict c P r) : (∃ a, r = .ok a) ↔ c = none := by
  cases r with
  | error m => rw [show c = some m from h]; simp
  | ok a => rw [h.1]; simp

theorem of_ok {a : α} (h : Verdict c P r) (ha : r = .ok a) : P a := by
  rw [ha] at h; exact h.2

theorem error_iff {m : Mismatch} (h : Verdict c P r) : r = .error m ↔ c = some m := by
  cases r with
  | error m' => rw [show c = some m' from h]; simp
  | ok a => rw [h.1]; simp

/-- If the first result is no mismatch the second decides. -/
theorem bind {f : α → Except Mismatch β} (h : Verdict c P r) (hf : ∀ a, P a → Verdict c' Q (f a)) :
    Verdict (c.or c') Q (r.bind f) := by
  cases r with
  | error m =>
    obtain rfl : c = some m := h
    rfl
  | ok a =>
    obtain ⟨rfl, ha⟩ := h
    exact hf a ha

end Verdict

/-- What a decoder complains of in a tree. -/
def Decoder.complaint {α : Type} (d : Decoder α) (j : Json) : Option Mismatch :=
  match d.ofJson .value j with
  | .error m => some m
  | .ok _ => none

section Complaint
variable {α : Type} {d : Decoder α} {j : Json} {c : Option Mismatch} {P : α → Prop}

theorem verdict_complaint (d : Decoder α) (j : Json) :
    Verdict (d.complaint j) (fun a => d.ofJson .value j = .ok a) (d.ofJson .value j) := by
  unfold Decoder.complaint
  cases d.ofJson .value j with
  | error m => rfl
  | ok a => exact ⟨rfl, rfl⟩

theorem Verdict.complaint_eq (h : Verdict c P (d.ofJson .value j)) : d.complaint j = c := by
  unfold Decoder.complaint
  cases hj : d.ofJson .value j with
  | error m => rw [hj] at h; exact h.symm
  | ok a => rw [hj] at h; exact h.1.symm

end Complaint

theorem findSome?_cons_or {α β : Type} (f : α → Option β) (a : α) (as : List α) :
    (a :: as).findSome? f = (f a).or (as.findSome? f) := by
  rw [List.findSome?_cons]
  cases f a <;> rfl

/-! ### Parts of a record -/

/-- The part of a record that has a key in an object, or an index in an array. -/
def part (j : Json) (index : Nat) (key : String) : Option Json :=
  match j with
  | .object ms => lookup key ms
  | .array js => js[index]?
  | _ => none

/-- A tree is an object, or an array with at most so many items. -/
def IsRecord (length : Nat) : Json → Prop
  | .object _ => True
  | .array js => js.length ≤ length
  | _ => False

theorem isPart_of_part {j x : Json} {index : Nat} {key : String}
    (h : part j index key = some x) : IsPart x j := by
  cases j with
  | object ms => exact ⟨key, mem_of_lookup h⟩
  | array js => exact List.mem_of_getElem? h
  | _ => cases h

/-- A name and what is complained of in a value under it. -/
abbrev Rule : Type := String × (Json → Option Mismatch)

/-- The complaint of the first member, in their order, whose key is known. -/
def memberComplaint (rules : List Rule) (ms : List (String × Json)) : Option Mismatch :=
  ms.findSome? fun m => (rules.lookup m.1).bind fun check => check m.2

/-- The complaint of the first item. -/
def itemComplaint (rules : List Rule) (js : List Json) : Option Mismatch :=
  (rules.zip js).findSome? fun p => p.1.2 p.2

/-- The complaint of a record that is described so. -/
def recordComplaint (described : String) (rules : List Rule) : Json → Option Mismatch
  | .object ms => memberComplaint rules ms
  | .array js => (itemComplaint rules js).or
      (if js.length ≤ rules.length then none
      else some (.invalidLength js.length "fewer elements in array"))
  | j => some (.unexpected described j)

/-- All parts of a record from some index on fit. -/
def PartsFit (parts : Nat → String → Option Json) : Nat → List Rule → Prop
  | _, [] => True
  | index, (name, check) :: rules =>
    (∀ x, parts index name = some x → check x = none) ∧ PartsFit parts (index + 1) rules

/-! ### Fields -/

/-- What a field is when its part of a record is this. -/
def Field.Gives {α : Type} (field : Field α) : Option Json → α → Prop
  | none, a => field.presence = .default a
  | some j, a => field.decoder.ofJson .value j = .ok a

namespace Fields

/-- What the fields complain of. -/
def rules : {δ : Type} → Fields δ → List Rule
  | _, .nil => []
  | _, .cons field rest => (field.name, field.decoder.complaint) :: rest.rules

/-- Each field may be absent. -/
def Lenient : {δ : Type} → Fields δ → Prop
  | _, .nil => True
  | _, .cons field rest => (∃ a, field.presence = .default a) ∧ rest.Lenient

/-- What the fields are when the parts of a record are these, from some index on. -/
def Gives (parts : Nat → String → Option Json) : {δ : Type} → Nat → Fields δ → δ → Prop
  | _, _, .nil, _ => True
  | _, index, .cons field rest, values =>
    field.Gives (parts index field.name) values.1 ∧ rest.Gives parts (index + 1) values.2

/-- A draft has what the fields give for the members so far. -/
def Holds (ms : List (String × Json)) : {δ : Type} → (fields : Fields δ) → fields.Draft → Prop
  | _, .nil, _ => True
  | _, .cons field rest, draft =>
    (match lookup field.name ms with
      | none => draft.first = none
      | some j => ∃ a, draft.first = some a ∧ field.decoder.ofJson .value j = .ok a) ∧
    rest.Holds ms draft.others

theorem length_rules : ∀ {δ : Type} (fields : Fields δ), fields.rules.length = fields.length
  | _, .nil => rfl
  | _, .cons _ rest => congrArg Nat.succ (length_rules rest)

theorem holds_blank : ∀ {δ : Type} (fields : Fields δ), fields.Holds [] fields.blank
  | _, .nil => trivial
  | _, .cons _ rest => ⟨rfl, holds_blank rest⟩

section Members
variable {δ : Type} {ms : List (String × Json)} {key : String} {j : Json}

theorem holds_concat : ∀ {δ : Type} {fields : Fields δ} {draft : fields.Draft},
    fields.Holds ms draft → key ∉ fields.rules.map Prod.fst → fields.Holds (ms ++ [(key, j)]) draft
  | _, .nil, _, _, _ => trivial
  | _, .cons field rest, draft, h, hkey => by
    obtain ⟨hne, hrest⟩ := not_or.mp fun hmem => hkey (List.mem_cons.mpr hmem)
    refine ⟨?_, holds_concat h.2 hrest⟩
    rw [lookup_concat, if_neg hne]; exact h.1

/-- **The next member** goes to the field of its name, if there is one, and is decoded there. -/
theorem verdict_ofMember : ∀ {δ : Type} {fields : Fields δ} {draft : fields.Draft},
    (fields.rules.map Prod.fst).Nodup → fields.Holds ms draft → key ∉ keys ms →
      Verdict ((fields.rules.lookup key).bind fun check => check j)
        (fields.Holds (ms ++ [(key, j)])) (fields.ofMember .value draft (key, j))
  | _, .nil, _, _, _, _ => ⟨rfl, trivial⟩
  | _, .cons field rest, draft, hnames, h, hkey => by
    obtain ⟨hname, hnames⟩ := List.nodup_cons.mp hnames
    obtain ⟨hfirst, hrest⟩ := h
    by_cases heq : key = field.name
    · -- the field has no value yet
      subst heq
      rw [lookup_eq_none.mpr hkey] at hfirst
      have hmember : (Fields.cons field rest).ofMember .value draft (field.name, j) =
          (field.decoder.ofJson .value j).map fun a => Draft.join field (some a) draft.others := by
        simp only [ofMember, slot, if_pos, hfirst]; rfl
      rw [hmember]
      have hlookup : (Fields.cons field rest).rules.lookup field.name =
          some field.decoder.complaint := List.lookup_cons_self
      rw [hlookup]
      refine (verdict_complaint field.decoder j).map fun a ha => ⟨?_, holds_concat hrest hname⟩
      rw [lookup_concat, if_pos rfl]
      exact ⟨a, rfl, ha⟩
    · have hmember : (Fields.cons field rest).ofMember .value draft (key, j) =
          (rest.ofMember .value draft.others (key, j)).map (Draft.join field draft.first) := by
        simp only [ofMember, slot, if_neg heq]
        cases rest.slot key draft.others <;> rfl
      rw [hmember]
      have hlookup : (Fields.cons field rest).rules.lookup key = rest.rules.lookup key := by
        rw [rules, List.lookup_cons, beq_eq_false_iff_ne.mpr heq]
      rw [hlookup]
      refine (verdict_ofMember hnames hrest hkey).map fun others hothers => ⟨?_, hothers⟩
      rw [lookup_concat, if_neg heq]; exact hfirst

/-- **Members in their order**: the first complaint, or a draft with all of them. -/
theorem verdict_foldlM {fields : Fields δ} (hnames : (fields.rules.map Prod.fst).Nodup) :
    ∀ {ms done : List (String × Json)} {draft : fields.Draft}, fields.Holds done draft →
      (keys (done ++ ms)).Nodup → Verdict (memberComplaint fields.rules ms)
        (fields.Holds (done ++ ms)) (ms.foldlM (fields.ofMember .value) draft)
  | [], done, draft, h, _ => ⟨rfl, by rw [List.append_nil]; exact h⟩
  | (key, j) :: ms, done, draft, h, hkeys => by
    have hsplit : done ++ (key, j) :: ms = done ++ [(key, j)] ++ ms := by simp
    have hkey : key ∉ keys done := by
      rw [keys, List.map_append, List.map_cons, List.nodup_middle, List.nodup_cons] at hkeys
      exact fun hmem => hkeys.1 (List.mem_append_left _ hmem)
    rw [hsplit] at hkeys ⊢
    have hcomplaint : memberComplaint fields.rules ((key, j) :: ms) =
        ((fields.rules.lookup key).bind fun check => check j).or
          (memberComplaint fields.rules ms) := by
      rw [memberComplaint, findSome?_cons_or]; rfl
    rw [hcomplaint, List.foldlM_cons]
    exact (verdict_ofMember hnames h hkey).bind fun draft' h' => verdict_foldlM hnames h' hkeys

/-- What the fields give is in a draft with all members. -/
theorem finish_eq_ok : ∀ {δ : Type} {fields : Fields δ} {draft : fields.Draft} (index : Nat),
    fields.Lenient → fields.Holds ms draft →
      ∃ values, fields.finish draft = .ok values ∧
        fields.Gives (part (.object ms)) index values
  | _, .nil, _, _, _, _ => ⟨(), rfl, trivial⟩
  | _, .cons field rest, draft, index, hlenient, h => by
    obtain ⟨⟨a, ha⟩, hlenient⟩ := hlenient
    obtain ⟨hfirst, hrest⟩ := h
    obtain ⟨values, hvalues, hgives⟩ := finish_eq_ok (index + 1) hlenient hrest
    cases hl : lookup field.name ms with
    | none =>
      rw [hl] at hfirst
      refine ⟨(a, values), ?_, ?_, hgives⟩
      · rw [finish, hfirst, ha, hvalues]; rfl
      · rw [part, hl]; exact ha
    | some j =>
      rw [hl] at hfirst
      obtain ⟨b, hb, hj⟩ := hfirst
      refine ⟨(b, values), ?_, ?_, hgives⟩
      · rw [finish, hb, hvalues]; rfl
      · rw [part, hl]; exact hj

/-- **An object**: the first complaint of a member, or what the fields give. -/
theorem verdict_ofMembers {fields : Fields δ} (hnames : (fields.rules.map Prod.fst).Nodup)
    (hlenient : fields.Lenient) (hkeys : (keys ms).Nodup) :
    Verdict (memberComplaint fields.rules ms) (fields.Gives (part (.object ms)) 0)
      (fields.ofMembers .value ms) := by
  have hfold : Verdict (memberComplaint fields.rules ms) (fields.Holds ms)
      (ms.foldlM (fields.ofMember .value) fields.blank) :=
    verdict_foldlM hnames (holds_blank fields) hkeys
  unfold ofMembers
  cases hdraft : ms.foldlM (fields.ofMember .value) fields.blank with
  | error m => rw [hdraft] at hfold; exact hfold
  | ok draft =>
    rw [hdraft] at hfold
    obtain ⟨values, hvalues, hgives⟩ := finish_eq_ok 0 hlenient hfold.2
    show Verdict _ _ (fields.finish draft)
    rw [hvalues]
    exact ⟨hfold.1, hgives⟩

end Members

section Items

theorem pastArray_eq_ok {expected : String} : ∀ {δ : Type} {fields : Fields δ} (index : Nat)
    {parts : Nat → String → Option Json}, fields.Lenient →
      (∀ i key, parts (index + i) key = none) →
        ∃ values, fields.pastArray index expected = .ok values ∧ fields.Gives parts index values
  | _, .nil, _, _, _, _ => ⟨(), rfl, trivial⟩
  | _, .cons field rest, index, parts, hlenient, hparts => by
    obtain ⟨⟨a, ha⟩, hlenient⟩ := hlenient
    have hrest : ∀ i key, parts (index + 1 + i) key = none := fun i key => by
      rw [Nat.add_assoc]; exact hparts _ key
    obtain ⟨values, hvalues, hgives⟩ := pastArray_eq_ok (index + 1) hlenient hrest
    have hfirst := hparts 0 field.name
    rw [Nat.add_zero] at hfirst
    refine ⟨(a, values), ?_, ?_, hgives⟩
    · rw [pastArray, ha, hvalues]; rfl
    · rw [hfirst]; exact ha

/-- **An array**: the first complaint of an item, or what the fields give and the items that are
left over. -/
theorem verdict_ofItems {expected : String} : ∀ {δ : Type} {fields : Fields δ} {js : List Json}
    (index : Nat) {parts : Nat → String → Option Json}, fields.Lenient →
      (∀ i key, parts (index + i) key = js[i]?) →
        Verdict (itemComplaint fields.rules js)
          (fun r => fields.Gives parts index r.1 ∧ r.2 = js.drop fields.length)
          (fields.ofItems .value expected index js)
  | _, .nil, js, _, _, _, _ => ⟨rfl, trivial, rfl⟩
  | _, .cons field rest, [], index, parts, hlenient, hparts => by
    obtain ⟨values, hvalues, hgives⟩ : ∃ values,
        (Fields.cons field rest).pastArray index expected = .ok values ∧
          (Fields.cons field rest).Gives parts index values :=
      pastArray_eq_ok index hlenient fun i key => by rw [hparts]; rfl
    rw [ofItems, hvalues]
    exact ⟨rfl, hgives, by rw [List.drop_nil]⟩
  | _, .cons field rest, j :: js, index, parts, hlenient, hparts => by
    have hcomplaint : itemComplaint (Fields.cons field rest).rules (j :: js) =
        (field.decoder.complaint j).or (itemComplaint rest.rules js) := by
      rw [itemComplaint, rules, List.zip_cons_cons, findSome?_cons_or]; rfl
    have hitems : (Fields.cons field rest).ofItems .value expected index (j :: js) =
        (field.decoder.ofJson .value j).bind fun a =>
          (rest.ofItems .value expected (index + 1) js).map fun r => ((a, r.1), r.2) := by
      rw [ofItems]
      cases field.decoder.ofJson .value j <;> rfl
    have hrest : ∀ i key, parts (index + 1 + i) key = js[i]? := fun i key => by
      rw [Nat.add_assoc, Nat.add_comm 1 i]; exact hparts (i + 1) key
    have hfirst := hparts 0 field.name
    rw [Nat.add_zero] at hfirst
    rw [hcomplaint, hitems]
    refine (verdict_complaint field.decoder j).bind fun a ha => ?_
    refine (verdict_ofItems (index + 1) hlenient.2 hrest).map fun r hr => ⟨⟨?_, hr.1⟩, hr.2⟩
    rw [hfirst]; exact ha

end Items

end Fields

/-! ### Records -/

/-- **A record** is refused for its first complaint, or is what its fields give. -/
theorem verdict_record {α δ : Type} {described : String} {fields : Fields δ} {build : δ → α}
    {j : Json} (hnames : (fields.rules.map Prod.fst).Nodup) (hlenient : fields.Lenient)
    (hj : j.Distinct) :
    Verdict (recordComplaint described fields.rules j)
      (fun a => IsRecord fields.length j ∧ ∃ values, fields.Gives (part j) 0 values ∧
        a = build values)
      ((Decoder.recordAs described fields build).ofJson .value j) := by
  cases j with
  | object ms =>
    exact (Fields.verdict_ofMembers hnames hlenient hj).map fun values h =>
      ⟨trivial, values, h, rfl⟩
  | array js =>
    have hitems : Verdict (itemComplaint fields.rules js)
        (fun r => fields.Gives (part (.array js)) 0 r.1 ∧ r.2 = js.drop fields.length)
        (fields.ofItems .value (completeArray described fields.length) 0 js) :=
      Fields.verdict_ofItems 0 hlenient fun i key => by rw [Nat.zero_add]; rfl
    simp only [Decoder.recordAs, recordComplaint, Fields.length_rules]
    rcases hr : fields.ofItems .value (completeArray described fields.length) 0 js with
      m | ⟨values, left⟩ <;> rw [hr] at hitems
    · have hm : itemComplaint fields.rules js = some m := hitems
      rw [hm]; rfl
    · obtain ⟨hnone, hgives, hleft⟩ := hitems
      have hleft : left = js.drop fields.length := hleft
      rw [hnone, Option.none_or]
      rcases left with _ | ⟨x, left⟩
      · -- no item is left over just if there are not too many
        have hle : js.length ≤ fields.length := List.drop_eq_nil_iff.mp hleft.symm
        rw [if_pos hle]
        exact ⟨rfl, hle, values, hgives, rfl⟩
      · have hlt : ¬ js.length ≤ fields.length := fun hle => by
          rw [List.drop_eq_nil_iff.mpr hle] at hleft; cases hleft
        rw [if_neg hlt]; rfl
  | _ => rfl

/-! ### Complaints -/

section Complaints
variable {rules rules' : List Rule} {described : String} {j : Json}

theorem lookup_rules_eq_none {key : String} (h : key ∉ rules.map Prod.fst) :
    rules.lookup key = none := by
  rw [List.lookup_eq_none_iff]
  exact fun r hr => bne_iff_ne.mpr fun heq => h (heq ▸ List.mem_map_of_mem hr)

/-- Nothing is complained of in members just if each known key has a value that fits. -/
theorem memberComplaint_eq_none {ms : List (String × Json)} (hms : (keys ms).Nodup) :
    ∀ {rules : List Rule} (index : Nat), (rules.map Prod.fst).Nodup →
      (memberComplaint rules ms = none ↔ PartsFit (part (.object ms)) index rules)
  | [], _, _ => by simp [memberComplaint, PartsFit]
  | (name, check) :: rules, index, hnames => by
    obtain ⟨hname, hnames⟩ := List.nodup_cons.mp hnames
    rw [PartsFit, ← memberComplaint_eq_none hms (index + 1) hnames, memberComplaint,
      memberComplaint, List.findSome?_eq_none_iff, List.findSome?_eq_none_iff]
    have hself : List.lookup name ((name, check) :: rules) = some check := List.lookup_cons_self
    have hother : ∀ key, key ≠ name →
        List.lookup key ((name, check) :: rules) = rules.lookup key := fun key hkey => by
      rw [List.lookup_cons, beq_eq_false_iff_ne.mpr hkey]
    constructor
    · intro h
      refine ⟨fun x hx => ?_, fun m hm => ?_⟩
      · have hm := h (name, x) (mem_of_lookup hx)
        rw [hself] at hm; exact hm
      · by_cases hkey : m.1 = name
        · rw [hkey, lookup_rules_eq_none hname]; rfl
        · rw [← hother m.1 hkey]; exact h m hm
    · rintro ⟨hcheck, h⟩ ⟨key, x⟩ hm
      by_cases hkey : key = name
      · subst hkey
        rw [hself]
        exact hcheck x (lookup_of_mem hms hm)
      · rw [hother key hkey]; exact h _ hm

/-- Nothing is complained of in items just if each has a value that fits its place. -/
theorem itemComplaint_eq_none {parts : Nat → String → Option Json} : ∀ {rules : List Rule}
    {js : List Json} (index : Nat), (∀ i key, parts (index + i) key = js[i]?) →
      (itemComplaint rules js = none ↔ PartsFit parts index rules)
  | [], _, _, _ => by simp [itemComplaint, PartsFit]
  | (name, check) :: rules, [], index, hparts => by
    have hrest : ∀ i key, parts (index + 1 + i) key = ([] : List Json)[i]? := fun i key => by
      rw [Nat.add_assoc]; exact hparts _ key
    have hfirst := hparts 0 name
    rw [Nat.add_zero] at hfirst
    have hfits : PartsFit parts (index + 1) rules :=
      (itemComplaint_eq_none (index + 1) hrest).mp (by rw [itemComplaint, List.zip_nil_right]; rfl)
    refine ⟨fun _ => ⟨fun x hx => ?_, hfits⟩, fun _ => rfl⟩
    rw [hfirst] at hx; cases hx
  | (name, check) :: rules, j :: js, index, hparts => by
    have hrest : ∀ i key, parts (index + 1 + i) key = js[i]? := fun i key => by
      rw [Nat.add_assoc, Nat.add_comm 1 i]; exact hparts (i + 1) key
    have hfirst := hparts 0 name
    rw [Nat.add_zero] at hfirst
    have hcomplaint : itemComplaint ((name, check) :: rules) (j :: js) =
        (check j).or (itemComplaint rules js) := by
      rw [itemComplaint, List.zip_cons_cons, findSome?_cons_or]; rfl
    rw [hcomplaint, Option.or_eq_none_iff, itemComplaint_eq_none (index + 1) hrest, PartsFit,
      hfirst]
    simp

/-- **Nothing is complained of in a record just if it has the form of one and all parts fit.** -/
theorem recordComplaint_eq_none (hnames : (rules.map Prod.fst).Nodup) (hj : j.Distinct) :
    recordComplaint described rules j = none ↔
      IsRecord rules.length j ∧ PartsFit (part j) 0 rules := by
  cases j with
  | object ms =>
    rw [recordComplaint, memberComplaint_eq_none hj 0 hnames]
    exact (and_iff_right trivial).symm
  | array js =>
    have hitems : itemComplaint rules js = none ↔ PartsFit (part (.array js)) 0 rules :=
      itemComplaint_eq_none 0 fun i key => by rw [Nat.zero_add]; rfl
    rw [recordComplaint, Option.or_eq_none_iff, hitems, and_comm]
    refine and_congr_left fun _ => ?_
    show (if js.length ≤ rules.length then _ else _) = none ↔ js.length ≤ rules.length
    split_ifs with h <;> simp [h]
  | _ => simp [recordComplaint, IsRecord]

/-- Rules with the same names that agree on some trees. -/
def Agree (D : Json → Prop) (rules rules' : List Rule) : Prop :=
  List.Forall₂ (fun r r' => r.1 = r'.1 ∧ ∀ x, D x → r.2 x = r'.2 x) rules rules'

variable {D : Json → Prop}

theorem memberComplaint_congr (h : Agree D rules rules') : ∀ {ms : List (String × Json)},
    (∀ m ∈ ms, D m.2) → memberComplaint rules ms = memberComplaint rules' ms
  | [], _ => rfl
  | m :: ms, hms => by
    obtain ⟨hm, hms⟩ := List.forall_mem_cons.mp hms
    have hlookup : ((rules.lookup m.1).bind fun check => check m.2) =
        (rules'.lookup m.1).bind fun check => check m.2 := by
      induction h with
      | nil => rfl
      | @cons r r' rules rules' hr _ ih =>
        rw [List.lookup_cons, List.lookup_cons, ← hr.1]
        cases m.1 == r.1 with
        | true => exact hr.2 m.2 hm
        | false => exact ih
    rw [memberComplaint, memberComplaint, findSome?_cons_or, findSome?_cons_or, hlookup,
      ← memberComplaint, ← memberComplaint, memberComplaint_congr h hms]

theorem itemComplaint_congr : ∀ {rules rules' : List Rule} {js : List Json},
    Agree D rules rules' → (∀ x ∈ js, D x) → itemComplaint rules js = itemComplaint rules' js
  | _, _, _, .nil, _ => rfl
  | _, _, [], .cons _ _, _ => rfl
  | _, _, x :: js, .cons hr h, hjs => by
    obtain ⟨hx, hjs⟩ := List.forall_mem_cons.mp hjs
    rw [itemComplaint, itemComplaint, List.zip_cons_cons, List.zip_cons_cons, findSome?_cons_or,
      findSome?_cons_or, ← itemComplaint, ← itemComplaint, itemComplaint_congr h hjs, hr.2 x hx]

/-- Rules that agree on the parts of a record complain of the same. -/
theorem recordComplaint_congr (h : Agree D rules rules') (hj : ∀ x, IsPart x j → D x) :
    recordComplaint described rules j = recordComplaint described rules' j := by
  cases j with
  | object ms => exact memberComplaint_congr h fun m hm => hj m.2 ⟨m.1, hm⟩
  | array js =>
    rw [recordComplaint, recordComplaint, itemComplaint_congr h hj, h.length_eq]
  | _ => rfl

end Complaints

end Artboard.Json
