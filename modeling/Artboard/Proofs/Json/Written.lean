import Artboard.Proofs.Json.Tokens

/-! # Texts as they are written

`written` reads a text as it is written, and is the measure for all other readers: where it reads a
tree, each of them ends at the same place or is refused, and what it gives depends on the tree only.

* `itemsFrom_cases`, `membersFrom_cases`: the entries of a list and of an object, one at a time.
* `Written`: the values of a text, by their first glyph. `Written.append`: they do not depend on
  what follows, nor on how many more brackets are allowed.
* `toOption_itemsFrom`, `toOption_membersFrom`: any other readers of the same entries.
* `Written.skip`: what is read as it is written can be passed over. -/

namespace Artboard.Json

theorem toOption_eq_some {ε α : Type} {r : Except ε α} {a : α} :
    r.toOption = some a ↔ r = .ok a := by
  cases r <;> simp [Except.toOption]

/-! ### Entries one at a time -/

section Items
variable {α : Type} {pass : Pass} {item : Reader α} {steps index : Nat} {text t rest : Text}
  {as : List α}

theorem itemsFrom_of_close (h : NextItem (index = 0) text .close rest) :
    itemsFrom pass item (steps + 1) index text = .ok ([], rest) := by
  rw [itemsFrom, nextItem_eq_ok.mpr h]

theorem toOption_itemsFrom_of_entry (h : NextItem (index = 0) text .entry t) :
    (itemsFrom pass item (steps + 1) index text).toOption =
      (item t).toOption.bind fun (a, u) =>
        (itemsFrom pass item steps (index + 1) u).toOption.map
          fun (as, rest) => (a :: as, rest) := by
  rw [itemsFrom, nextItem_eq_ok.mpr h]
  dsimp only
  cases item t with
  | error f => rfl
  | ok r =>
    obtain ⟨a, u⟩ := r
    dsimp only
    show _ = (itemsFrom pass item steps (index + 1) u).toOption.map _
    cases itemsFrom pass item steps (index + 1) u <;> rfl

/-- A list ends, or goes on with an item. -/
theorem itemsFrom_cases (h : itemsFrom pass item (steps + 1) index text = .ok (as, rest)) :
    (NextItem (index = 0) text .close rest ∧ as = []) ∨
      ∃ t a u as', NextItem (index = 0) text .entry t ∧ item t = .ok (a, u) ∧
        itemsFrom pass item steps (index + 1) u = .ok (as', rest) ∧ as = a :: as' := by
  rw [itemsFrom] at h
  split at h
  · cases h
  · rename_i hnext
    cases h
    exact .inl ⟨nextItem_eq_ok.mp hnext, rfl⟩
  · rename_i t hnext
    cases ha : item t with
    | error f => rw [ha] at h; cases h
    | ok r =>
      obtain ⟨a, u⟩ := r
      simp only [ha] at h
      cases has : itemsFrom pass item steps (index + 1) u with
      | error f => rw [has] at h; cases h
      | ok r =>
        rw [has] at h
        cases h
        exact .inr ⟨t, a, u, r.1, nextItem_eq_ok.mp hnext, ha, has, rfl⟩

end Items

section Members
variable {κ σ : Type} {pass : Pass} {key : Reader κ} {step : κ → Step}
  {value : κ → σ → Except Mismatch (Reader σ)} {steps : Nat} {first : Bool} {state : σ}
  {text t u u' rest : Text} {k : κ}

theorem membersFrom_of_close (h : NextMember first text .close rest) :
    membersFrom pass key step value (steps + 1) first state text = .ok (state, rest) := by
  rw [membersFrom, nextMember_eq_ok.mpr h]

theorem toOption_membersFrom_of_entry (h : NextMember first text .entry t)
    (hkey : key t = .ok (k, u)) (hcolon : colon u = .ok u') :
    (membersFrom pass key step value (steps + 1) first state text).toOption =
      (value k state).toOption.bind fun reader => (reader u').toOption.bind fun (state, rest) =>
        (membersFrom pass key step value steps false state rest).toOption := by
  rw [membersFrom, nextMember_eq_ok.mpr h]
  simp only [hkey]
  cases value k state with
  | error m => rfl
  | ok reader =>
    simp only [hcolon]
    show _ = (reader u').toOption.bind _
    cases reader u' <;> rfl

/-- The reader of an object's members as they are written. -/
def keepMember (value : Reader Json) (key : String) (done : List (String × Json)) :
    Except Mismatch (Reader (List (String × Json))) :=
  .ok fun text => (value text).map fun (j, rest) => ((key, j) :: done, rest)

variable {base : Reader Json} {done all : List (String × Json)}

/-- An object goes on with a member that is known but for its value. -/
theorem membersFrom_of_entry {name : String} (hnext : NextMember first text .entry t)
    (hkey : stringBody t = .ok (name, u)) (hcolon : colon u = .ok u')
    (h : membersFrom .keep stringBody .key (keepMember base) (steps + 1) first done text =
      .ok (all, rest)) :
    ∃ j u'', base u' = .ok (j, u'') ∧
      membersFrom .keep stringBody .key (keepMember base) steps false ((name, j) :: done) u'' =
        .ok (all, rest) := by
  rw [membersFrom, nextMember_eq_ok.mpr hnext] at h
  simp only [hkey, hcolon, keepMember] at h
  cases hj : base u' with
  | error f => rw [hj] at h; cases h
  | ok r => rw [hj] at h; exact ⟨r.1, r.2, rfl, h⟩

/-- An object ends, or goes on with a member. -/
theorem membersFrom_cases
    (h : membersFrom .keep stringBody .key (keepMember base) (steps + 1) first done text =
      .ok (all, rest)) :
    (NextMember first text .close rest ∧ all = done) ∨
      ∃ t name u u' j u'', NextMember first text .entry t ∧ stringBody t = .ok (name, u) ∧
        colon u = .ok u' ∧ base u' = .ok (j, u'') ∧
          membersFrom .keep stringBody .key (keepMember base) steps false ((name, j) :: done) u'' =
            .ok (all, rest) := by
  rw [membersFrom] at h
  split at h
  · cases h
  · rename_i hnext
    cases h
    exact .inl ⟨nextMember_eq_ok.mp hnext, rfl⟩
  · rename_i t hnext
    cases hname : stringBody t with
    | error f => rw [hname] at h; cases h
    | ok r =>
      obtain ⟨name, u⟩ := r
      simp only [hname, keepMember] at h
      cases hcolon : colon u with
      | error f => rw [hcolon] at h; cases h
      | ok u' =>
        simp only [hcolon] at h
        cases hj : base u' with
        | error f => rw [hj] at h; cases h
        | ok r =>
          rw [hj] at h
          exact .inr ⟨t, name, u, u', r.1, r.2, nextMember_eq_ok.mp hnext, hname, hcolon, hj, h⟩

/-- What was read of an object stays. -/
theorem exists_of_membersFrom : ∀ {steps : Nat} {first : Bool} {done all : List (String × Json)}
    {text rest : Text},
    membersFrom .keep stringBody .key (keepMember base) steps first done text = .ok (all, rest) →
      ∃ ms : List (String × Json), all = ms.reverse ++ done
  | 0, _, _, _, _, _, h => by cases h
  | steps + 1, first, done, all, text, rest, h => by
    rcases membersFrom_cases h with ⟨-, rfl⟩ | ⟨_, name, _, _, j, _, -, -, -, -, hmore⟩
    · exact ⟨[], rfl⟩
    · obtain ⟨ms, rfl⟩ := exists_of_membersFrom hmore
      exact ⟨(name, j) :: ms, by simp⟩

end Members

/-! ### Values by their first glyph -/

/-- A value at the front of a text, with at most so many brackets inside one another. -/
inductive Written : Nat → Text → Json → Text → Prop
  | scalar {depth : Nat} {text rest : Text} {j : Json} (h : IsScalar text.skipBlank j rest) :
      Written depth text j rest
  | array {depth : Nat} {text inner t rest : Text} {js : List Json}
      (hopen : text.skipBlank = .char '[' :: inner)
      (hitems : items .keep (written depth) inner = .ok (js, t))
      (hclose : closeList t = .ok rest) : Written (depth + 1) text (.array js) rest
  | object {depth : Nat} {text inner t rest : Text} {ms : List (String × Json)}
      (hopen : text.skipBlank = .char '\x7b' :: inner)
      (hmembers : members (keepMember (written depth)) [] inner = .ok (ms.reverse, t))
      (hclose : closeObject t = .ok rest) : Written (depth + 1) text (.object ms) rest

section Values
variable {object : Reader Json → Reader Json} {inner : Option (Reader Json)} {depth : Nat}
  {text t rest : Text} {j : Json}

theorem IsScalar.ne_bracket (h : IsScalar text j rest) (t : Text) :
    text ≠ .char '[' :: t ∧ text ≠ .char '\x7b' :: t := by
  cases h with
  | number hdigit h =>
    constructor
    · rintro rfl; cases hdigit
    · rintro rfl; cases hdigit
  | _ => constructor <;> exact fun h => by cases h

theorem treeWith_of_scalar (h : IsScalar text.skipBlank j rest) :
    treeWith object inner text = .ok (j, rest) := by
  unfold treeWith
  split
  · rename_i hblank; exact absurd hblank (h.ne_bracket _).1
  · rename_i hblank; exact absurd hblank (h.ne_bracket _).2
  · exact scalar_eq_ok.mpr h

theorem treeWith_of_array (h : text.skipBlank = .char '[' :: t) : treeWith object inner text =
    (inList (inner.map fun item => items .keep item) (.char '[' :: t)).map
      fun (js, rest) => (.array js, rest) := by
  unfold treeWith
  rw [h]; rfl

theorem treeWith_of_object (h : text.skipBlank = .char '\x7b' :: t) :
    treeWith object inner text = inObject (inner.map object) (.char '\x7b' :: t) := by
  unfold treeWith
  rw [h]; rfl

/-- What stands before a closing bracket, with the text behind the bracket. -/
def closed {α : Type} (close : Text → Except Failure Text) (r : α × Text) : Option (α × Text) :=
  (close r.2).toOption.map fun rest => (r.1, rest)

section Closing
variable {α β : Type} {close : Text → Except Failure Text} {after : Text → Text}

theorem bind_closed (o : Option α) (u : Text) : (o.map fun a => (a, u)).bind (closed close) =
    (close u).toOption.bind fun rest => o.map fun a => (a, rest) := by
  cases o with
  | none => cases (close u).toOption <;> rfl
  | some a =>
    show (close u).toOption.map _ = _
    cases (close u).toOption <;> rfl

theorem map_bind_closed (f : α → β) (o : Option (α × Text)) :
    (o.map fun r => (f r.1, r.2)).bind (closed close) =
      (o.bind (closed close)).map fun r => (f r.1, r.2) := by
  cases o with
  | none => rfl
  | some r =>
    show (close r.2).toOption.map _ = ((close r.2).toOption.map _).map _
    rw [Option.map_map]; rfl

theorem toOption_enclosed (body : Reader α) (g : Glyph) (t : Text) :
    (enclosed close after (some body) (g :: t)).toOption =
      (body t).toOption.bind (closed close) := by
  rw [enclosed, List.drop_one, List.tail_cons]
  cases body t with
  | error f => rfl
  | ok r =>
    obtain ⟨a, u⟩ := r
    dsimp only
    show _ = (close u).toOption.map _
    cases close u <;> rfl

/-- Brackets are open around a body, which is followed by the closing one. -/
theorem enclosed_eq_ok {body : Option (Reader α)} {a : α} {g : Glyph} :
    enclosed close after body (g :: t) = .ok (a, rest) ↔
      ∃ reader u, body = some reader ∧ reader t = .ok (a, u) ∧ close u = .ok rest := by
  cases body with
  | none => simp [enclosed, failOn]
  | some reader =>
    rw [← toOption_eq_some, toOption_enclosed]
    simp [closed, Option.bind_eq_some_iff, toOption_eq_some]

end Closing

/-- A value is a scalar, or brackets around items or the inside of an object. -/
theorem treeWith_cases (h : treeWith object inner text = .ok (j, rest)) :
    IsScalar text.skipBlank j rest ∨
      (∃ t item js u, text.skipBlank = .char '[' :: t ∧ inner = some item ∧
        items .keep item t = .ok (js, u) ∧ closeList u = .ok rest ∧ j = .array js) ∨
      ∃ t item u, text.skipBlank = .char '\x7b' :: t ∧ inner = some item ∧
        object item t = .ok (j, u) ∧ closeObject u = .ok rest := by
  unfold treeWith at h
  split at h
  · rename_i t hblank
    cases hlist : inList (inner.map fun item => items .keep item) (.char '[' :: t) with
    | error f => rw [hlist] at h; cases h
    | ok r =>
      rw [hlist] at h
      cases h
      obtain ⟨reader, u, hreader, hitems, hclose⟩ := enclosed_eq_ok.mp hlist
      obtain ⟨item, hitem, rfl⟩ := Option.map_eq_some_iff.mp hreader
      exact .inr (.inl ⟨t, item, r.1, u, hblank, hitem, hitems, hclose, rfl⟩)
  · rename_i t hblank
    obtain ⟨reader, u, hreader, hmembers, hclose⟩ := enclosed_eq_ok.mp h
    obtain ⟨item, hitem, rfl⟩ := Option.map_eq_some_iff.mp hreader
    exact .inr (.inr ⟨t, item, u, hblank, hitem, hmembers, hclose⟩)
  · exact .inl (scalar_eq_ok.mp h)

/-- The members of an object, as they are written. -/
theorem writtenMembers_eq_ok {value : Reader Json} : writtenMembers value text = .ok (j, rest) ↔
    ∃ ms, members (keepMember value) [] text = .ok (ms.reverse, rest) ∧ j = .object ms := by
  have hmembers : writtenMembers value text =
    (members (keepMember value) [] text).map fun r => (.object r.1.reverse, r.2) := rfl
  rw [hmembers]
  cases members (keepMember value) [] text with
  | error f => simp [Except.map]
  | ok r =>
    obtain ⟨ms, u⟩ := r
    constructor
    · intro h
      cases h
      exact ⟨ms.reverse, by rw [List.reverse_reverse], rfl⟩
    · rintro ⟨ns, h, rfl⟩
      cases h
      show Except.ok (Json.object ns.reverse.reverse, _) = _
      rw [List.reverse_reverse]

/-- **A text is read as it is written**, from its first glyph. -/
theorem written_eq_ok : written depth text = .ok (j, rest) ↔ Written depth text j rest := by
  constructor
  · intro h
    cases depth with
    | zero =>
      rcases treeWith_cases h with h | ⟨_, _, _, _, -, h, -⟩ | ⟨_, _, _, -, h, -⟩
      · exact .scalar h
      · cases h
      · cases h
    | succ depth =>
      rcases treeWith_cases h with h | ⟨t, item, js, u, hopen, hitem, hitems, hclose, rfl⟩ |
        ⟨t, item, u, hopen, hitem, hmembers, hclose⟩
      · exact .scalar h
      · cases hitem
        exact .array hopen hitems hclose
      · cases hitem
        obtain ⟨ms, hms, rfl⟩ := writtenMembers_eq_ok.mp hmembers
        exact .object hopen hms hclose
  · intro h
    cases h with
    | scalar h => cases depth <;> exact treeWith_of_scalar h
    | @array depth _ inner t _ js hopen hitems hclose =>
      have hlist : inList (some (items .keep (written depth))) (.char '[' :: inner) =
        .ok (js, rest) := enclosed_eq_ok.mpr ⟨_, _, rfl, hitems, hclose⟩
      refine (treeWith_of_array hopen).trans ?_
      show (inList (some (items .keep (written depth))) (.char '[' :: inner)).map _ = _
      rw [hlist]; rfl
    | object hopen hmembers hclose =>
      refine (treeWith_of_object hopen).trans ?_
      exact enclosed_eq_ok.mpr ⟨_, _, rfl, writtenMembers_eq_ok.mpr ⟨_, hmembers, rfl⟩, hclose⟩

end Values

/-! ### What is left of a text -/

section Lengths
variable {text t u rest : Text} {j : Json} {depth : Nat}

theorem length_lt_of_stringBody {s : String} (h : stringBody text = .ok (s, rest)) :
    rest.length < text.length := by
  obtain ⟨cs, hcs, -⟩ := stringBody_eq_ok.mp h
  have := hcs.length_lt
  omega

theorem length_lt_of_colon (h : colon text = .ok rest) : rest.length < text.length := by
  have htext := length_skipBlank_le text
  rw [colon_eq_ok.mp h, List.length_cons] at htext
  omega

theorem length_itemsFrom_le {α : Type} {pass : Pass} {item : Reader α}
    (hitem : ∀ {t a u}, item t = .ok (a, u) → u.length ≤ t.length) :
    ∀ {steps index : Nat} {text : Text} {as : List α},
      itemsFrom pass item steps index text = .ok (as, rest) → rest.length ≤ text.length
  | 0, _, _, _, h => by cases h
  | steps + 1, index, text, as, h => by
    rcases itemsFrom_cases h with ⟨hnext, -⟩ | ⟨t, a, u, as', hnext, ha, has, -⟩
    · exact hnext.length_le
    · exact ((length_itemsFrom_le hitem has).trans (hitem ha)).trans hnext.length_le

theorem length_membersFrom_le {base : Reader Json}
    (hbase : ∀ {t j u}, base t = .ok (j, u) → u.length ≤ t.length) :
    ∀ {steps : Nat} {first : Bool} {done all : List (String × Json)} {text : Text},
      membersFrom .keep stringBody .key (keepMember base) steps first done text = .ok (all, rest) →
        rest.length ≤ text.length
  | 0, _, _, _, _, h => by cases h
  | steps + 1, first, done, all, text, h => by
    rcases membersFrom_cases h with
      ⟨hnext, -⟩ | ⟨t, name, u, u', j, u'', hnext, hname, hcolon, hj, hmore⟩
    · exact hnext.length_le
    · have hnext := hnext.length_le
      have hname := length_lt_of_stringBody hname
      have hcolon := length_lt_of_colon hcolon
      have hj := hbase hj
      have hmore := length_membersFrom_le hbase hmore
      omega

/-- Something is taken from the text for every value. -/
theorem Written.length_lt : ∀ {depth : Nat} {text rest : Text} {j : Json},
    Written depth text j rest → rest.length < text.length
  | _, text, _, _, .scalar h => h.length_lt.trans_le (length_skipBlank_le text)
  | depth + 1, text, rest, _, .array (t := t) hopen hitems hclose => by
    have htext := length_skipBlank_le text
    rw [hopen, List.length_cons] at htext
    have hinner := length_itemsFrom_le
      (fun h => (Written.length_lt (written_eq_ok.mp h)).le) hitems
    have ht := length_skipBlank_le t
    rw [closeList_eq_ok.mp hclose, List.length_cons] at ht
    omega
  | depth + 1, text, rest, _, .object (t := t) hopen hmembers hclose => by
    have htext := length_skipBlank_le text
    rw [hopen, List.length_cons] at htext
    have hinner := length_membersFrom_le
      (fun h => (Written.length_lt (written_eq_ok.mp h)).le) hmembers
    have ht := length_skipBlank_le t
    rw [closeObject_eq_ok.mp hclose, List.length_cons] at ht
    omega

/-- A string has fewer characters than what spells it. -/
theorem Written.length_string {s : String} (h : Written depth text (.string s) rest) :
    (Text.ofString s).length < text.length := by
  cases h with
  | scalar h => exact h.length_string.trans_le (length_skipBlank_le text)

end Lengths

/-! ### What follows a text -/

section Appending
variable {more : Text}

theorem itemsFrom_append {α : Type} {pass : Pass} {item item' : Reader α}
    (hitem : ∀ {t a u}, item t = .ok (a, u) → item' (t ++ more) = .ok (a, u ++ more)) :
    ∀ {steps steps' index : Nat} {text rest : Text} {as : List α}, steps ≤ steps' →
      itemsFrom pass item steps index text = .ok (as, rest) →
        itemsFrom pass item' steps' index (text ++ more) = .ok (as, rest ++ more)
  | 0, _, _, _, _, _, _, h => by cases h
  | steps + 1, 0, _, _, _, _, hsteps, _ => absurd hsteps (Nat.not_succ_le_zero _)
  | steps + 1, steps' + 1, index, text, rest, as, hsteps, h => by
    rcases itemsFrom_cases h with ⟨hnext, rfl⟩ | ⟨t, a, u, as', hnext, ha, has, rfl⟩
    · exact itemsFrom_of_close hnext.append
    · rw [← toOption_eq_some, toOption_itemsFrom_of_entry hnext.append, hitem ha]
      have has := itemsFrom_append hitem (Nat.le_of_succ_le_succ hsteps) has
      show Option.map _ (itemsFrom pass item' steps' (index + 1) (u ++ more)).toOption = _
      rw [has]; rfl

theorem membersFrom_append {base base' : Reader Json} (hmore : Delimited more)
    (hbase : ∀ {t j u}, base t = .ok (j, u) → base' (t ++ more) = .ok (j, u ++ more)) :
    ∀ {steps steps' : Nat} {first : Bool} {done all : List (String × Json)} {text rest : Text},
      steps ≤ steps' →
        membersFrom .keep stringBody .key (keepMember base) steps first done text =
          .ok (all, rest) →
        membersFrom .keep stringBody .key (keepMember base') steps' first done (text ++ more) =
          .ok (all, rest ++ more)
  | 0, _, _, _, _, _, _, _, h => by cases h
  | steps + 1, 0, _, _, _, _, _, hsteps, _ => absurd hsteps (Nat.not_succ_le_zero _)
  | steps + 1, steps' + 1, first, done, all, text, rest, hsteps, h => by
    rcases membersFrom_cases h with
      ⟨hnext, rfl⟩ | ⟨t, name, u, u', j, u'', hnext, hname, hcolon, hj, hrest⟩
    · exact membersFrom_of_close hnext.append
    · obtain ⟨cs, hcs, rfl⟩ := stringBody_eq_ok.mp hname
      have hname : stringBody (t ++ more) = .ok (String.ofList cs, u ++ more) :=
        stringBody_eq_ok.mpr ⟨cs, hcs.append hmore, rfl⟩
      have hcolon : colon (u ++ more) = .ok (u' ++ more) :=
        colon_eq_ok.mpr (skipBlank_append (colon_eq_ok.mp hcolon))
      have hrest := membersFrom_append hmore hbase (Nat.le_of_succ_le_succ hsteps) hrest
      rw [← toOption_eq_some, toOption_membersFrom_of_entry hnext.append hname hcolon]
      show Option.bind (Except.map _ (base' (u' ++ more))).toOption _ = _
      rw [hbase hj]
      exact toOption_eq_some.mpr hrest

theorem length_succ_le (text more : Text) : text.length + 1 ≤ (text ++ more).length + 1 :=
  Nat.succ_le_succ (List.sublist_append_left text more).length_le

/-- **A value is read in the same way in front of anything that does not go on with a number**, and
when more brackets are allowed. -/
theorem Written.append (hmore : Delimited more) :
    ∀ {depth depth' : Nat} {text rest : Text} {j : Json},
    depth ≤ depth' → Written depth text j rest → Written depth' (text ++ more) j (rest ++ more)
  | _, _, text, _, _, _, .scalar h => by
    refine .scalar ?_
    obtain ⟨g, t, ht⟩ : ∃ g t, text.skipBlank = g :: t :=
      List.exists_cons_of_length_pos (Nat.zero_lt_of_lt h.length_lt)
    rw [skipBlank_append ht, ← ht]
    exact h.append hmore
  | depth + 1, 0, _, _, _, hdepth, _ => absurd hdepth (Nat.not_succ_le_zero _)
  | depth + 1, depth' + 1, text, rest, _, hdepth, .array hopen hitems hclose => by
    have hdepth := Nat.le_of_succ_le_succ hdepth
    refine .array (skipBlank_append hopen) ?_
      (closeList_eq_ok.mpr (skipBlank_append (closeList_eq_ok.mp hclose)))
    refine itemsFrom_append (fun h => ?_) (length_succ_le _ more) hitems
    exact written_eq_ok.mpr (Written.append hmore hdepth (written_eq_ok.mp h))
  | depth + 1, depth' + 1, text, rest, _, hdepth, .object hopen hmembers hclose => by
    have hdepth := Nat.le_of_succ_le_succ hdepth
    refine .object (skipBlank_append hopen) ?_
      (closeObject_eq_ok.mpr (skipBlank_append (closeObject_eq_ok.mp hclose)))
    refine membersFrom_append hmore (fun h => ?_) (length_succ_le _ more) hmembers
    exact written_eq_ok.mpr (Written.append hmore hdepth (written_eq_ok.mp h))

end Appending

/-! ### Other readers of the same text -/

section Readers
variable {base : Reader Json} {N : Nat}

/-- Items that another reader gets from each of the trees. -/
theorem toOption_itemsFrom {α : Type} {pass : Pass} {item : Reader α} {f : Json → Option α}
    (hbase : ∀ {t j u}, base t = .ok (j, u) → u.length ≤ t.length)
    (hitem : ∀ {t j u}, t.length ≤ N → base t = .ok (j, u) →
      (item t).toOption = (f j).map fun a => (a, u)) :
    ∀ {steps index : Nat} {text rest : Text} {js : List Json}, text.length ≤ N →
      itemsFrom .keep base steps index text = .ok (js, rest) →
        (itemsFrom pass item steps index text).toOption = (js.mapM f).map fun as => (as, rest)
  | 0, _, _, _, _, _, h => by cases h
  | steps + 1, index, text, rest, js, hN, h => by
    rcases itemsFrom_cases h with ⟨hnext, rfl⟩ | ⟨t, j, u, js', hnext, hj, hjs, rfl⟩
    · rw [itemsFrom_of_close hnext]; rfl
    · have ht := hnext.length_le.trans hN
      rw [toOption_itemsFrom_of_entry hnext, hitem ht hj, List.mapM_cons]
      cases f j with
      | none => rfl
      | some a =>
        show (itemsFrom pass item steps (index + 1) u).toOption.map _ = _
        rw [toOption_itemsFrom hbase hitem ((hbase hj).trans ht) hjs]
        cases js'.mapM f <;> rfl

/-- A state that another reader works each of the members into. -/
theorem toOption_membersFrom {κ σ : Type} {pass : Pass} {key : Reader κ} {name : String → κ}
    {step : κ → Step} {value : κ → σ → Except Mismatch (Reader σ)}
    {f : σ → String × Json → Option σ}
    (hbase : ∀ {t j u}, base t = .ok (j, u) → u.length ≤ t.length)
    (hkey : ∀ {t k u}, stringBody t = .ok (k, u) → key t = .ok (name k, u))
    (hvalue : ∀ {k state t j u}, t.length ≤ N → base t = .ok (j, u) →
      ((value (name k) state).toOption.bind fun reader => (reader t).toOption) =
        (f state (k, j)).map fun state => (state, u)) :
    ∀ {steps : Nat} {first : Bool} {done all : List (String × Json)} {text rest : Text} {state : σ},
      text.length ≤ N →
        membersFrom .keep stringBody .key (keepMember base) steps first done text =
          .ok (all, rest) →
        ∃ ms : List (String × Json), all = ms.reverse ++ done ∧
          (membersFrom pass key step value steps first state text).toOption =
            (ms.foldlM f state).map fun state => (state, rest)
  | 0, _, _, _, _, _, _, _, h => by cases h
  | steps + 1, first, done, all, text, rest, state, hN, h => by
    rcases membersFrom_cases h with
      ⟨hnext, rfl⟩ | ⟨t, k, u, u', j, u'', hnext, hname, hcolon, hj, hrest⟩
    · exact ⟨[], rfl, by rw [membersFrom_of_close hnext]; rfl⟩
    · have hnextlen := hnext.length_le
      have hu := length_lt_of_stringBody hname
      have hu' := length_lt_of_colon hcolon
      have hu'' := hbase hj
      have hentry : (membersFrom pass key step value (steps + 1) first state text).toOption =
          (f state (k, j)).bind fun state =>
            (membersFrom pass key step value steps false state u'').toOption := by
        rw [toOption_membersFrom_of_entry hnext (hkey hname) hcolon, ← Option.bind_assoc,
          hvalue (by omega) hj, Option.bind_map]
        rfl
      have ih (state : σ) : ∃ ms : List (String × Json), all = ms.reverse ++ (k, j) :: done ∧
          (membersFrom pass key step value steps false state u'').toOption =
            (ms.foldlM f state).map fun state => (state, rest) :=
        toOption_membersFrom hbase hkey hvalue (by omega) hrest
      cases hf : f state (k, j) with
      | none =>
        obtain ⟨ms, rfl, -⟩ := ih state
        refine ⟨(k, j) :: ms, by simp, ?_⟩
        rw [hentry, hf, List.foldlM_cons, hf]; rfl
      | some state' =>
        obtain ⟨ms, rfl, hms⟩ := ih state'
        refine ⟨(k, j) :: ms, by simp, ?_⟩
        rw [hentry, hf, List.foldlM_cons, hf]
        exact hms

end Readers

/-! ### Passing over -/

section Skipping

variable {text rest : Text} {j : Json}

theorem skipWith_of_scalar {inner : Reader Unit} (h : IsScalar text.skipBlank j rest) :
    skipWith inner text = .ok ((), rest) := by
  unfold skipWith
  split
  · rename_i hblank; exact absurd hblank (h.ne_bracket _).1
  · rename_i hblank; exact absurd hblank (h.ne_bracket _).2
  · rw [h.skipScalar]; rfl

theorem stringBody_skipString {s : String} (h : stringBody text = .ok (s, rest)) :
    skipString text = .ok ((), rest) := by
  obtain ⟨cs, hcs, -⟩ := stringBody_eq_ok.mp h
  rw [skipString, hcs.skipStringFrom (Nat.lt_succ_self _)]; rfl

theorem skipWith_of_array {value : Reader Unit} {inner t : Text} {as : List Unit}
    (hopen : text.skipBlank = .char '[' :: inner) (hitems : items .skip value inner = .ok (as, t))
    (hclose : closeList t = .ok rest) : skipWith value text = .ok ((), rest) := by
  unfold skipWith
  rw [hopen]
  simp only [hitems, hclose]; rfl

theorem skipWith_of_object {value : Reader Unit} {inner t : Text}
    (hopen : text.skipBlank = .char '\x7b' :: inner)
    (hmembers : membersFrom .skip skipString (fun _ => .unnamed) (fun _ _ => .ok value)
      (inner.length + 1) true () inner = .ok ((), t))
    (hclose : closeObject t = .ok rest) : skipWith value text = .ok ((), rest) := by
  unfold skipWith
  rw [hopen]
  simp only [hmembers, hclose]; rfl

/-- Enough steps are made to pass over a value: there are fewer brackets than glyphs. -/
theorem Written.skipValue : ∀ {depth n : Nat} {text rest : Text} {j : Json},
    Written depth text j rest → text.length < n → Json.skipValue n text = .ok ((), rest)
  | _, 0, _, _, _, _, hn => absurd hn (Nat.not_lt_zero _)
  | _, n + 1, _, _, _, .scalar h, _ => skipWith_of_scalar h
  | depth + 1, n + 1, text, rest, .array js, .array (t := t) hopen hitems hclose, hn => by
    have htext := length_skipBlank_le text
    rw [hopen, List.length_cons] at htext
    have hskip : (items .skip (Json.skipValue n) _).toOption =
        (js.mapM fun _ => some ()).map fun as => (as, t) :=
      toOption_itemsFrom (fun h => (written_eq_ok.mp h).length_lt.le)
        (fun ht h => by rw [Written.skipValue (written_eq_ok.mp h) (by omega)]; rfl) le_rfl hitems
    have hmap : (js.mapM fun _ => some ()) = some (js.map fun _ => ()) := List.mapM_pure ..
    rw [hmap] at hskip
    exact skipWith_of_array hopen (toOption_eq_some.mp hskip) hclose
  | _, n + 1, text, rest, _, @Written.object depth _ inner t _ ms hopen hmembers hclose, hn => by
    have htext := length_skipBlank_le text
    rw [hopen, List.length_cons] at htext
    obtain ⟨ns, -, hskip⟩ : ∃ ns : List (String × Json), ms.reverse = ns.reverse ++ [] ∧
        (membersFrom .skip skipString (fun _ => Step.unnamed) (fun _ _ => .ok (Json.skipValue n))
          (inner.length + 1) true () inner).toOption =
            (ns.foldlM (fun _ _ => some ()) ()).map fun state => (state, t) :=
      toOption_membersFrom (fun h => (written_eq_ok.mp h).length_lt.le) stringBody_skipString
        (fun ht h => by
          show (Json.skipValue n _).toOption = _
          rw [Written.skipValue (written_eq_ok.mp h) (by omega)]; rfl) le_rfl hmembers
    have hfold : ns.foldlM (fun _ _ => some ()) () = some () := List.foldlM_pure ..
    rw [hfold] at hskip
    exact skipWith_of_object hopen (toOption_eq_some.mp hskip) hclose

/-- **What is read as it is written can be passed over**, up to the same place. -/
theorem Written.skip {depth : Nat} (h : Written depth text j rest) :
    skip text = .ok ((), rest) := by
  rw [Json.skip, h.skipValue (Nat.lt_succ_self _)]

end Skipping

end Artboard.Json
