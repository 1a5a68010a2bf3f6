import Artboard.Proofs.Json.Canonical
import Artboard.Proofs.Json.Written

/-! # Texts with embedded texts opened

Reading a tree with embedded texts opened is reading it as it is written and opening it then.

* `Json.resolved`: a tree with embedded texts opened, as a function of the tree as it is written.
* `toOption_treeOf`: the reader of trees in terms of it.
* `toOption_tree`, `parse_eq_ok`: the reader of values and of whole texts. How many levels of
  embedding are provided for makes no difference.
* `same`, `eq_ok_of_same`: a comparison of trees that evaluates, for texts whose tree is known. -/

namespace Artboard.Json

mutual

/-- A tree with embedded texts opened, if `spelled` gives a tree for each of them. -/
def resolved (spelled : String → Option Json) : Json → Option Json
  | .array js => (resolvedItems spelled js).map .array
  | .object ms =>
    match embeddedIn? ms with
    | some (.string s, 1) => spelled s
    | some _ => none
    | none => (resolvedMembers spelled ms).map .object
  | .null => some .null
  | .bool b => some (.bool b)
  | .int n => some (.int n)
  | .float x => some (.float x)
  | .string s => some (.string s)

/-- The items of a list with embedded texts opened. -/
def resolvedItems (spelled : String → Option Json) : List Json → Option (List Json)
  | [] => some []
  | j :: js => (resolved spelled j).bind fun j => (resolvedItems spelled js).map fun js => j :: js

/-- The members of an object with embedded texts opened in their values. -/
def resolvedMembers (spelled : String → Option Json) :
    List (String × Json) → Option (List (String × Json))
  | [] => some []
  | (key, j) :: ms =>
    (resolved spelled j).bind fun j => (resolvedMembers spelled ms).map fun ms => (key, j) :: ms

end

section Trees
variable {spelled : String → Option Json}

theorem resolvedItems_eq_mapM : ∀ js : List Json,
    resolvedItems spelled js = js.mapM (resolved spelled)
  | [] => rfl
  | j :: js => by
    rw [resolvedItems, List.mapM_cons, resolvedItems_eq_mapM js]
    cases resolved spelled j with
    | none => rfl
    | some i => cases js.mapM (resolved spelled) <;> rfl

mutual

/-- A tree with nothing to open stands for itself. -/
theorem resolved_of_unembedded : ∀ {j : Json}, j.Unembedded → resolved spelled j = some j
  | .array js, h => by
    rw [resolved, resolvedItems_of_unembedded h]; rfl
  | .object ms, h => by
    rw [resolved, h.1, resolvedMembers_of_unembedded h.2]; rfl
  | .null, _ => rfl
  | .bool _, _ => rfl
  | .int _, _ => rfl
  | .float _, _ => rfl
  | .string _, _ => rfl

theorem resolvedItems_of_unembedded : ∀ {js : List Json}, UnembeddedItems js →
    resolvedItems spelled js = some js
  | [], _ => rfl
  | j :: js, h => by
    rw [resolvedItems, resolved_of_unembedded h.1, resolvedItems_of_unembedded h.2]; rfl

theorem resolvedMembers_of_unembedded : ∀ {ms : List (String × Json)}, UnembeddedMembers ms →
    resolvedMembers spelled ms = some ms
  | [], _ => rfl
  | (key, j) :: ms, h => by
    rw [resolvedMembers, resolved_of_unembedded h.1, resolvedMembers_of_unembedded h.2]; rfl

end

/-- The members worked one by one into those before them. -/
theorem foldlM_resolved : ∀ (ms done : List (String × Json)),
    ms.foldlM (fun done (m : String × Json) =>
      (resolved spelled m.2).map fun j => (m.1, j) :: done) done =
        (resolvedMembers spelled ms).map fun ns => ns.reverse ++ done
  | [], done => rfl
  | (key, j) :: ms, done => by
    rw [List.foldlM_cons, resolvedMembers]
    cases resolved spelled j with
    | none => rfl
    | some i =>
      show ms.foldlM _ ((key, i) :: done) = _
      rw [foldlM_resolved ms]
      cases resolvedMembers spelled ms with
      | none => rfl
      | some ns => simp

/-- A scalar stands for itself. -/
theorem IsScalar.resolved {text rest : Text} {j : Json} (h : IsScalar text j rest) :
    Json.resolved spelled j = some j := by
  cases j with
  | array js => exact absurd rfl (h.ne_array js)
  | object ms => exact absurd rfl (h.ne_object ms)
  | _ => rfl

theorem toOption_map {ε α β : Type} (f : α → β) (r : Except ε α) :
    (r.map f).toOption = r.toOption.map f := by
  cases r <;> rfl

/-- Two results that agree but for their errors. -/
theorem toOption_cases {ε ε' α β : Type} {r : Except ε β} {r' : Except ε' α} {f : α → β}
    (h : r.toOption = r'.toOption.map f) :
    (∃ e e', r = .error e ∧ r' = .error e') ∨ ∃ a, r = .ok (f a) ∧ r' = .ok a := by
  cases r' with
  | error e' =>
    cases r with
    | error e => exact .inl ⟨e, e', rfl, rfl⟩
    | ok b => cases h
  | ok a => exact .inr ⟨a, toOption_eq_some.mp h, rfl⟩

end Trees

/-! ### Reading trees -/

section Reading
variable {text t u rest : Text} {j w : Json} {depth : Nat}

/-- A decoder of scalars reads what it accepts, and no brackets. -/
theorem toOption_scalarAs {α : Type} {expected : String} {accept : Json → Except Mismatch α}
    (hlist : ∀ js, (accept (.array js)).toOption = none)
    (hobject : ∀ ms, (accept (.object ms)).toOption = none) (h : Written depth text w rest) :
    (scalarAs expected accept text).toOption = (accept w).toOption.map fun a => (a, rest) := by
  unfold scalarAs
  cases h with
  | scalar h =>
    split
    · rename_i hblank; exact absurd hblank (h.ne_bracket _).1
    · rename_i hblank; exact absurd hblank (h.ne_bracket _).2
    · rw [scalar_eq_ok.mpr h]
      dsimp only
      cases accept w <;> rfl
  | array hopen _ _ => rw [hopen, hlist]; rfl
  | object hopen _ _ => rw [hopen, hobject]; rfl

/-- An object can be closed behind a member just if this is the last one. -/
theorem toOption_closeObject {base : Reader Json} {steps : Nat} {m : String × Json}
    {ms : List (String × Json)}
    (h : membersFrom .keep stringBody .key (keepMember base) steps false [m] text =
      .ok ((m :: ms).reverse, rest)) :
    (closeObject text).toOption = if ms = [] then (closeObject rest).toOption else none := by
  cases steps with
  | zero => cases h
  | succ steps =>
    rcases membersFrom_cases h with
      ⟨hnext, hms⟩ | ⟨t, name, u, u', j, u'', hnext, -, -, -, hmore⟩
    · have hms : ms = [] := by simpa using hms
      rw [if_pos hms]
      cases hnext with
      | @close _ _ r hblank =>
        have hrest : closeObject (.char '\x7d' :: r) = .ok r := closeObject_eq_ok.mpr rfl
        rw [closeObject_eq_ok.mpr hblank, hrest]
    · obtain ⟨ns, hns⟩ := exists_of_membersFrom hmore
      have hms : ms ≠ [] := by
        rintro rfl
        simpa using congrArg List.length hns
      rw [if_neg hms]
      cases hnext with
      | comma hblank _ => rw [closeObject, hblank]; rfl

theorem embedded?_eq_some (h : embedded? text = some t) :
    ∃ u, NextMember true text .entry u ∧ stringBody u = .ok (embeddedKey, t) := by
  unfold embedded? at h
  split at h
  · rename_i u hnext
    split at h
    · rename_i key t' hname
      split_ifs at h with hkey
      cases h
      exact ⟨u, nextMember_eq_ok.mp hnext, hkey ▸ hname⟩
    · cases h
  · cases h

/-- An object begins with the reserved key, or its first key is another. In the first case it can be
closed behind the value just if this is the only member. -/
theorem embedded?_eq {base : Reader Json} {ms : List (String × Json)}
    (h : members (keepMember base) [] text = .ok (ms.reverse, rest)) :
    (embedded? text = none ∧ embeddedIn? ms = none) ∨
      ∃ u u' j u'' ns, embedded? text = some u ∧ colon u = .ok u' ∧ base u' = .ok (j, u'') ∧
        u'.length ≤ text.length ∧ ms = (embeddedKey, j) :: ns ∧
          (closeObject u'').toOption = if ns = [] then (closeObject rest).toOption else none := by
  rcases membersFrom_cases h with
    ⟨hnext, hms⟩ | ⟨t, name, u, u', j, u'', hnext, hname, hcolon, hj, hmore⟩
  · obtain rfl : ms = [] := List.reverse_eq_nil_iff.mp hms
    refine .inl ⟨?_, rfl⟩
    rw [embedded?, nextMember_eq_ok.mpr hnext]
  · obtain ⟨ns, hns⟩ := exists_of_membersFrom hmore
    obtain rfl : ms = (name, j) :: ns := by
      rw [← List.reverse_cons] at hns
      exact List.reverse_injective hns
    have hembedded : embedded? text = if name = embeddedKey then some u else none := by
      rw [embedded?, nextMember_eq_ok.mpr hnext]
      simp only [hname]
    by_cases hkey : name = embeddedKey
    · subst hkey
      have hnext := hnext.length_le
      have hname := length_lt_of_stringBody hname
      have hlen := length_lt_of_colon hcolon
      exact .inr ⟨u, u', j, u'', ns, by rw [hembedded, if_pos rfl], hcolon, hj, by omega, rfl,
        toOption_closeObject hmore⟩
    · refine .inl ⟨by rw [hembedded, if_neg hkey], ?_⟩
      rw [embeddedIn?, if_neg hkey]

/-- The tree of an embedded text. -/
theorem toOption_openEmbedded {p : String → Except ReadError Json} (hcolon : colon t = .ok u)
    (h : Written depth u w rest) : (openEmbedded p t).toOption = match w with
      | .string s => (p s).toOption.map fun j => (j, rest)
      | _ => none := by
  have hscalar : (scalarAs embeddedName embeddedText u).toOption =
      (embeddedText w).toOption.map fun s => (s, rest) :=
    toOption_scalarAs (fun _ => rfl) (fun _ => rfl) h
  unfold openEmbedded
  rw [hcolon]
  dsimp only
  cases hs : scalarAs embeddedName embeddedText u with
  | error f =>
    rw [hs] at hscalar
    cases w with
    | string s => cases hscalar
    | _ => rfl
  | ok r =>
    rw [hs] at hscalar
    cases w with
    | string s =>
      cases hscalar
      dsimp only
      cases p s <;> rfl
    | _ => cases hscalar

/-- An embedded text stands behind the colon. -/
theorem scalarAs_of_openEmbedded {p : String → Except ReadError Json} {v : Json}
    (h : openEmbedded p t = .ok (v, rest)) :
    ∃ u s, colon t = .ok u ∧ scalarAs embeddedName embeddedText u = .ok (s, rest) := by
  unfold openEmbedded at h
  cases hcolon : colon t with
  | error f => rw [hcolon] at h; cases h
  | ok u =>
    simp only [hcolon] at h
    cases hs : scalarAs embeddedName embeddedText u with
    | error f => rw [hs] at h; cases h
    | ok r =>
      obtain ⟨s, u'⟩ := r
      simp only [hs] at h
      split at h
      · cases h; exact ⟨u, s, rfl, hs⟩
      · cases h

section Opening
variable {p : String → Except ReadError Json} {spelled : String → Option Json} {value : Reader Json}
  {ms : List (String × Json)}

/-- Members are kept with the trees that their values stand for. -/
theorem toOption_writtenMembers
    (hvalue : ∀ {t j u}, t.length ≤ text.length → written depth t = .ok (j, u) →
      (value t).toOption = (resolved spelled j).map fun v => (v, u))
    (hmembers : members (keepMember (written depth)) [] text = .ok (ms.reverse, rest)) :
    (writtenMembers value text).toOption =
      (resolvedMembers spelled ms).map fun ns => (.object ns, rest) := by
  obtain ⟨ns, hns, hread⟩ : ∃ ns : List (String × Json), ms.reverse = ns.reverse ++ [] ∧
      (members (keepMember value) [] text).toOption =
        (ns.foldlM (fun done (m : String × Json) =>
          (resolved spelled m.2).map fun j => (m.1, j) :: done) []).map fun vs => (vs, rest) :=
    toOption_membersFrom (fun h => (written_eq_ok.mp h).length_lt.le) id
      (fun {_ _ t _ _} ht h => by
        show ((value t).map _).toOption = _
        rw [toOption_map, hvalue ht h, Option.map_map, Option.map_map]; rfl) le_rfl hmembers
  obtain rfl : ms = ns := List.reverse_injective (by rw [hns, List.append_nil])
  show ((members (keepMember value) [] text).map _).toOption = _
  rw [toOption_map, hread, foldlM_resolved]
  cases resolvedMembers spelled ms with
  | none => rfl
  | some vs => simp

/-- The inside of an object gives the tree that the object stands for, if it can be closed. -/
theorem toOption_openMembers
    (hp : ∀ s, (Text.ofString s).length < text.length → (p s).toOption = spelled s)
    (hvalue : ∀ {t j u}, t.length ≤ text.length → written depth t = .ok (j, u) →
      (value t).toOption = (resolved spelled j).map fun v => (v, u))
    (hmembers : members (keepMember (written depth)) [] text = .ok (ms.reverse, t))
    (hclose : closeObject t = .ok rest) :
    (openMembers p value text).toOption.bind (closed closeObject) =
      (resolved spelled (.object ms)).map fun v => (v, rest) := by
  rw [openMembers, resolved]
  rcases embedded?_eq hmembers with
    ⟨hnone, hms⟩ | ⟨u, u', j, u'', ns, hu, hcolon, hj, hlen, rfl, hend⟩
  · rw [hnone, hms]
    dsimp only
    have hread : (writtenMembers value text).toOption =
        ((resolvedMembers spelled ms).map .object).map fun v => (v, t) := by
      rw [toOption_writtenMembers hvalue hmembers, Option.map_map]; rfl
    rw [hread, bind_closed, hclose]; rfl
  · have hj := written_eq_ok.mp hj
    rw [hclose] at hend
    rw [hu]
    dsimp only
    rw [toOption_openEmbedded hcolon hj, embeddedIn?, if_pos rfl]
    cases j with
    | string s =>
      have hs : (Text.ofString s).length < u'.length := hj.length_string
      dsimp only
      rw [hp s (by omega), bind_closed, hend]
      cases ns <;> rfl
    | _ => rfl

end Opening

/-- **A tree is read with embedded texts opened** as it is written and opened then. -/
theorem toOption_treeOf {p : String → Except ReadError Json} {spelled : String → Option Json} :
    ∀ {depth : Nat} {text rest : Text} {w : Json}, Written depth text w rest →
      (∀ s, (Text.ofString s).length < text.length → (p s).toOption = spelled s) →
        (treeOf (openMembers p) depth text).toOption =
          (resolved spelled w).map fun v => (v, rest)
  | depth, text, rest, w, .scalar h, _ => by
    have htree : treeOf (openMembers p) depth text = .ok (w, rest) := by
      cases depth <;> exact treeWith_of_scalar h
    rw [htree, h.resolved]; rfl
  | _, text, rest, _, @Written.array depth _ inner t _ js hopen hitems hclose, hp => by
    have htext := length_skipBlank_le text
    rw [hopen, List.length_cons] at htext
    have hjs : (items .keep (treeOf (openMembers p) depth) inner).toOption =
        (js.mapM (resolved spelled)).map fun vs => (vs, t) :=
      toOption_itemsFrom (fun h => (written_eq_ok.mp h).length_lt.le)
        (fun ht h => toOption_treeOf (written_eq_ok.mp h) fun s hs => hp s (by omega)) le_rfl hitems
    have htree : treeOf (openMembers p) (depth + 1) text =
        (inList (some (items .keep (treeOf (openMembers p) depth))) (.char '[' :: inner)).map
          fun r => (.array r.1, r.2) := treeWith_of_array hopen
    rw [htree, toOption_map, inList, toOption_enclosed, hjs, bind_closed, hclose, resolved,
      resolvedItems_eq_mapM, Option.map_map]
    cases js.mapM (resolved spelled) <;> rfl
  | _, text, rest, _, @Written.object depth _ inner t _ ms hopen hmembers hclose, hp => by
    have htext := length_skipBlank_le text
    rw [hopen, List.length_cons] at htext
    have htree : treeOf (openMembers p) (depth + 1) text =
        inObject (some (openMembers p (treeOf (openMembers p) depth))) (.char '\x7b' :: inner) :=
      treeWith_of_object hopen
    rw [htree, inObject, toOption_enclosed]
    refine toOption_openMembers (fun s hs => hp s (by omega)) (fun ht h => ?_) hmembers hclose
    exact toOption_treeOf (written_eq_ok.mp h) fun s hs => hp s (by omega)

/-! ### Texts that are not written -/

theorem itemsFrom_kept {α : Type} {item : Reader α} {base : Reader Json}
    (hitem : ∀ {t a u}, item t = .ok (a, u) → ∃ w, base t = .ok (w, u)) :
    ∀ {steps index : Nat} {text : Text} {as : List α},
      itemsFrom .keep item steps index text = .ok (as, rest) →
        ∃ ws, itemsFrom .keep base steps index text = .ok (ws, rest)
  | 0, _, _, _, h => by cases h
  | steps + 1, index, text, as, h => by
    rcases itemsFrom_cases h with ⟨hnext, rfl⟩ | ⟨t, a, u, as', hnext, ha, has, rfl⟩
    · exact ⟨[], itemsFrom_of_close hnext⟩
    · obtain ⟨w, hw⟩ := hitem ha
      obtain ⟨ws, hws⟩ := itemsFrom_kept hitem has
      refine ⟨w :: ws, ?_⟩
      rw [← toOption_eq_some, toOption_itemsFrom_of_entry hnext, hw]
      show Option.map _ (itemsFrom .keep base steps (index + 1) u).toOption = _
      rw [hws]; rfl

theorem membersFrom_kept {value base : Reader Json}
    (hvalue : ∀ {t v u}, value t = .ok (v, u) → ∃ w, base t = .ok (w, u)) :
    ∀ {steps : Nat} {first : Bool} {done all : List (String × Json)} {text : Text},
      membersFrom .keep stringBody .key (keepMember value) steps first done text = .ok (all, rest) →
        ∀ done', ∃ all',
          membersFrom .keep stringBody .key (keepMember base) steps first done' text =
            .ok (all', rest)
  | 0, _, _, _, _, h => by cases h
  | steps + 1, first, done, all, text, h => by
    intro done'
    rcases membersFrom_cases h with
      ⟨hnext, -⟩ | ⟨t, name, u, u', v, u'', hnext, hname, hcolon, hv, hmore⟩
    · exact ⟨done', membersFrom_of_close hnext⟩
    · obtain ⟨w, hw⟩ := hvalue hv
      obtain ⟨all', hall⟩ := membersFrom_kept hvalue hmore ((name, w) :: done')
      refine ⟨all', ?_⟩
      rw [← toOption_eq_some, toOption_membersFrom_of_entry hnext hname hcolon]
      show Option.bind (Except.map _ (base u')).toOption _ = _
      rw [hw]
      exact toOption_eq_some.mpr hall

theorem written_of_scalarAs {s : String}
    (h : scalarAs embeddedName embeddedText text = .ok (s, rest)) :
    Written depth text (.string s) rest := by
  unfold scalarAs at h
  split at h
  · cases h
  · cases h
  · cases hj : Json.scalar text.skipBlank with
    | error f => rw [hj] at h; cases h
    | ok r =>
      obtain ⟨j, u⟩ := r
      simp only [hj] at h
      cases j with
      | string s => cases h; exact .scalar (scalar_eq_ok.mp hj)
      | _ => cases h

/-- The reserved key with a text in an object is a member as it is written. -/
theorem members_of_openEmbedded {p : String → Except ReadError Json} {v : Json}
    (hkey : embedded? text = some t) (h : openEmbedded p t = .ok (v, u))
    (hclose : closeObject u = .ok rest) : ∃ s, members (keepMember (written depth)) [] text =
      .ok ([(embeddedKey, .string s)], .char '\x7d' :: rest) := by
  obtain ⟨t₁, hnext, hname⟩ := embedded?_eq_some hkey
  obtain ⟨t₂, s, hcolon, hs⟩ := scalarAs_of_openEmbedded h
  have hvalue : written depth t₂ = .ok (.string s, u) := written_eq_ok.mpr (written_of_scalarAs hs)
  have hend : NextMember false u .close (.char '\x7d' :: rest) :=
    .close (closeObject_eq_ok.mp hclose)
  have hlen : t.length < text.length := (length_lt_of_stringBody hname).trans_le hnext.length_le
  obtain ⟨n, hn⟩ : ∃ n, text.length = n + 1 := Nat.exists_eq_add_one_of_ne_zero (by omega)
  refine ⟨s, ?_⟩
  show membersFrom _ _ _ _ (text.length + 1) _ _ _ = _
  rw [← toOption_eq_some, toOption_membersFrom_of_entry hnext hname hcolon, hn]
  show Option.bind (Except.map _ (written depth t₂)).toOption _ = _
  rw [hvalue]
  exact toOption_eq_some.mpr (membersFrom_of_close hend)

/-- **Only a text that can be read as it is written is read with embedded texts opened.** -/
theorem written_of_treeOf {p : String → Except ReadError Json} : ∀ {depth : Nat} {text rest : Text}
    {v : Json}, treeOf (openMembers p) depth text = .ok (v, rest) → ∃ w, Written depth text w rest
  | 0, text, rest, v, h => by
    rcases treeWith_cases h with h | ⟨_, _, _, _, -, h, -⟩ | ⟨_, _, _, -, h, -⟩
    · exact ⟨v, .scalar h⟩
    · cases h
    · cases h
  | depth + 1, text, rest, v, h => by
    have hinner {t u : Text} {v : Json} (h : treeOf (openMembers p) depth t = .ok (v, u)) :
        ∃ w, written depth t = .ok (w, u) := by
      obtain ⟨w, hw⟩ := written_of_treeOf h
      exact ⟨w, written_eq_ok.mpr hw⟩
    rcases treeWith_cases h with h | ⟨t, item, js, u, hopen, hitem, hitems, hclose, rfl⟩ |
      ⟨t, item, u, hopen, hitem, hmembers, hclose⟩
    · exact ⟨v, .scalar h⟩
    · cases hitem
      obtain ⟨ws, hws⟩ := itemsFrom_kept hinner hitems
      exact ⟨.array ws, .array hopen hws hclose⟩
    · cases hitem
      unfold openMembers at hmembers
      cases hkey : embedded? t with
      | some t' =>
        rw [hkey] at hmembers
        obtain ⟨s, hs⟩ : ∃ s, members (keepMember (written depth)) [] t =
            .ok ([(embeddedKey, .string s)], .char '\x7d' :: rest) :=
          members_of_openEmbedded hkey hmembers hclose
        have hwritten : Written (depth + 1) text (.object [(embeddedKey, .string s)]) rest :=
          .object hopen hs (closeObject_eq_ok.mpr rfl)
        exact ⟨_, hwritten⟩
      | none =>
        rw [hkey] at hmembers
        obtain ⟨ms, hms, -⟩ := writtenMembers_eq_ok.mp hmembers
        obtain ⟨all, hall⟩ := membersFrom_kept hinner hms []
        refine ⟨.object all.reverse, .object hopen ?_ hclose⟩
        rw [List.reverse_reverse]; exact hall

/-! ### Levels of embedding -/

theorem toOption_treeOf_congr {p q : String → Except ReadError Json}
    (hp : ∀ s, (Text.ofString s).length < text.length → (p s).toOption = (q s).toOption) :
    (treeOf (openMembers p) depth text).toOption =
      (treeOf (openMembers q) depth text).toOption := by
  by_cases hw : ∃ w rest, Written depth text w rest
  · obtain ⟨w, rest, hw⟩ := hw
    rw [toOption_treeOf hw hp, toOption_treeOf hw fun _ _ => rfl]
  · have hnone (p : String → Except ReadError Json) :
        (treeOf (openMembers p) depth text).toOption = none := by
      cases h : treeOf (openMembers p) depth text with
      | error f => rfl
      | ok r =>
        obtain ⟨w, hw'⟩ := written_of_treeOf h
        exact absurd ⟨w, r.2, hw'⟩ hw
    rw [hnone, hnone]

/-- A whole text is read if nothing but blanks is left. -/
theorem toOption_complete {α : Type} (reader : Nat → Reader α) (text : Text) :
    (complete reader text).toOption =
      (reader depthLimit text).toOption.bind fun (a, rest) =>
        if rest.skipBlank = [] then some a else none := by
  unfold complete
  cases reader depthLimit text with
  | error f => rfl
  | ok r =>
    obtain ⟨a, rest⟩ := r
    show _ = if rest.skipBlank = [] then some a else none
    dsimp only
    split
    · rename_i hblank; rw [if_pos hblank]; rfl
    · rename_i hblank; rw [if_neg hblank]; rfl

theorem complete_eq_ok {α : Type} {reader : Nat → Reader α} {a : α} :
    complete reader text = .ok a ↔
      ∃ rest, reader depthLimit text = .ok (a, rest) ∧ rest.skipBlank = [] := by
  rw [← toOption_eq_some, toOption_complete]
  simp only [Option.bind_eq_some_iff, Prod.exists, toOption_eq_some]
  constructor
  · rintro ⟨b, rest, h, hb⟩
    split_ifs at hb with hblank
    cases hb
    exact ⟨rest, h, hblank⟩
  · rintro ⟨rest, h, hblank⟩
    exact ⟨a, rest, h, if_pos hblank⟩

/-- As many levels as the text is long are enough. -/
theorem toOption_parseWithin : ∀ {n m : Nat} {text : Text}, text.length ≤ n → text.length ≤ m →
    (parseWithin n text).toOption = (parseWithin m text).toOption
  | 0, m, text, hn, _ => by
    obtain rfl : text = [] := List.length_eq_zero_iff.mp (Nat.le_zero.mp hn)
    cases m <;> rfl
  | n + 1, 0, text, _, hm => by
    obtain rfl : text = [] := List.length_eq_zero_iff.mp (Nat.le_zero.mp hm)
    rfl
  | n + 1, m + 1, text, hn, hm => by
    have hlevels (s : String) (hs : (Text.ofString s).length < text.length) :
        (parseWithin n (Text.ofString s)).toOption = (parseWithin m (Text.ofString s)).toOption :=
      toOption_parseWithin (by omega) (by omega)
    rw [parseWithin, parseWithin, toOption_complete, toOption_complete,
      toOption_treeOf_congr hlevels]

/-- The tree that a text spells, if it spells one. -/
def spelled (s : String) : Option Json := (parse (Text.ofString s)).toOption

theorem parse_eq_parseWithin (text : Text) : parse text = parseWithin (text.length + 1) text := rfl

/-- **A value is read as it is written, and embedded texts are opened then.** -/
theorem toOption_tree (h : Written depth text w rest) :
    (tree depth text).toOption = (resolved spelled w).map fun v => (v, rest) := by
  refine toOption_treeOf h fun s hs => ?_
  rw [spelled, parse_eq_parseWithin]
  exact toOption_parseWithin hs.le (Nat.le_succ _)

theorem written_of_tree {v : Json} (h : tree depth text = .ok (v, rest)) :
    ∃ w, Written depth text w rest := written_of_treeOf h

/-- **A whole text is read as it is written, and embedded texts are opened then.** -/
theorem parse_eq_ok {v : Json} : parse text = .ok v ↔
    ∃ w, complete written text = .ok w ∧ resolved spelled w = some v := by
  constructor
  · intro h
    obtain ⟨rest, hv, hrest⟩ := complete_eq_ok.mp h
    obtain ⟨w, hw⟩ := written_of_tree hv
    have htree := toOption_tree hw
    rw [hv] at htree
    refine ⟨w, complete_eq_ok.mpr ⟨rest, written_eq_ok.mpr hw, hrest⟩, ?_⟩
    cases hr : resolved spelled w with
    | none => rw [hr] at htree; cases htree
    | some v' => rw [hr] at htree; cases htree; rfl
  · rintro ⟨w, hw, hv⟩
    obtain ⟨rest, hw, hrest⟩ := complete_eq_ok.mp hw
    have htree := toOption_tree (written_eq_ok.mp hw)
    rw [hv] at htree
    exact complete_eq_ok.mpr ⟨rest, toOption_eq_some.mp htree, hrest⟩

end Reading

/-! ### Texts whose tree is known -/

mutual

/-- Whether two trees are the same. Decimals are not compared. -/
def same : Json → Json → Bool
  | .null, .null => true
  | .bool b, .bool c => b = c
  | .int m, .int n => m = n
  | .string s, .string t => s = t
  | .array js, .array ks => sameItems js ks
  | .object ms, .object ns => sameMembers ms ns
  | _, _ => false

/-- Whether two lists are the same. -/
def sameItems : List Json → List Json → Bool
  | [], [] => true
  | j :: js, k :: ks => same j k && sameItems js ks
  | _, _ => false

/-- Whether the members are the same, in the same order. -/
def sameMembers : List (String × Json) → List (String × Json) → Bool
  | [], [] => true
  | (key, j) :: ms, (name, k) :: ns => key = name && same j k && sameMembers ms ns
  | _, _ => false

end

mutual

theorem eq_of_same : ∀ {j k : Json}, same j k = true → j = k
  | .null, k, h => by cases k <;> first | rfl | cases h
  | .bool b, k, h => by
    cases k with
    | bool c => rw [of_decide_eq_true h]
    | _ => cases h
  | .int m, k, h => by
    cases k with
    | int n => rw [of_decide_eq_true h]
    | _ => cases h
  | .float x, k, h => by cases k <;> cases h
  | .string s, k, h => by
    cases k with
    | string t => rw [of_decide_eq_true h]
    | _ => cases h
  | .array js, k, h => by
    cases k with
    | array ks => rw [eq_of_sameItems h]
    | _ => cases h
  | .object ms, k, h => by
    cases k with
    | object ns => rw [eq_of_sameMembers h]
    | _ => cases h

theorem eq_of_sameItems : ∀ {js ks : List Json}, sameItems js ks = true → js = ks
  | [], ks, h => by cases ks <;> first | rfl | cases h
  | j :: js, ks, h => by
    cases ks with
    | nil => cases h
    | cons k ks =>
      obtain ⟨hj, hjs⟩ := Bool.and_eq_true_iff.mp h
      rw [eq_of_same hj, eq_of_sameItems hjs]

theorem eq_of_sameMembers : ∀ {ms ns : List (String × Json)}, sameMembers ms ns = true → ms = ns
  | [], ns, h => by cases ns <;> first | rfl | cases h
  | (key, j) :: ms, ns, h => by
    cases ns with
    | nil => cases h
    | cons n ns =>
      obtain ⟨hm, hms⟩ := Bool.and_eq_true_iff.mp h
      obtain ⟨hkey, hj⟩ := Bool.and_eq_true_iff.mp hm
      rw [eq_of_sameMembers hms, of_decide_eq_true hkey, eq_of_same hj]

end

/-- What was read is compared with the tree that is expected. -/
theorem eq_ok_of_same {ε : Type} {r : Except ε Json} {v : Json}
    (h : r.toOption.any (same · v) = true) : r = .ok v := by
  cases r with
  | error e => cases h
  | ok w => rw [eq_of_same h]

end Artboard.Json
