import Artboard.Proofs.Drawing.Numbers

/-! # Which changes a document refuses, and what the others change

A document looks at a change for what may be wrong with it, in a fixed order, before it makes it.

* `Objection`, `Edit.objections`: what may be wrong with a change, in the order of looking.
* `edit_map_eq`: a change is refused with the first objection that holds, and made if none does.
* `Shape.attribute?`: the attributes of a shape. `Reattributed`: one of them is another one, and all
  else is as it was.
* `InPlace.append`: an attachment made look-up by look-up; `inPlace_append`: no look-up fails once
  something was changed.
* `eq_of_get?`: documents that look the same are the same.
* `changes_run`: what becomes of every call, after every run from an empty document. -/

namespace Artboard

/-! ### Objections -/

instance : DecidablePred Quantity.Accepted
  | .coordinate _ x => inferInstanceAs (Decidable (x.isFinite = true))
  | .extent _ x => inferInstanceAs (Decidable (x.isFinite = true ∧ 0.0 ≤ x))

/-- Whether a shape is a text. -/
def Shape.isText (s : Shape) : Bool := s.content?.isSome

/-- Something that may be wrong with a change of a document. -/
inductive Objection
  /-- A number is not accepted. -/
  | number (m : Quantity)
  /-- There is no shape with this id. -/
  | missing (id : ShapeId)
  /-- The shape is no text. -/
  | noText (id : ShapeId)
  /-- A shape is to become its own parent. -/
  | itself (parent child : ShapeId)
  /-- The shape is no board. -/
  | noBoard (id : ShapeId)

namespace Objection

/-- The error for an objection. -/
def error : Objection → CanvasError
  | number m => .invalidGeometry m.field m.value
  | missing id => .shapeNotFound id
  | noText id => .rejected ("Shape " ++ id.text ++ " is not a text layer")
  | itself parent _ => .invalidParent parent
  | noBoard id => .invalidParent id

/-- Whether an objection is justified. -/
def Holds (d : Document) : Objection → Prop
  | number m => ¬ m.Accepted
  | missing id => d.get? id = none
  | noText id => ∀ s ∈ d.get? id, s.isText = false
  | itself parent child => parent = child
  | noBoard id => ∀ s ∈ d.get? id, s.isContainer = false

instance (d : Document) : DecidablePred (Holds d)
  | number m => inferInstanceAs (Decidable (¬ m.Accepted))
  | missing id => inferInstanceAs (Decidable (d.get? id = none))
  | noText id => inferInstanceAs (Decidable (∀ s ∈ d.get? id, s.isText = false))
  | itself parent child => inferInstanceAs (Decidable (parent = child))
  | noBoard id => inferInstanceAs (Decidable (∀ s ∈ d.get? id, s.isContainer = false))

/-- The first justified one of some objections. -/
def first? (d : Document) (os : List Objection) : Option Objection := os.find? fun o => o.Holds d

end Objection

/-- What may be wrong with the kind of a shape that is given an attribute. -/
def Attribute.kindObjections (id : ShapeId) : Attribute → List Objection
  | .fontSize _ => [.noText id]
  | .fontWeight _ => [.noText id]
  | _ => []

/-- **What may be wrong with a change**, in the order in which a document looks for it. -/
def Edit.objections : Edit → List Objection
  | .set id a => a.quantities.map .number ++ .missing id :: a.kindObjections id
  | .append parent child =>
    [.missing child, .itself parent child, .missing parent, .noBoard parent]

namespace Objection
variable {d : Document} {o : Objection} {os : List Objection} {e : CanvasError}

/-- The result of looking for objections. -/
def verdict (d : Document) (os : List Objection) : Except CanvasError Unit :=
  match first? d os with
  | none => .ok ()
  | some o => .error o.error

@[simp] theorem verdict_nil : verdict d [] = .ok () := rfl

theorem verdict_cons : verdict d (o :: os) =
    if o.Holds d then .error o.error else verdict d os := by
  unfold verdict first?
  rw [List.find?_cons]
  by_cases h : o.Holds d <;> simp [h]

theorem verdict_append (os os' : List Objection) :
    verdict d (os ++ os') = verdict d os >>= fun _ => verdict d os' := by
  induction os with
  | nil => rfl
  | cons o os ih =>
    rw [List.cons_append, verdict_cons, verdict_cons, ih]
    split_ifs <;> rfl

theorem verdict_numbers (ms : List Quantity) :
    verdict d (ms.map .number) = Quantity.checkAll ms := by
  induction ms with
  | nil => rfl
  | cons m ms ih =>
    rw [List.map_cons, verdict_cons, ih]
    by_cases h : m.Accepted
    · have hno : ¬ (number m).Holds d := not_not.mpr h
      rw [if_neg hno, Quantity.checkAll_cons_of_accepted h]
    · have hyes : (number m).Holds d := h
      rw [if_pos hyes, Quantity.checkAll_cons_of_not_accepted h]; rfl

theorem verdict_eq_ok : verdict d os = .ok () ↔ ∀ o ∈ os, ¬ o.Holds d := by
  unfold verdict
  cases h : first? d os with
  | none => simpa [first?] using h
  | some o =>
    have hmem : o ∈ os := List.mem_of_find?_eq_some h
    have hholds : o.Holds d := by simpa using List.find?_some h
    simp only [reduceCtorEq, false_iff]
    exact fun hall => hall o hmem hholds

theorem verdict_eq_error : verdict d os = .error e ↔ ∃ o, first? d os = some o ∧ o.error = e := by
  unfold verdict
  cases first? d os <;> simp

end Objection

/-! ### When a change is refused -/

namespace Document

open Objection (verdict verdict_cons verdict_nil verdict_append verdict_numbers)

variable {d : Document} {id : ShapeId} {a : Attribute}

/-- A shape that is no text is refused font attributes. -/
theorem verdict_noText (hd : WellFormed d) {s : Shape} (hs : d.get? id = some s) :
    verdict d [.noText id] = if s.isText then .ok () else .error (notText s.id) := by
  rw [verdict_cons, verdict_nil, hd.own_id id s hs]
  cases h : s.isText <;> simp [Objection.Holds, Objection.error, notText, hs, h]

theorem setAttribute_map_eq (hd : WellFormed d) {s : Shape} (hs : d.get? id = some s) :
    (setAttribute s a).map (fun _ => ()) = verdict d (a.kindObjections id) := by
  cases a with
  | fontSize size =>
    refine Eq.trans ?_ (verdict_noText hd hs).symm
    cases hk : s.kind <;> simp [setAttribute, Shape.isText, Shape.content?, hk, Except.map]
  | fontWeight weight =>
    refine Eq.trans ?_ (verdict_noText hd hs).symm
    cases hk : s.kind <;> simp [setAttribute, Shape.isText, Shape.content?, hk, Except.map]
  | _ => rfl

/-- An attribute is looked at in three parts: its numbers, the shape, and the kind of the shape. -/
theorem set_map_eq (hd : WellFormed d) :
    (d.set id a).map (fun _ => ()) = verdict d (Edit.set id a).objections := by
  rw [Edit.objections, verdict_append, verdict_cons, verdict_numbers, ← checkNumbers_eq, set]
  cases checkNumbers a with
  | error e => rfl
  | ok _ =>
    show _ = if d.get? id = none then Except.error (CanvasError.shapeNotFound id) else _
    cases hs : d.get? id with
    | none => rfl
    | some s =>
      rw [if_neg (by simp), ← setAttribute_map_eq hd hs]
      simp only
      cases setAttribute s a <;> rfl

theorem append_map_eq (d : Document) (parent child : ShapeId) :
    (d.append parent child).map (fun _ => ()) =
      verdict d (Edit.append parent child).objections := by
  simp only [Edit.objections, verdict_cons, verdict_nil, Objection.Holds, Objection.error, append]
  obtain hc | ⟨c, hc⟩ := Option.eq_none_or_eq_some (d.get? child)
  · simp [hc, Except.map]
  · by_cases hne : parent = child
    · simp [hne, hc, Except.map]
    · obtain hp | ⟨p, hp⟩ := Option.eq_none_or_eq_some (d.get? parent)
      · simp [hne, hc, hp, Except.map]
      · cases hb : p.isContainer <;> simp [hne, hc, hp, hb, Except.map]

/-- **A change is refused with the first objection that holds, and made if none does.** -/
theorem edit_map_eq (hd : WellFormed d) (c : Edit) :
    (d.edit c).map (fun _ => ()) = verdict d c.objections := by
  cases c with
  | set id a => exact set_map_eq hd
  | append parent child => exact append_map_eq d parent child

end Document

/-! ### Attributes of shapes -/

/-- What an attribute is about. -/
inductive Aspect
  | name
  | position
  | size
  | fills
  | strokes
  | borderRadius
  | fontSize
  | fontWeight
  deriving DecidableEq, Repr

/-- What an attribute is about. -/
def Attribute.aspect : Attribute → Aspect
  | .name _ => .name
  | .position _ _ => .position
  | .size _ _ => .size
  | .fills _ => .fills
  | .strokes _ => .strokes
  | .borderRadius _ => .borderRadius
  | .fontSize _ => .fontSize
  | .fontWeight _ => .fontWeight

namespace ShapeKind

/-- The font size and the font weight of a text. -/
def font : ShapeKind → Option Float × Option String
  | .text _ fontSize fontWeight => (fontSize, fontWeight)
  | _ => (none, none)

/-- The kind without the attributes that only texts have. -/
def bare : ShapeKind → ShapeKind
  | .text content _ _ => .text content none none
  | kind => kind

theorem eq_of_bare {k k' : ShapeKind} (hbare : k.bare = k'.bare) (hfont : k.font = k'.font) :
    k = k' := by
  cases k <;> cases k' <;> simp_all [bare, font]

end ShapeKind

/-- The attribute that a shape has in an aspect, if it has one there. -/
def Shape.attribute? (s : Shape) : Aspect → Option Attribute
  | .name => some (.name s.name)
  | .position => some (.position s.geometry.x s.geometry.y)
  | .size => some (.size s.geometry.width s.geometry.height)
  | .fills => some (.fills s.fills)
  | .strokes => some (.strokes s.strokes)
  | .borderRadius => s.borderRadius.map .borderRadius
  | .fontSize => s.kind.font.1.map .fontSize
  | .fontWeight => s.kind.font.2.map .fontWeight

/-- **A shape has got an attribute**, and all else of it is as it was. -/
structure Reattributed (a : Attribute) (s t : Shape) : Prop where
  given : t.attribute? a.aspect = some a
  others : ∀ x, x ≠ a.aspect → t.attribute? x = s.attribute? x
  id : t.id = s.id
  kind : t.kind.bare = s.kind.bare
  parent : t.parent = s.parent
  children : t.children = s.children

/-- **A shape is made of its attributes**, its id, its kind and its links. -/
theorem Shape.eq_of_attributes {s t : Shape} (h : ∀ x, s.attribute? x = t.attribute? x)
    (hid : s.id = t.id) (hkind : s.kind.bare = t.kind.bare) (hparent : s.parent = t.parent)
    (hchildren : s.children = t.children) : s = t := by
  obtain ⟨id, name, kind, ⟨x, y, width, height⟩, fills, strokes, radius, parent, children⟩ := s
  obtain ⟨id', name', kind', ⟨x', y', width', height'⟩, fills', strokes', radius', parent',
    children'⟩ := t
  have hname : some (Attribute.name name) = some (.name name') := h .name
  have hposition : some (Attribute.position x y) = some (.position x' y') := h .position
  have hsize : some (Attribute.size width height) = some (.size width' height') := h .size
  have hfills : some (Attribute.fills fills) = some (.fills fills') := h .fills
  have hstrokes : some (Attribute.strokes strokes) = some (.strokes strokes') := h .strokes
  have hradius : radius = radius' :=
    Option.map_injective (fun _ _ => Attribute.borderRadius.inj) (h .borderRadius)
  have hkinds : kind = kind' := ShapeKind.eq_of_bare hkind <| Prod.ext
    (Option.map_injective (fun _ _ => Attribute.fontSize.inj) (h .fontSize))
    (Option.map_injective (fun _ _ => Attribute.fontWeight.inj) (h .fontWeight))
  cases hname; cases hposition; cases hsize; cases hfills; cases hstrokes
  cases hradius; cases hkinds; cases hid; cases hparent; cases hchildren
  rfl

theorem reattributed_of_setAttribute {s t : Shape} {a : Attribute}
    (h : Document.setAttribute s a = .ok t) : Reattributed a s t := by
  cases a
  case fontSize size =>
    cases hk : s.kind <;> simp only [Document.setAttribute, hk] at h <;> cases h
    refine ⟨rfl, fun x hx => ?_, rfl, by rw [hk]; rfl, rfl, rfl⟩
    cases x <;> first | exact absurd rfl hx | simp [Shape.attribute?, ShapeKind.font, hk]
  case fontWeight weight =>
    cases hk : s.kind <;> simp only [Document.setAttribute, hk] at h <;> cases h
    refine ⟨rfl, fun x hx => ?_, rfl, by rw [hk]; rfl, rfl, rfl⟩
    cases x <;> first | exact absurd rfl hx | simp [Shape.attribute?, ShapeKind.font, hk]
  all_goals
    cases h
    refine ⟨rfl, fun x hx => ?_, rfl, rfl, rfl, rfl⟩
    cases x <;> first | exact absurd rfl hx | rfl

/-! ### Attaching in place -/

/-- Changes of a document one after the other, up to an error. What was changed before an error
stays. -/
abbrev InPlace := ExceptT CanvasError (StateM Document)

namespace InPlace

/-- The shape with an id, or the refusal of this id. -/
def shape (id : ShapeId) : InPlace Shape := do
  match (← get).get? id with
  | some s => pure s
  | none => throw (.shapeNotFound id)

/-- Changes the shape with an id, if there is one. -/
def change (id : ShapeId) (f : Shape → Shape) : InPlace Unit := modify (Document.modify id f)

/-- Changes the shape with an id, if an id is given. -/
def changeAt (id : Option ShapeId) (f : Shape → Shape) : InPlace Unit :=
  match id with
  | some id => change id f
  | none => pure ()

/-- Takes a child from its parent and gives it to a new one, with a look-up before each change. -/
def relink (parent child : ShapeId) : InPlace Unit := do
  let c ← shape child
  change child fun s => { s with parent := none }
  changeAt c.parent fun s => { s with children := s.children.filter (· ≠ child) }
  change parent fun s => { s with children := s.children ++ [child] }
  let _ ← shape child
  change child fun s => { s with parent := some parent }

/-- **Attaching, look-up by look-up**: all that is known before a change is looked up again. -/
def append (parent child : ShapeId) : InPlace Unit := do
  let _ ← shape child
  if parent = child then throw (.invalidParent parent) else do
    let p ← shape parent
    if p.isContainer then relink parent child else throw (.invalidParent parent)

/-- The result of a change in place, and the document after it. -/
def outcome {α : Type} (x : InPlace α) (d : Document) : Except CanvasError α × Document :=
  StateT.run x.run d

section Outcome
variable (d : Document) (id : ShapeId)

theorem outcome_bind {α β : Type} (x : InPlace α) (f : α → InPlace β) :
    (x >>= f).outcome d = match x.outcome d with
      | (.ok a, e) => (f a).outcome e
      | (.error error, e) => (.error error, e) := by
  show StateT.run (ExceptT.run x >>= ExceptT.bindCont f) d = _
  unfold outcome
  rw [StateT.run_bind]
  show ExceptT.bindCont f (StateT.run x.run d).1 (StateT.run x.run d).2 = _
  rcases StateT.run x.run d with ⟨_ | a, e⟩ <;> rfl

theorem outcome_shape : (shape id).outcome d = match d.get? id with
    | some s => (.ok s, d)
    | none => (.error (.shapeNotFound id), d) := by
  show outcome (get >>= _) d = _
  rw [outcome_bind]
  show outcome (match d.get? id with | some s => pure s | none => throw (.shapeNotFound id)) d = _
  cases d.get? id <;> rfl

theorem outcome_change (f : Shape → Shape) :
    (change id f).outcome d = (.ok (), d.modify id f) := rfl

theorem outcome_changeAt (id : Option ShapeId) (f : Shape → Shape) :
    (changeAt id f).outcome d = (.ok (), id.elim d fun id => d.modify id f) := by
  cases id <;> rfl

end Outcome

end InPlace

namespace Store

@[simp] theorem ids_modify (s : Store) (id : ShapeId) (f : Shape → Shape) :
    (s.modify id f).ids = s.ids := by
  have h : ∀ e : ShapeId × Shape, (if e.1 = id then (e.1, f e.2) else e).1 = e.1 := by
    intro e; split <;> rfl
  simp [ids, modify, h]

theorem eq_of_lookup : ∀ {es fs : List (ShapeId × Shape)}, (es.map Prod.fst).Nodup →
    es.map Prod.fst = fs.map Prod.fst → (∀ id, es.lookup id = fs.lookup id) → es = fs
  | [], fs, _, hkeys, _ => (List.map_eq_nil_iff.mp hkeys.symm).symm
  | _ :: _, [], _, hkeys, _ => by cases hkeys
  | (id, a) :: es, (id', b) :: fs, hnodup, hkeys, hlookup => by
    obtain ⟨hid, htails⟩ := List.cons.inj hkeys
    obtain ⟨hnot, hnodup⟩ := List.nodup_cons.mp hnodup
    simp only at hid hnot
    subst hid
    have hvalue : a = b := by simpa using hlookup id
    have htail : es = fs := eq_of_lookup hnodup htails fun j => by
      by_cases hj : j = id
      · -- the first key occurs in neither tail
        have hnone : ∀ {gs : List (ShapeId × Shape)}, id ∉ gs.map Prod.fst →
            gs.lookup id = none := fun {gs} h => by
          rwa [mem_map_fst, not_exists, ← Option.eq_none_iff_forall_ne_some] at h
        rw [hj, hnone hnot, hnone (htails ▸ hnot)]
      · have := hlookup j
        rwa [List.lookup_cons, List.lookup_cons, beq_eq_false_iff_ne.mpr hj] at this
    rw [hvalue, htail]

/-- Stores with the same shapes under the same ids in the same order are the same. -/
theorem eq_of_get? {s t : Store} (hids : s.ids = t.ids) (hget : ∀ id, s.get? id = t.get? id) :
    s = t := by
  have hentries : s.entries = t.entries := eq_of_lookup s.nodup hids hget
  cases s; cases t; cases hentries; rfl

end Store

namespace Document

/-- Documents with the same shapes that agree in all else are the same. -/
theorem eq_of_get? {d e : Document} (hkeys : d.store.ids = e.store.ids)
    (hget : ∀ id, d.get? id = e.get? id) (hids : d.ids = e.ids) (hcreated : d.created = e.created)
    (horder : d.order = e.order) (hviewport : d.viewport = e.viewport) : d = e := by
  have hstore : d.store = e.store := Store.eq_of_get? hkeys hget
  cases d; cases e; cases hstore; cases hids; cases hcreated; cases horder; cases hviewport; rfl

theorem keys_attach (d : Document) (parent child : ShapeId) :
    (d.attach parent child).store.ids = d.store.ids := by
  unfold attach detach
  cases d.parent? child <;> simp [modify]

theorem get?_modifyAt (d : Document) (id : Option ShapeId) (f : Shape → Shape) (j : ShapeId) :
    (id.elim d fun id => d.modify id f).get? j =
      if id = some j then (d.get? j).map f else d.get? j := by
  cases id with
  | none => simp
  | some id => simp [get?_modify, eq_comm]

/-- **A child that is there can be relinked**, and then it is attached. -/
theorem outcome_relink {d : Document} {child : ShapeId} {c : Shape} (parent : ShapeId)
    (hc : d.get? child = some c) :
    (InPlace.relink parent child).outcome d = (.ok (), d.attach parent child) := by
  have hparent : d.parent? child = c.parent := parent?_of_get? hc
  simp only [InPlace.relink, InPlace.outcome_bind, InPlace.outcome_shape, hc,
    InPlace.outcome_change, InPlace.outcome_changeAt]
  generalize he : modify parent _ _ = e
  have hget : ∀ j, (e.modify child fun s => { s with parent := some parent }).get? j =
      (d.attach parent child).get? j := fun j => by
    rw [← he, get?_modify, get?_modify, get?_modifyAt, get?_modify, get?_attach, hparent]
    cases hj : d.get? j with
    | none => split_ifs <;> rfl
    | some s => split_ifs <;> simp_all [relinked]
  obtain ⟨s, hs⟩ : ∃ s, e.get? child = some s := by
    have := hget child
    rw [get?_modify, get?_attach, hc] at this
    cases h : e.get? child with
    | none => simp [h] at this
    | some s => exact ⟨s, rfl⟩
  have hsame : (e.modify child fun s => { s with parent := some parent }) =
      d.attach parent child := by
    refine eq_of_get? ?_ hget ?_ ?_ ?_ ?_
    all_goals
      rw [← he]
      cases c.parent <;> simp [modify, keys_attach]
  rw [hs]
  simp only
  rw [hsame]

/-- **No look-up fails once something was changed**, so a refused attachment changes nothing. -/
theorem inPlace_append (parent child : ShapeId) (d : Document) :
    (InPlace.append parent child).outcome d = canvas.edit (.append parent child) d := by
  simp only [InPlace.append, canvas, edit, append, InPlace.outcome_bind, InPlace.outcome_shape]
  cases hc : d.get? child with
  | none => rfl
  | some c =>
    by_cases hne : parent = child
    · simp only [if_pos hne]; rfl
    · simp only [if_neg hne, InPlace.outcome_bind, InPlace.outcome_shape]
      cases d.get? parent with
      | none => rfl
      | some p =>
        cases hb : p.isContainer with
        | false => simp only [hb]; rfl
        | true => simp only [hb, if_true, outcome_relink parent hc]

/-! ### What becomes of a call -/

theorem canvas_edit_fst (d : Document) (c : Edit) :
    (canvas.edit c d).1 = (d.edit c).map fun _ => () := by
  simp only [canvas]; cases d.edit c <;> rfl

theorem canvas_edit_eq_ok {d e : Document} {c : Edit} {u : Unit} :
    canvas.edit c d = (.ok u, e) ↔ d.edit c = .ok e := by
  simp only [canvas]; cases d.edit c <;> simp

theorem canvas_edit_eq_error {d e : Document} {c : Edit} {error : CanvasError} :
    canvas.edit c d = (.error error, e) ↔ d.edit c = .error error ∧ e = d := by
  simp only [canvas]; cases d.edit c <;> simp [eq_comm]

theorem reattributed_of_set {d e : Document} {id : ShapeId} {a : Attribute}
    (h : d.edit (.set id a) = .ok e) :
    ∃ s t, d.get? id = some s ∧ e.get? id = some t ∧ Reattributed a s t ∧ ChangesOnly id d e := by
  obtain ⟨-, s, t, hs, ht, rfl⟩ := set_eq_ok.mp h
  refine ⟨s, t, hs, ?_, reattributed_of_setAttribute ht, fun j hj => ?_, rfl, rfl⟩
  · rw [get?_modify, if_pos rfl, hs]; rfl
  · rw [get?_modify, if_neg hj]

/-- **What becomes of every call**, after every run from an empty document. A shape is always
created. A change is refused with the first objection that holds, and only then; a refused change
leaves the document as it is, also where it is made in place. An accepted attribute is then the one
of its shape, and nothing else differs. -/
theorem changes_run (ids : IdSupply) (v : Viewport) (steps : List Step) :
    let d := (new ids v).run steps
    (∀ p, (canvas.create p d).1 = .ok d.nextId) ∧
      (∀ c error, (canvas.edit c d).1 = .error error ↔
        ∃ o, Objection.first? d c.objections = some o ∧ o.error = error) ∧
      (∀ c, (canvas.edit c d).1 = .ok () ↔ ∀ o ∈ c.objections, ¬ o.Holds d) ∧
      (∀ c error e, canvas.edit c d = (.error error, e) → e = d) ∧
      (∀ parent child,
        (InPlace.append parent child).outcome d = canvas.edit (.append parent child) d) ∧
      ∀ id a e, canvas.edit (.set id a) d = (.ok (), e) →
        ∃ s t, d.get? id = some s ∧ e.get? id = some t ∧ Reattributed a s t ∧
          ChangesOnly id d e := by
  intro d
  have hd : WellFormed d := (wellFormed_new ids v).run steps
  refine ⟨fun _ => rfl, fun c error => ?_, fun c => ?_, fun c error e h => ?_,
    fun parent child => ?_, fun id a e h => ?_⟩
  · rw [canvas_edit_fst, edit_map_eq hd, Objection.verdict_eq_error]
  · rw [canvas_edit_fst, edit_map_eq hd, Objection.verdict_eq_ok]
  · exact (canvas_edit_eq_error.mp h).2
  · exact inPlace_append parent child d
  · exact reattributed_of_set (canvas_edit_eq_ok.mp h)

/-- A font size is looked at before its shape, and the shape before its kind. -/
example (id : ShapeId) (x : Float) : (Edit.set id (.fontSize x)).objections =
    [.number (.extent "fontSize" x), .missing id, .noText id] := rfl

end Document

end Artboard
