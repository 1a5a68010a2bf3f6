import Artboard.Document.Snapshot
import Mathlib.Data.List.Induction

/-! # What a step changes

A document is looked at through `get?`, `parent?` and `order`. This module says once what each
operation does to them, and what a step can do to a document at all.

* `get?_create`, `get?_modify`, `get?_attach`: the shapes after an operation.
* `set_eq_ok`, `append_eq_ok`: when a change is accepted, and the document after it.
* `setAttribute_eq_ok`: an attribute leaves id, links and kind as they are.
* `Change`: the ways in which a step can change a document; `change_step`: there are no others. -/

namespace Artboard.Document

/-- The id of the next shape that is created. -/
def nextId (d : Document) : ShapeId := d.ids.id d.created

/-! ### Creations and modifications -/

section Fields
variable (d : Document) (p : Primitive) (id j : ShapeId) (f : Shape → Shape)

@[simp] theorem order_create : (d.create p).2.order = d.order ++ [d.nextId] := rfl

@[simp] theorem created_create : (d.create p).2.created = d.created + 1 := rfl

@[simp] theorem ids_create : (d.create p).2.ids = d.ids := rfl

@[simp] theorem viewport_create : (d.create p).2.viewport = d.viewport := rfl

theorem get?_create : (d.create p).2.get? j =
    if j = d.nextId then some (.detached d.nextId p.kind) else d.get? j :=
  d.store.get?_insert _ _ _

theorem get?_create_self :
    (d.create p).2.get? d.nextId = some (.detached d.nextId p.kind) := by
  rw [get?_create, if_pos rfl]

theorem get?_modify : (d.modify id f).get? j = if j = id then (d.get? j).map f else d.get? j :=
  d.store.get?_modify _ _ _

end Fields

theorem parent?_eq_some {d : Document} {id p : ShapeId} :
    d.parent? id = some p ↔ ∃ s, d.get? id = some s ∧ s.parent = some p := Option.bind_eq_some_iff

theorem parent?_of_get? {d : Document} {id : ShapeId} {s : Shape} (h : d.get? id = some s) :
    d.parent? id = s.parent := by rw [parent?, h]; rfl

/-- A new shape has no parent, as nothing had that could have stood in its place. -/
theorem parent?_create {d : Document} (h : d.get? d.nextId = none) (p : Primitive) (j : ShapeId) :
    (d.create p).2.parent? j = d.parent? j := by
  rw [parent?, parent?, get?_create]
  split_ifs with hj
  · rw [hj, h]; rfl
  · rfl

/-! ### Attaching -/

/-- A shape under `id` after `child` has gone from the parent `old` to `parent`. -/
def relinked (old : Option ShapeId) (parent child id : ShapeId) (s : Shape) : Shape :=
  { s with
    parent := if id = child then some parent else s.parent
    children := (if old = some id then s.children.filter (· ≠ child) else s.children)
      ++ if id = parent then [child] else [] }

theorem get?_detach (d : Document) (child j : ShapeId) :
    (d.detach child).get? j = (d.get? j).map fun s => { s with
      children :=
        if d.parent? child = some j then s.children.filter (· ≠ child) else s.children } := by
  unfold detach
  cases d.parent? child with
  | none => cases d.get? j <;> rfl
  | some old =>
    rw [get?_modify]
    by_cases h : j = old
    · simp [h]
    · have h' : ¬ old = j := fun e => h e.symm
      simp [h, h']

theorem get?_attach (d : Document) (parent child j : ShapeId) :
    (d.attach parent child).get? j =
      (d.get? j).map (relinked (d.parent? child) parent child j) := by
  unfold attach
  rw [get?_modify, get?_modify, get?_detach]
  cases d.get? j with
  | none => simp
  | some s =>
    unfold relinked
    by_cases hc : j = child
    · subst hc
      by_cases hp : j = parent <;> simp [hp]
    · by_cases hp : j = parent
      · subst hp; simp [hc]
      · simp [hp, hc]

section Detach
variable (d : Document) (parent child : ShapeId)

@[simp] theorem order_attach : (d.attach parent child).order = d.order := by
  unfold attach detach; cases d.parent? child <;> rfl

@[simp] theorem created_attach : (d.attach parent child).created = d.created := by
  unfold attach detach; cases d.parent? child <;> rfl

@[simp] theorem ids_attach : (d.attach parent child).ids = d.ids := by
  unfold attach detach; cases d.parent? child <;> rfl

@[simp] theorem viewport_attach : (d.attach parent child).viewport = d.viewport := by
  unfold attach detach; cases d.parent? child <;> rfl

end Detach

/-- The child of an attachment has the new parent, all other shapes the one they had. -/
theorem parent?_attach {d : Document} {child : ShapeId} {c : Shape} (parent : ShapeId)
    (hc : d.get? child = some c) (j : ShapeId) :
    (d.attach parent child).parent? j = if j = child then some parent else d.parent? j := by
  rw [parent?, get?_attach]
  by_cases h : j = child
  · subst h; simp [hc, relinked]
  · rw [if_neg h, parent?.eq_1 d j]; cases d.get? j <;> simp [relinked, h]

/-! ### When a change is accepted -/

theorem setAttribute_eq_ok {s t : Shape} {a : Attribute} (h : setAttribute s a = .ok t) :
    t.id = s.id ∧ t.parent = s.parent ∧ t.children = s.children ∧
      t.isContainer = s.isContainer := by
  cases a
  case fontSize size =>
    cases hk : s.kind <;> simp only [setAttribute, hk] at h <;> cases h
    simp [Shape.isContainer, hk]
  case fontWeight weight =>
    cases hk : s.kind <;> simp only [setAttribute, hk] at h <;> cases h
    simp [Shape.isContainer, hk]
  all_goals cases h; exact ⟨rfl, rfl, rfl, rfl⟩

/-- An attribute changes no parents. -/
theorem parent?_set {d : Document} {id : ShapeId} {a : Attribute} {s t : Shape}
    (hs : d.get? id = some s) (ht : setAttribute s a = .ok t) (j : ShapeId) :
    (d.modify id fun _ => t).parent? j = d.parent? j := by
  rw [parent?, get?_modify]
  split_ifs with h
  · rw [h, hs, parent?_of_get? hs]; exact (setAttribute_eq_ok ht).2.1
  · rfl

theorem set_eq_ok {d e : Document} {id : ShapeId} {a : Attribute} :
    d.set id a = .ok e ↔ checkNumbers a = .ok () ∧
      ∃ s t, d.get? id = some s ∧ setAttribute s a = .ok t ∧ e = d.modify id fun _ => t := by
  unfold set
  cases checkNumbers a with
  | error _ => simp
  | ok _ =>
    cases d.get? id with
    | none => simp
    | some s => cases h : setAttribute s a <;> simp [h, eq_comm]

theorem append_eq_ok {d e : Document} {parent child : ShapeId} :
    d.append parent child = .ok e ↔ (∃ c, d.get? child = some c) ∧ parent ≠ child ∧
      (∃ p, d.get? parent = some p ∧ p.isContainer = true) ∧ e = d.attach parent child := by
  unfold append
  cases d.get? child with
  | none => simp
  | some c =>
    by_cases h : parent = child
    · simp [h]
    · cases hp : d.get? parent with
      | none => simp [h]
      | some p =>
        have hok : Except.ok (d.attach parent child) = Except.ok (ε := CanvasError) e ↔
            e = d.attach parent child := by rw [Except.ok.injEq]; exact eq_comm
        cases hk : p.isContainer <;> simp [h, hk, hok]

/-- A change creates no shapes. -/
theorem order_edit {d e : Document} {c : Edit} (h : d.edit c = .ok e) :
    e.ids = d.ids ∧ e.created = d.created ∧ e.order = d.order := by
  cases c with
  | set id a =>
    obtain ⟨-, s, t, -, -, rfl⟩ := set_eq_ok.mp h
    exact ⟨rfl, rfl, rfl⟩
  | append parent child =>
    obtain ⟨-, -, -, rfl⟩ := append_eq_ok.mp h
    exact ⟨ids_attach .., created_attach .., order_attach ..⟩

/-- A shape has the parent that it had, unless it was attached. -/
theorem parent?_edit {d e : Document} {c : Edit} (h : d.edit c = .ok e) (j : ShapeId) :
    e.parent? j = d.parent? j ∨ ∃ p, c = .append p j ∧ e.parent? j = some p := by
  cases c with
  | set id a =>
    obtain ⟨-, s, t, hs, ht, rfl⟩ := set_eq_ok.mp h
    exact .inl (parent?_set hs ht j)
  | append parent child =>
    obtain ⟨⟨c, hc⟩, -, -, rfl⟩ := append_eq_ok.mp h
    rw [parent?_attach parent hc]
    split_ifs with hj
    · exact .inr ⟨parent, by rw [hj], rfl⟩
    · exact .inl rfl

/-! ### Steps -/

/-- **What a step can do**, as a relation between the documents before and after it. -/
inductive Change (d : Document) : Step → Document → Prop
  /-- A shape is created. -/
  | create (p : Primitive) : Change d (.call (.create p)) (d.create p).2
  /-- A shape that is there gets an attribute. -/
  | set {id : ShapeId} {a : Attribute} {s t : Shape} (ok : checkNumbers a = .ok ())
      (found : d.get? id = some s) (given : setAttribute s a = .ok t) :
      Change d (.call (.edit (.set id a))) (d.modify id fun _ => t)
  /-- A shape goes to a board that it is not itself. -/
  | attach {parent child : ShapeId} {p c : Shape} (child_found : d.get? child = some c)
      (ne : parent ≠ child) (parent_found : d.get? parent = some p) (board : p.isContainer = true) :
      Change d (.call (.edit (.append parent child))) (d.attach parent child)
  /-- A change is refused. -/
  | refused {e : Edit} {error : CanvasError} (refused : d.edit e = .error error) :
      Change d (.call (.edit e)) d
  /-- All shapes are removed. -/
  | clear : Change d .clear d.clear
  /-- The viewport is moved. -/
  | look (v : Viewport) : Change d (.look v) (d.look v)

theorem step_edit (d : Document) (c : Edit) :
    d.step (.call (.edit c)) = match d.edit c with | .ok e => e | .error _ => d := by
  simp only [step, canvas]; cases d.edit c <;> rfl

theorem change_edit {d e : Document} {c : Edit} (h : d.edit c = .ok e) :
    Change d (.call (.edit c)) e := by
  cases c with
  | set id a =>
    obtain ⟨hn, s, t, hs, ht, rfl⟩ := set_eq_ok.mp h
    exact .set hn hs ht
  | append parent child =>
    obtain ⟨⟨c, hc⟩, hne, ⟨p, hp, hb⟩, rfl⟩ := append_eq_ok.mp h
    exact .attach hc hne hp hb

theorem change_step (d : Document) (s : Step) : Change d s (d.step s) := by
  cases s with
  | call c =>
    cases c with
    | create p => exact .create p
    | edit c =>
      rw [step_edit]
      cases h : d.edit c with
      | ok e => exact change_edit h
      | error e => exact .refused h
  | clear => exact .clear
  | look v => exact .look v

/-! ### Runs -/

theorem run_append (d : Document) (before after : List Step) :
    d.run (before ++ after) = (d.run before).run after := List.foldl_append

theorem run_concat (d : Document) (before : List Step) (s : Step) :
    d.run (before ++ [s]) = (d.run before).step s := by rw [run_append]; rfl

/-- **What every step keeps is kept by runs.** -/
theorem run_induction {P : Document → Prop} (hstep : ∀ d s e, P d → Change d s e → P e)
    {d : Document} (hd : P d) (steps : List Step) : P (d.run steps) := by
  induction steps using List.reverseRecOn with
  | nil => exact hd
  | append_singleton before s ih => rw [run_concat]; exact hstep _ s _ ih (change_step _ s)

end Artboard.Document
