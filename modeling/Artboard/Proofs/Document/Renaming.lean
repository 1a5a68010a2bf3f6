import Artboard.Proofs.Canvas.Renaming
import Artboard.Proofs.Document.WellFormed
import Mathlib.Data.List.Basic

/-! # Documents that differ in their ids only

A plan that is carried out on a document with old shapes does what it does on an empty document,
with other ids and beside the old shapes.

* `Shape.rename`: a shape with other ids, those of its links included.
* `Copies`: a document has all shapes of another under other ids, and old shapes besides.
* `copies_new`: each document has a copy of an empty one.
* `Copies.create`, `Copies.edit`, `Copies.run`: calls and plans, accepted or refused, keep a copy.
* `Copies.shapes`: the shapes are the old ones and then the copied ones. -/

namespace Artboard

/-- The shape with other ids. -/
def Shape.rename (ρ : ShapeId → ShapeId) (s : Shape) : Shape :=
  { s with id := ρ s.id, parent := s.parent.map ρ, children := s.children.map ρ }

theorem Shape.rename_rename (ρ τ : ShapeId → ShapeId) (s : Shape) :
    (s.rename ρ).rename τ = s.rename (τ ∘ ρ) := by
  simp [rename, Function.comp_def]

namespace Document

section Attributes
variable {ρ : ShapeId → ShapeId} {s t : Shape} {a : Attribute} {e : CanvasError}

theorem setAttribute_rename (h : setAttribute s a = .ok t) :
    setAttribute (s.rename ρ) a = .ok (t.rename ρ) := by
  cases a
  case fontSize size =>
    cases hk : s.kind <;> simp only [setAttribute, hk] at h <;> cases h
    simp only [setAttribute, Shape.rename, hk]
  case fontWeight weight =>
    cases hk : s.kind <;> simp only [setAttribute, hk] at h <;> cases h
    simp only [setAttribute, Shape.rename, hk]
  all_goals cases h; rfl

theorem setAttribute_rename_error (h : setAttribute s a = .error e) :
    ∃ e', setAttribute (s.rename ρ) a = .error e' := by
  cases a
  case fontSize size =>
    cases hk : s.kind <;> simp only [setAttribute, hk] at h <;> cases h <;>
      simp only [setAttribute, Shape.rename, hk] <;> exact ⟨_, rfl⟩
  case fontWeight weight =>
    cases hk : s.kind <;> simp only [setAttribute, hk] at h <;> cases h <;>
      simp only [setAttribute, Shape.rename, hk] <;> exact ⟨_, rfl⟩
  all_goals cases h

end Attributes

/-- **A document has a copy of another**, under ids that `ρ` gives, beside old shapes. -/
structure Copies (ρ : ShapeId → ShapeId) (old x d : Document) : Prop where
  injective : Function.Injective ρ
  /-- The ids to come are those to come in the other document. -/
  coming : ∀ n, ρ (x.ids.id (x.created + n)) = d.ids.id (d.created + n)
  order : d.order = old.order ++ x.order.map ρ
  viewport : d.viewport = x.viewport
  copied : ∀ id, d.get? (ρ id) = (x.get? id).map (Shape.rename ρ)
  kept : ∀ j, (∀ id, j ≠ ρ id) → d.get? j = old.get? j

/-- The ids that a document gives to the shapes to come, in order. -/
def coming (d : Document) (id : ShapeId) : ShapeId := d.ids.id (d.created + id.number)

/-- **Each document has a copy of an empty one.** -/
theorem copies_new {d : Document} (hd : Indexed d) :
    Copies d.coming d (new (.from 0) d.viewport) d where
  injective a b h := by
    have hnumber := d.ids.distinct _ _ h
    exact congrArg ShapeId.mk (Nat.add_left_cancel hnumber)
  coming n := by
    show d.ids.id (d.created + (0 + (0 + n))) = _
    rw [Nat.zero_add, Nat.zero_add]
  order := (List.append_nil _).symm
  viewport := rfl
  copied id := hd.fresh _ (Nat.le_add_right _ _)
  kept _ _ := rfl

namespace Copies

variable {ρ : ShapeId → ShapeId} {old x y d e : Document}

theorem nextId (h : Copies ρ old x d) : d.nextId = ρ x.nextId := (h.coming 0).symm

/-- A new shape is copied. -/
theorem create (h : Copies ρ old x d) (p : Primitive) :
    Copies ρ old (x.create p).2 (d.create p).2 where
  injective := h.injective
  coming n := by
    have hcoming := h.coming (n + 1)
    rw [← Nat.add_assoc, ← Nat.add_assoc, Nat.add_right_comm,
      Nat.add_right_comm d.created] at hcoming
    exact hcoming
  order := by
    rw [order_create, order_create, h.order, h.nextId, List.map_append, List.append_assoc]; rfl
  viewport := h.viewport
  copied id := by
    rw [get?_create, get?_create, h.nextId]
    by_cases hid : id = x.nextId
    · rw [if_pos hid, if_pos (congrArg ρ hid)]; rfl
    · rw [if_neg hid, if_neg fun heq => hid (h.injective heq), h.copied]
  kept j hj := by
    rw [get?_create, h.nextId, if_neg (hj _), h.kept j hj]

/-- A shape and its copy that are changed alike stay copies. -/
theorem modify (h : Copies ρ old x d) {id : ShapeId} {f g : Shape → Shape}
    (hfg : ∀ s, x.get? id = some s → g (s.rename ρ) = (f s).rename ρ) :
    Copies ρ old (x.modify id f) (d.modify (ρ id) g) where
  injective := h.injective
  coming := h.coming
  order := h.order
  viewport := h.viewport
  copied j := by
    rw [get?_modify, get?_modify, h.copied]
    by_cases hj : j = id
    · rw [if_pos hj, if_pos (congrArg ρ hj), hj]
      cases hs : x.get? id with
      | none => rfl
      | some s => exact congrArg some (hfg s hs)
    · rw [if_neg hj, if_neg fun heq => hj (h.injective heq)]
  kept j hj := by rw [get?_modify, if_neg (hj id), h.kept j hj]

theorem parent? (h : Copies ρ old x d) (id : ShapeId) :
    d.parent? (ρ id) = (x.parent? id).map ρ := by
  rw [Document.parent?, Document.parent?, h.copied]
  cases x.get? id <;> rfl

theorem detach (h : Copies ρ old x d) (child : ShapeId) :
    Copies ρ old (x.detach child) (d.detach (ρ child)) := by
  rw [Document.detach, Document.detach, h.parent?]
  cases x.parent? child with
  | none => exact h
  | some p =>
    refine h.modify fun s _ => ?_
    simp [Shape.rename, List.filter_map, Function.comp_def, h.injective.eq_iff]

theorem attach (h : Copies ρ old x d) (parent child : ShapeId) :
    Copies ρ old (x.attach parent child) (d.attach (ρ parent) (ρ child)) := by
  have happended : Copies ρ old
      ((x.detach child).modify parent fun s => { s with children := s.children ++ [child] })
      ((d.detach (ρ child)).modify (ρ parent) fun s =>
        { s with children := s.children ++ [ρ child] }) :=
    (h.detach child).modify fun s _ => by simp [Shape.rename]
  exact happended.modify fun s _ => rfl

/-- Both changes are made, or both are refused. -/
inductive Alike (ρ : ShapeId → ShapeId) (old : Document) :
    Except CanvasError Document → Except CanvasError Document → Prop
  | made {x d : Document} (copies : Copies ρ old x d) : Alike ρ old (.ok x) (.ok d)
  | refused (e e' : CanvasError) : Alike ρ old (.error e) (.error e')

theorem set (h : Copies ρ old x d) (id : ShapeId) (a : Attribute) :
    Alike ρ old (x.set id a) (d.set (ρ id) a) := by
  unfold Document.set
  cases checkNumbers a with
  | error e => exact .refused e e
  | ok _ =>
    rw [h.copied]
    cases hs : x.get? id with
    | none => exact .refused _ _
    | some s =>
      simp only [Option.map_some]
      cases ht : setAttribute s a with
      | error e =>
        obtain ⟨e', he⟩ := setAttribute_rename_error ht
        rw [he]; exact .refused _ _
      | ok t =>
        rw [setAttribute_rename ht]
        exact .made (h.modify fun _ _ => rfl)

theorem append (h : Copies ρ old x d) (parent child : ShapeId) :
    Alike ρ old (x.append parent child) (d.append (ρ parent) (ρ child)) := by
  unfold Document.append
  rw [h.copied, h.copied]
  cases x.get? child with
  | none => exact .refused _ _
  | some c =>
    by_cases hne : parent = child
    · simp only [Option.map_some, if_pos hne, if_pos (congrArg ρ hne)]
      exact .refused _ _
    · simp only [Option.map_some, if_neg hne, if_neg fun heq => hne (h.injective heq)]
      cases x.get? parent with
      | none => exact .refused _ _
      | some p =>
        show Alike ρ old (if p.isContainer then _ else _) (if p.isContainer then _ else _)
        cases p.isContainer with
        | false => exact .refused _ _
        | true => exact .made (h.attach parent child)

theorem edit (h : Copies ρ old x d) (c : Edit) :
    Alike ρ old (x.edit c) (d.edit (c.rename ρ)) := by
  cases c with
  | set id a => exact h.set id a
  | append parent child => exact h.append parent child

/-- **A plan keeps a copy**, whether it is refused or not. -/
theorem run {α β : Type} {R : α → β → Prop} {p : Plan α} {q : Plan β}
    (hpq : Plan.Renames ρ R p q) : ∀ {x d : Document}, Copies ρ old x d →
      Copies ρ old (p.run canvas x).2 (q.run canvas d).2 := by
  induction hpq with
  | done result => exact fun h => h
  | create p _ ih =>
    intro x d h
    have hnext := ih x.nextId (h.create p)
    rw [← h.nextId] at hnext
    exact hnext
  | edit c _ ih =>
    intro x d h
    rw [Plan.run, Plan.run]
    simp only [canvas]
    generalize hx : x.edit c = rx
    generalize hd : d.edit (c.rename ρ) = rd
    have halike := h.edit c
    rw [hx, hd] at halike
    cases halike with
    | made copies => exact ih copies
    | refused e e' => exact h
  | center _ ih =>
    intro x d h
    have hcenter : canvas.center d = canvas.center x := congrArg Viewport.center h.viewport
    rw [Plan.run, Plan.run, hcenter]
    exact ih _ h

/-- **The shapes are the old ones and then the copied ones.** -/
theorem shapes (h : Copies ρ old x d) (hold : Indexed old)
    (hfree : ∀ id, old.get? (ρ id) = none) :
    d.shapes = old.shapes ++ x.shapes.map (Shape.rename ρ) := by
  have hkept : ∀ j ∈ old.order, d.get? j = old.get? j := by
    intro j hj
    refine h.kept j fun id heq => ?_
    obtain ⟨s, hs⟩ := hold.mem_order_iff.mp hj
    rw [heq, hfree id] at hs
    cases hs
  have hcopied : d.get? ∘ ρ = fun id => (x.get? id).map (Shape.rename ρ) :=
    funext h.copied
  rw [Document.shapes, h.order, List.filterMap_append, List.filterMap_congr hkept,
    List.filterMap_map, hcopied, Document.shapes, Document.shapes, List.map_filterMap]

end Copies

end Document

end Artboard
