import Artboard.Proofs.Canvas.Plan

/-! # Plans that differ in their ids only

A plan gets its ids from the canvas. With other ids it makes the same calls about the other ids.

* `Edit.rename`: a change of shapes with other ids.
* `Plan.Renames`: a plan does with renamed ids what another does with the ids themselves.
* `Renames.bind`: composed plans do so if their parts do. -/

namespace Artboard

/-- The change with other ids. -/
def Edit.rename (ρ : ShapeId → ShapeId) : Edit → Edit
  | .set id value => .set (ρ id) value
  | .append parent child => .append (ρ parent) (ρ child)

namespace Plan

variable {α β γ δ : Type} {ρ : ShapeId → ShapeId}

/-- **The second plan does with renamed ids what the first does.** Their results are related. -/
inductive Renames (ρ : ShapeId → ShapeId) (R : α → β → Prop) : Plan α → Plan β → Prop
  | done {a : α} {b : β} (result : R a b) : Renames ρ R (.done a) (.done b)
  | create (p : Primitive) {next : ShapeId → Plan α} {next' : ShapeId → Plan β}
      (rest : ∀ id, Renames ρ R (next id) (next' (ρ id))) :
      Renames ρ R (.create p next) (.create p next')
  | edit (c : Edit) {next : Plan α} {next' : Plan β} (rest : Renames ρ R next next') :
      Renames ρ R (.edit c next) (.edit (c.rename ρ) next')
  | center {next : Point → Plan α} {next' : Point → Plan β}
      (rest : ∀ z, Renames ρ R (next z) (next' z)) : Renames ρ R (.center next) (.center next')

namespace Renames

variable {R : α → β → Prop} {S : γ → δ → Prop} {p : Plan α} {q : Plan β}

theorem bind {k : α → Plan γ} {l : β → Plan δ} (h : Renames ρ R p q)
    (hk : ∀ a b, R a b → Renames ρ S (k a) (l b)) : Renames ρ S (p >>= k) (q >>= l) := by
  induction h with
  | done result => exact hk _ _ result
  | create p _ ih => exact .create p ih
  | edit c _ ih => exact .edit c ih
  | center _ ih => exact .center ih

theorem map {f : α → γ} {g : β → δ} (h : Renames ρ R p q) (hfg : ∀ a b, R a b → S (f a) (g b)) :
    Renames ρ S (f <$> p) (g <$> q) := h.bind fun a b hab => .done (hfg a b hab)

theorem new (p : Primitive) : Renames ρ (fun id id' => id' = ρ id) (Plan.new p) (Plan.new p) :=
  .create p fun _ => .done rfl

theorem set (id : ShapeId) (a : Attribute) :
    Renames ρ (fun _ _ => True) (Plan.set id a) (Plan.set (ρ id) a) := .edit _ (.done trivial)

theorem append (parent child : ShapeId) :
    Renames ρ (fun _ _ => True) (Plan.append parent child) (Plan.append (ρ parent) (ρ child)) :=
  .edit _ (.done trivial)

theorem viewCenter : Renames ρ Eq Plan.viewCenter Plan.viewCenter := .center fun _ => .done rfl

end Renames

end Plan

end Artboard
