import Artboard.Canvas.Plan

/-! # Carrying out composed plans

A plan that is put together from smaller ones succeeds exactly if these do, one after another.

* `bind_done`, `bind_assoc`: plans are a lawful monad.
* `run_bind`: a plan, then another that depends on its result.
* `run_bind_eq_ok`, `run_map_eq_ok`: when such plans succeed, and with what.
* `run_bind_eq_error`, `run_map_eq_error`: when they are refused.
* `run_bind_induction`: what holds after both, whether or not they are refused. -/

namespace Artboard.Plan

variable {α β σ : Type} {canvas : Canvas σ}

/-! ### Laws -/

theorem bind_done : ∀ p : Plan α, p.bind .done = p
  | .done _ => rfl
  | .create p next => congrArg (Plan.create p) (funext fun id => bind_done (next id))
  | .edit e next => congrArg (Plan.edit e) (bind_done next)
  | .center next => congrArg Plan.center (funext fun c => bind_done (next c))

theorem bind_assoc {γ : Type} (k : α → Plan β) (l : β → Plan γ) :
    ∀ p : Plan α, (p.bind k).bind l = p.bind fun a => (k a).bind l
  | .done _ => rfl
  | .create p next => congrArg (Plan.create p) (funext fun id => bind_assoc k l (next id))
  | .edit e next => congrArg (Plan.edit e) (bind_assoc k l next)
  | .center next => congrArg Plan.center (funext fun c => bind_assoc k l (next c))

instance : LawfulMonad Plan :=
  LawfulMonad.mk' Plan bind_done (fun _ _ => rfl) fun p k l => bind_assoc k l p

/-! ### Runs -/

/-- **The second plan starts where the first ended**, unless a call of the first was refused. -/
theorem run_bind (canvas : Canvas σ) (k : α → Plan β) : ∀ (p : Plan α) (s : σ),
    (p >>= k).run canvas s = match p.run canvas s with
      | (.ok a, s) => (k a).run canvas s
      | (.error e, s) => (.error e, s)
  | .done _, _ => rfl
  | .create p next, s => by
    have ih := fun id t => run_bind canvas k (next id) t
    show run canvas (.create p fun id => next id >>= k) s = _
    rw [run, run]
    rcases canvas.create p s with ⟨_ | id, t⟩
    · rfl
    · exact ih id t
  | .edit e next, s => by
    have ih := run_bind canvas k next
    show run canvas (.edit e (next >>= k)) s = _
    rw [run, run]
    rcases canvas.edit e s with ⟨_ | _, t⟩
    · rfl
    · exact ih t
  | .center next, s => run_bind canvas k (next (canvas.center s)) s

theorem run_bind_eq_ok {p : Plan α} {k : α → Plan β} {s t : σ} {b : β} :
    (p >>= k).run canvas s = (.ok b, t) ↔
      ∃ a u, p.run canvas s = (.ok a, u) ∧ (k a).run canvas u = (.ok b, t) := by
  rw [run_bind]
  rcases p.run canvas s with ⟨_ | a, u⟩
  · simp
  · constructor
    · intro h; exact ⟨a, u, rfl, h⟩
    · rintro ⟨_, _, h, hk⟩; cases h; exact hk

theorem run_bind_eq_error {p : Plan α} {k : α → Plan β} {s t : σ} {e : CanvasError} :
    (p >>= k).run canvas s = (.error e, t) ↔ p.run canvas s = (.error e, t) ∨
      ∃ a u, p.run canvas s = (.ok a, u) ∧ (k a).run canvas u = (.error e, t) := by
  rw [run_bind]
  rcases p.run canvas s with ⟨_ | a, u⟩
  · simp
  · simp [and_assoc]

/-- What holds where the first plan is refused and after the second holds after both. -/
theorem run_bind_induction {p : Plan α} {k : α → Plan β} {s : σ}
    {P : Except CanvasError β × σ → Prop}
    (hrefused : ∀ e t, p.run canvas s = (.error e, t) → P (.error e, t))
    (hdone : ∀ a t, p.run canvas s = (.ok a, t) → P ((k a).run canvas t)) :
    P ((p >>= k).run canvas s) := by
  rw [run_bind]
  rcases h : p.run canvas s with ⟨e | a, t⟩
  · exact hrefused e t h
  · exact hdone a t h

theorem run_pure_eq_ok {a b : α} {s t : σ} :
    (pure a : Plan α).run canvas s = (.ok b, t) ↔ a = b ∧ s = t := by
  show (Except.ok a, s) = (.ok b, t) ↔ _
  rw [Prod.mk.injEq, Except.ok.injEq]

theorem run_map_eq_ok {f : α → β} {p : Plan α} {s t : σ} {b : β} :
    (f <$> p).run canvas s = (.ok b, t) ↔ ∃ a, p.run canvas s = (.ok a, t) ∧ f a = b := by
  show (p >>= fun a => pure (f a)).run canvas s = _ ↔ _
  rw [run_bind_eq_ok]
  constructor
  · rintro ⟨a, u, hp, hf⟩
    obtain ⟨hb, rfl⟩ := run_pure_eq_ok.mp hf
    exact ⟨a, hp, hb⟩
  · rintro ⟨a, hp, hf⟩; exact ⟨a, t, hp, run_pure_eq_ok.mpr ⟨hf, rfl⟩⟩

theorem run_map (f : α → β) (p : Plan α) (s : σ) :
    (f <$> p).run canvas s = ((p.run canvas s).1.map f, (p.run canvas s).2) := by
  show (p >>= fun a => pure (f a)).run canvas s = _
  rw [run_bind]
  rcases p.run canvas s with ⟨e | a, t⟩ <;> rfl

theorem run_map_eq_error {f : α → β} {p : Plan α} {s t : σ} {e : CanvasError} :
    (f <$> p).run canvas s = (.error e, t) ↔ p.run canvas s = (.error e, t) := by
  show (p >>= fun a => pure (f a)).run canvas s = _ ↔ _
  rw [run_bind_eq_error]
  constructor
  · rintro (h | ⟨_, _, -, h⟩)
    · exact h
    · cases h
  · exact .inl

end Artboard.Plan
