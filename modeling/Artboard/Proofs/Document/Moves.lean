import Artboard.Proofs.Document.Objections

/-! # Attaching moves one shape

* `Moved`: a shape has become the last child of a board, has left the one it was on, and nothing
  else is different.
* `moved_of_append`: an accepted attachment does this.
* `append_again`: the same attachment once more changes nothing.
* `moves_run`: both of it, after every run from an empty document. -/

namespace Artboard.Document

/-- **A shape has moved to a board** and all else is as it was. -/
structure Moved (parent child : ShapeId) (d e : Document) : Prop where
  ne : parent ≠ child
  parent? : e.parent? child = some parent
  /-- The child itself has only another parent; it keeps its own children. -/
  child_eq : ∃ c, d.get? child = some c ∧ e.get? child = some { c with parent := some parent }
  /-- The other children of the new parent stay in order, and the child is the last one, once. -/
  parent_eq : ∃ p, d.get? parent = some p ∧
    e.get? parent = some { p with children := p.children.filter (· ≠ child) ++ [child] }
  /-- The other children of the old parent stay in order. -/
  old_eq : ∀ q, d.parent? child = some q → q ≠ parent → ∃ s, d.get? q = some s ∧
    e.get? q = some { s with children := s.children.filter (· ≠ child) }
  others : ∀ j, j ≠ child → j ≠ parent → d.parent? child ≠ some j → e.get? j = d.get? j
  order : e.order = d.order
  shapeCount : e.shapeCount = d.shapeCount
  viewport : e.viewport = d.viewport

variable {d e : Document} {parent child : ShapeId}

theorem shapeCount_attach (d : Document) (parent child : ShapeId) :
    (d.attach parent child).shapeCount = d.shapeCount := by
  rw [shapeCount, shapeCount, ← Store.length_ids, ← Store.length_ids, keys_attach]

/-- A board has no child twice, and none that is on another board. -/
theorem WellFormed.filter_children (hd : WellFormed d) {q : ShapeId} {s : Shape}
    (hs : d.get? q = some s) (hq : d.parent? child ≠ some q) :
    s.children.filter (· ≠ child) = s.children := by
  refine List.filter_eq_self.mpr fun c hc => ?_
  rw [decide_eq_true_iff]
  rintro rfl
  exact hq ((hd.mem_children q s c hs).mp hc)

/-- **An accepted attachment moves the child to the parent.** -/
theorem moved_of_append (hd : WellFormed d) (h : d.append parent child = .ok e) :
    Moved parent child d e := by
  obtain ⟨⟨c, hc⟩, hne, ⟨p, hp, -⟩, rfl⟩ := append_eq_ok.mp h
  have hold : d.parent? child ≠ some child := fun h => (hd.parent_board child child h).1 rfl
  refine ⟨hne, ?_, ⟨c, hc, ?_⟩, ⟨p, hp, ?_⟩, fun q hq hqp => ?_, fun j hj hjp hjq => ?_,
    order_attach .., shapeCount_attach .., viewport_attach ..⟩
  · rw [parent?_attach parent hc, if_pos rfl]
  · rw [get?_attach, hc]
    simp [relinked, hold, hne.symm]
  · rw [get?_attach, hp]
    by_cases hq : d.parent? child = some parent
    · simp [relinked, hne, hq]
    · have hstay : p.children.filter (· ≠ child) = p.children := hd.filter_children hp hq
      rw [hstay]
      simp [relinked, hne, hq]
  · obtain ⟨hqc, s, hs, -⟩ := hd.parent_board child q hq
    refine ⟨s, hs, ?_⟩
    rw [get?_attach, hs]
    simp [relinked, hqc, hqp, hq]
  · rw [get?_attach]
    cases d.get? j <;> simp [relinked, hj, hjp, hjq]

/-- **Attaching once more changes nothing.** -/
theorem append_again (hd : WellFormed d) (h : d.append parent child = .ok e) :
    e.append parent child = .ok e := by
  have hmoved : Moved parent child d e := moved_of_append hd h
  obtain ⟨-, hne, ⟨p, hp, hb⟩, -⟩ := append_eq_ok.mp h
  obtain ⟨c, -, hc⟩ := hmoved.child_eq
  obtain ⟨p', hp', hparent⟩ := hmoved.parent_eq
  rw [hp] at hp'
  obtain rfl := Option.some.inj hp'
  refine append_eq_ok.mpr ⟨⟨_, hc⟩, hne, ⟨_, hparent, hb⟩, ?_⟩
  refine eq_of_get? (keys_attach ..).symm (fun j => ?_) (ids_attach ..).symm
    (created_attach ..).symm (order_attach ..).symm (viewport_attach ..).symm
  rw [get?_attach, hmoved.parent?]
  by_cases hjc : j = child
  · rw [hjc, hc]
    simp [relinked, hne, hne.symm]
  · by_cases hjp : j = parent
    · rw [hjp, hparent]
      simp [relinked, hne]
    · have hjp' : parent ≠ j := Ne.symm hjp
      cases e.get? j <;> simp [relinked, hjc, hjp, hjp']

/-- **What an attachment does**, after every run from an empty document: it moves the child to the
parent, and doing it again changes nothing. -/
theorem moves_run (ids : IdSupply) (v : Viewport) (steps : List Step) (parent child : ShapeId)
    (e : Document) :
    let d := (new ids v).run steps
    canvas.edit (.append parent child) d = (.ok (), e) →
      Moved parent child d e ∧ canvas.edit (.append parent child) e = (.ok (), e) := by
  intro d h
  have hd : WellFormed d := (wellFormed_new ids v).run steps
  have happend : d.append parent child = .ok e := canvas_edit_eq_ok.mp h
  exact ⟨moved_of_append hd happend, canvas_edit_eq_ok.mpr (append_again hd happend)⟩

/-- The second of three boards lies on the first one, with a text on it. -/
def nested : Document :=
  let id := (IdSupply.from 0).id
  (new (.from 0) .standard).run [.call (.create .board), .call (.create .board),
    .call (.create .board), .call (.create (.text "a")),
    .call (.edit (.append (id 1) (id 3))), .call (.edit (.append (id 0) (id 1)))]

theorem moves_run_nested :
    let move : Edit := .append ((IdSupply.from 0).id 2) ((IdSupply.from 0).id 1)
    let e := (canvas.edit move nested).2
    canvas.edit move nested = (.ok (), e) ∧
      Moved ((IdSupply.from 0).id 2) ((IdSupply.from 0).id 1) nested e ∧
      canvas.edit move e = (.ok (), e) := by
  intro move e
  have hok : (canvas.edit (.append ((IdSupply.from 0).id 2) ((IdSupply.from 0).id 1)) nested).1 =
      .ok () := by decide +kernel
  have h : canvas.edit move nested = (.ok (), e) := Prod.ext hok rfl
  exact ⟨h, moves_run (.from 0) .standard _ _ _ e h⟩

end Artboard.Document
