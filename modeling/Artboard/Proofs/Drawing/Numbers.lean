import Artboard.Proofs.Drawing.Generation

/-! # The numbers of a drawing

Coordinates have to be finite. Extents (sizes, radii and font sizes) have to be finite and must not
be negative.

* `Quantity`: a number that is given to a shape. `Screen.quantities`: the numbers that a screen asks
  for, in the order of the calls.
* `Quantity.checkAll`: checks numbers one after another. `checkAll_eq_error`: the first one that is
  not accepted is refused.
* `checkAll_blocks`: the numbers of the blocks of a component are refused just as those that it asks
  for. -/

namespace Artboard

/-- A number that is given to a shape, with the name of what it is for. -/
inductive Quantity
  /-- A number that has to be finite. -/
  | coordinate (field : String) (value : Float)
  /-- A number that has to be finite and not negative. -/
  | extent (field : String) (value : Float)

namespace Quantity

/-- Whether a document accepts a number. -/
def Accepted : Quantity → Prop
  | coordinate _ x => x.isFinite = true
  | extent _ x => x.isFinite = true ∧ 0.0 ≤ x

/-- What a number is for. -/
def field : Quantity → String
  | coordinate field _ => field
  | extent field _ => field

/-- The number itself. -/
def value : Quantity → Float
  | coordinate _ x => x
  | extent _ x => x

/-- The numbers of a position. -/
def position (x y : Float) : List Quantity := [coordinate "x" x, coordinate "y" y]

/-- An extent that may be given. -/
def extentIf (field : String) (x : Option Float) : List Quantity := (x.map (extent field)).toList

end Quantity

open Quantity (position extentIf)

/-! ### What a screen asks for -/

/-- **The numbers of a component** on a board whose origin is given. Those that stand for absent
extents are not among them. -/
def Component.quantities (origin : Point) : Component → List Quantity
  | .text t =>
    position (origin.x + t.x.getD 0.0) (origin.y + t.y.getD 0.0) ++ extentIf "fontSize" t.fontSize
  | .rectangle r =>
    position (origin.x + r.x.getD 0.0) (origin.y + r.y.getD 0.0)
      ++ extentIf "width" r.width ++ extentIf "height" r.height
  | .button b =>
    let x := origin.x + b.x.getD 0.0
    let y := origin.y + b.y.getD 0.0
    position x y ++ extentIf "width" b.width ++ extentIf "height" b.height
      ++ extentIf "borderRadius" b.borderRadius ++ position (x + 10.0) (y + 12.0)
  | .input i =>
    let x := origin.x + i.x.getD 0.0
    let y := origin.y + i.y.getD 0.0
    position x y ++ extentIf "width" i.width ++ extentIf "height" i.height
      ++ position (x + 12.0) (y + 12.0)
  | .unknown _ => []

/-- **The numbers of a screen** whose board is drawn around a centre. -/
def Screen.quantities (center : Point) (s : Screen) : List Quantity :=
  let width := s.frame.width.getD 375.0
  let height := s.frame.height.getD 667.0
  let origin : Point := ⟨center.x - width / 2.0, center.y - height / 2.0⟩
  [.extent "width" width, .extent "height" height] ++ position origin.x origin.y
    ++ s.components.flatMap (Component.quantities origin)

/-! ### Checking numbers -/

namespace Quantity

open Document (checkCoordinate checkExtent)

variable {m : Quantity} {ms ns : List Quantity}

/-- Refuses a number that is not accepted. -/
def check : Quantity → Except CanvasError Unit
  | coordinate field x => checkCoordinate field x
  | extent field x => checkExtent field x

/-- Checks numbers one after another. -/
def checkAll (ms : List Quantity) : Except CanvasError Unit := forM ms check

theorem check_eq_ok : m.check = .ok () ↔ m.Accepted := by
  cases m with
  | coordinate field x => exact Document.checkCoordinate_eq_ok field
  | extent field x => exact Document.checkExtent_eq_ok field

theorem check_of_not_accepted (h : ¬ m.Accepted) :
    m.check = .error (.invalidGeometry m.field m.value) := by
  rw [← check_eq_ok] at h
  cases m with
  | coordinate field x =>
    simp only [check, checkCoordinate] at h ⊢
    split_ifs at h ⊢ with hx
    · exact absurd rfl h
    · rfl
  | extent field x =>
    simp only [check, checkExtent] at h ⊢
    split_ifs at h ⊢ with hx
    · exact absurd rfl h
    · rfl

theorem checkAll_append (ms ns : List Quantity) :
    checkAll (ms ++ ns) = checkAll ms >>= fun _ => checkAll ns := List.forM_append

theorem checkAll_cons_of_accepted (h : m.Accepted) : checkAll (m :: ms) = checkAll ms := by
  rw [checkAll, List.forM_cons, check_eq_ok.mpr h]; rfl

theorem checkAll_cons_of_not_accepted (h : ¬ m.Accepted) :
    checkAll (m :: ms) = .error (.invalidGeometry m.field m.value) := by
  rw [checkAll, List.forM_cons, check_of_not_accepted h]; rfl

theorem checkAll_eq_ok : checkAll ms = .ok () ↔ ∀ m ∈ ms, m.Accepted := by
  induction ms with
  | nil => exact iff_of_true rfl fun _ h => by cases h
  | cons m ms ih =>
    rw [List.forall_mem_cons]
    by_cases hm : m.Accepted
    · rw [checkAll_cons_of_accepted hm, ih]
      exact (and_iff_right hm).symm
    · rw [checkAll_cons_of_not_accepted hm]
      exact iff_of_false (fun h => by cases h) fun h => hm h.1

/-- **The first number that is not accepted is refused.** -/
theorem checkAll_eq_error {e : CanvasError} : checkAll ms = .error e ↔
    ∃ before m after, ms = before ++ m :: after ∧ (∀ n ∈ before, n.Accepted) ∧ ¬ m.Accepted ∧
      e = .invalidGeometry m.field m.value := by
  constructor
  · intro h
    induction ms with
    | nil => cases h
    | cons m ms ih =>
      by_cases hm : m.Accepted
      · rw [checkAll_cons_of_accepted hm] at h
        obtain ⟨before, n, after, rfl, hbefore, hn, he⟩ := ih h
        exact ⟨m :: before, n, after, rfl, List.forall_mem_cons.mpr ⟨hm, hbefore⟩, hn, he⟩
      · rw [checkAll_cons_of_not_accepted hm] at h
        exact ⟨[], m, ms, rfl, List.forall_mem_nil _, hm, (Except.error.inj h).symm⟩
  · rintro ⟨before, m, after, rfl, hbefore, hm, rfl⟩
    rw [checkAll_append, checkAll_eq_ok.mpr hbefore]
    exact checkAll_cons_of_not_accepted hm

theorem checkAll_append_congr (before : List Quantity) (h : checkAll ms = checkAll ns) :
    checkAll (before ++ ms) = checkAll (before ++ ns) := by
  rw [checkAll_append, checkAll_append, h]

/-- A value that stands for an absent extent need not be checked if it is accepted. -/
theorem checkAll_getD {default : Float} (field : String) (x : Option Float)
    (hdefault : IsExtent default) (h : checkAll ms = checkAll ns) :
    checkAll (extent field (x.getD default) :: ms) = checkAll (extentIf field x ++ ns) := by
  cases x with
  | none =>
    have hcons : checkAll (extent field default :: ms) = checkAll ms :=
      checkAll_cons_of_accepted hdefault
    exact hcons.trans h
  | some x => exact checkAll_append_congr [extent field x] h

end Quantity

open Quantity (checkAll checkAll_append_congr checkAll_cons_of_accepted checkAll_getD)

/-- The numbers of an attribute. -/
def Attribute.quantities : Attribute → List Quantity
  | .position x y => Quantity.position x y
  | .size w h => [.extent "width" w, .extent "height" h]
  | .borderRadius r => [.extent "borderRadius" r]
  | .fontSize x => [.extent "fontSize" x]
  | _ => []

theorem checkNumbers_eq (a : Attribute) : Document.checkNumbers a = checkAll a.quantities := by
  have one : ∀ m : Quantity, m.check = checkAll [m] := fun m => by
    rw [checkAll, List.forM_cons]
    cases m.check <;> rfl
  have two : ∀ m n : Quantity, (m.check >>= fun _ => n.check) = checkAll [m, n] := fun m n => by
    rw [checkAll, List.forM_cons, one n]; rfl
  cases a with
  | position x y => exact two (.coordinate "x" x) (.coordinate "y" y)
  | size w h => exact two (.extent "width" w) (.extent "height" h)
  | borderRadius r => exact one (.extent "borderRadius" r)
  | fontSize x => exact one (.extent "fontSize" x)
  | _ => rfl

/-! ### The numbers of blocks -/

/-- The numbers of a block. -/
def Block.quantities (b : Block) : List Quantity := b.attributes.flatMap Attribute.quantities

section Blocks
variable (board : Board)

/-- The extents that components have without giving them. -/
theorem isExtent_defaults : IsExtent 100.0 ∧ IsExtent 200.0 ∧ IsExtent 300.0 ∧ IsExtent 44.0 ∧
    IsExtent 6.0 ∧ IsExtent 4.0 ∧ IsExtent 14.0 := by
  unfold IsExtent; decide

/-- **The numbers of the blocks are refused just as those that the component asks for.** The ones
that it does not give are accepted. -/
theorem checkAll_blocks (c : Component) :
    checkAll ((c.blocks board).flatMap Block.quantities) =
      checkAll (c.quantities ⟨board.x, board.y⟩) := by
  obtain ⟨h100, h200, h300, h44, h6, h4, h14⟩ := isExtent_defaults
  cases c with
  | text t =>
    obtain ⟨x, y, text, fontSize, fontWeight, color⟩ := t
    rcases fontSize with _ | size <;> rcases fontWeight with _ | weight <;>
      rcases color with _ | color <;> rfl
  | rectangle r =>
    have hfill : (attributeIf fillAttribute r.fillColor).flatMap Attribute.quantities = [] := by
      cases r.fillColor <;> rfl
    have hheight := checkAll_getD "height" r.height h100 (congrArg checkAll hfill)
    have hwidth := checkAll_getD "width" r.width h100 hheight
    have hall := checkAll_append_congr
      (position (board.x + r.x.getD 0.0) (board.y + r.y.getD 0.0)) hwidth
    simp only [Component.quantities, List.append_assoc, List.append_nil] at hall ⊢
    show checkAll ([_].flatMap Block.quantities) = _
    rw [List.flatMap_singleton]
    exact hall
  | button b =>
    have hradius := checkAll_getD "borderRadius" b.borderRadius h6 (rfl : checkAll (position
      (board.x + b.x.getD 0.0 + 10.0) (board.y + b.y.getD 0.0 + 12.0)) = _)
    have hheight := checkAll_getD "height" b.height h44 hradius
    have hwidth := checkAll_getD "width" b.width h200 hheight
    have hall := checkAll_append_congr
      (position (board.x + b.x.getD 0.0) (board.y + b.y.getD 0.0)) hwidth
    simp only [Component.quantities, List.append_assoc] at hall ⊢
    exact hall
  | input i =>
    let label : List Quantity :=
      position (board.x + i.x.getD 0.0 + 12.0) (board.y + i.y.getD 0.0 + 12.0)
    have hfont : checkAll (label ++ [.extent "fontSize" 14.0]) = checkAll (label ++ []) :=
      checkAll_append_congr label (checkAll_cons_of_accepted (m := .extent "fontSize" 14.0) h14)
    have hradius : checkAll (.extent "borderRadius" 4.0 :: (label ++ [.extent "fontSize" 14.0])) =
        checkAll (label ++ []) :=
      (checkAll_cons_of_accepted (m := .extent "borderRadius" 4.0) h4).trans hfont
    have hheight := checkAll_getD "height" i.height h44 hradius
    have hwidth := checkAll_getD "width" i.width h300 hheight
    have hall := checkAll_append_congr
      (position (board.x + i.x.getD 0.0) (board.y + i.y.getD 0.0)) hwidth
    simp only [Component.quantities, List.append_assoc, List.append_nil] at hall ⊢
    exact hall
  | unknown kind => rfl

end Blocks

end Artboard
