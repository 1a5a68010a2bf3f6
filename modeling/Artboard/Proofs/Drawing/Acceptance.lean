import Artboard.Proofs.Drawing.Generation
import Artboard.Proofs.Drawing.Numbers

/-! # When a drawing is refused

A document refuses nothing of a drawing but numbers.

* `Checks`: a plan is refused on a document just as some numbers are. `Checks.bind`: plans that are,
  one after the other, are.
* `Ready`: a document has a board to draw on. `Ready.extend`: it has it with more shapes on it.
* `checks_draw`, `checks_component`, `checks_frame`: blocks, components and boards.
* `draw_refused_iff`: a drawing is refused for the first number that is not accepted. -/

namespace Artboard

open Quantity (checkAll checkAll_append checkAll_eq_ok checkAll_eq_error)

/-- The attributes of a block are ones that its shape can have. -/
def Block.Fits (block : Block) : Prop := ∀ board id, ∃ s, block.shape? board id = .ok s

/-- Only texts are given font attributes. -/
theorem Component.fits (board : Board) (c : Component) : ∀ block ∈ c.blocks board, block.Fits := by
  cases c with
  | text spec =>
    obtain ⟨x, y, text, fontSize, fontWeight, color⟩ := spec
    refine List.forall_mem_singleton.mpr fun board id => ?_
    rcases fontSize with _ | size <;> rcases fontWeight with _ | weight <;>
      rcases color with _ | color <;> exact ⟨_, rfl⟩
  | rectangle spec =>
    obtain ⟨x, y, width, height, fillColor⟩ := spec
    refine List.forall_mem_singleton.mpr fun board id => ?_
    rcases fillColor with _ | color <;> exact ⟨_, rfl⟩
  | button spec =>
    exact List.forall_mem_cons.mpr
      ⟨fun _ _ => ⟨_, rfl⟩, List.forall_mem_singleton.mpr fun _ _ => ⟨_, rfl⟩⟩
  | input spec =>
    exact List.forall_mem_cons.mpr
      ⟨fun _ _ => ⟨_, rfl⟩, List.forall_mem_singleton.mpr fun _ _ => ⟨_, rfl⟩⟩
  | unknown kind => exact List.forall_mem_nil _

namespace Document

variable {α β : Type} {d e : Document} {ms ns : List Quantity}

/-- A plan is refused on a document just as the numbers are: for the same reason, or not at all. -/
def Checks (p : Plan α) (d : Document) (ms : List Quantity) : Prop :=
  (p.run canvas d).1.map (fun _ => ()) = checkAll ms

/-! ### Plans one after another -/

namespace Checks

variable {p : Plan α} {k : α → Plan β} {f : α → β}

theorem pure (a : α) (d : Document) : Checks (Pure.pure a : Plan α) d [] := rfl

theorem bind (h : Checks p d ms)
    (hk : ∀ a e, p.run canvas d = (.ok a, e) → Checks (k a) e ns) :
    Checks (p >>= k) d (ms ++ ns) := by
  unfold Checks at *
  rw [Plan.run_bind, checkAll_append, ← h]
  rcases hp : p.run canvas d with ⟨r | a, e⟩
  · rfl
  · exact hk a e hp

/-- A plan without numbers, then another. -/
theorem nil_bind (h : Checks p d [])
    (hk : ∀ a e, p.run canvas d = (.ok a, e) → Checks (k a) e ns) : Checks (p >>= k) d ns :=
  h.bind hk

/-- A plan, then another without numbers. -/
theorem bind_nil (h : Checks p d ms)
    (hk : ∀ a e, p.run canvas d = (.ok a, e) → Checks (k a) e []) : Checks (p >>= k) d ms := by
  have hall := h.bind hk
  rw [List.append_nil] at hall
  exact hall

theorem map (h : Checks p d ms) : Checks (f <$> p) d ms := h.bind_nil fun a e _ => .pure (f a) e

theorem eq_ok_iff (h : Checks p d ms) :
    (∃ a, (p.run canvas d).1 = .ok a) ↔ ∀ m ∈ ms, m.Accepted := by
  unfold Checks at h
  rw [← checkAll_eq_ok, ← h]
  rcases p.run canvas d with ⟨r | a, e⟩
  · simp [Except.map]
  · simp [Except.map]

theorem eq_error_iff (h : Checks p d ms) {error : CanvasError} :
    (p.run canvas d).1 = .error error ↔ checkAll ms = .error error := by
  unfold Checks at h
  rw [← h]
  rcases p.run canvas d with ⟨r | a, e⟩
  · simp [Except.map]
  · simp [Except.map]

end Checks

/-! ### Single calls -/

section Calls
variable {id parent child : ShapeId} {s t b c : Shape} {a : Attribute}

theorem checks_new (p : Primitive) (d : Document) : Checks (Plan.new p) d [] := rfl

theorem checks_viewCenter (d : Document) : Checks Plan.viewCenter d [] := rfl

/-- A change is refused just as it is by the document. -/
theorem checks_edit {c : Edit} (h : (d.edit c).map (fun _ => ()) = checkAll ms) :
    Checks (.edit c (.done ())) d ms := by
  unfold Checks
  rw [← h]
  simp only [Plan.run, canvas]
  cases d.edit c <;> rfl

theorem checks_set (hs : d.get? id = some s) (ht : setAttribute s a = .ok t) :
    Checks (Plan.set id a) d a.quantities := by
  refine checks_edit ?_
  rw [← checkNumbers_eq]
  show (d.set id a).map _ = _
  unfold Document.set
  cases checkNumbers a with
  | error e => rfl
  | ok _ => simp only [hs, ht]; rfl

theorem checks_append (hc : d.get? child = some c) (hne : parent ≠ child)
    (hp : d.get? parent = some b) (hb : b.isContainer = true) :
    Checks (Plan.append parent child) d [] := by
  have happend : d.append parent child = .ok (d.attach parent child) :=
    append_eq_ok.mpr ⟨⟨c, hc⟩, hne, ⟨b, hp, hb⟩, rfl⟩
  exact checks_edit (congrArg (Except.map fun _ => ()) happend)

theorem checks_setAll : ∀ {as : List Attribute} {d : Document} {s : Shape},
    d.get? id = some s → as.foldlM setAttribute s = .ok t →
      Checks (Plan.setAll id as) d (as.flatMap Attribute.quantities)
  | [], d, _, _, _ => .pure () d
  | a :: as, d, s, hs, ht => by
    obtain ⟨u, hu, ht⟩ := foldlM_cons_eq_ok.mp ht
    rw [List.flatMap_cons]
    refine (checks_set hs hu).bind fun _ e he => ?_
    obtain ⟨u', hu', hget, -⟩ := changesOnly_of_set he hs
    rw [hu] at hu'
    obtain rfl := Except.ok.inj hu'
    exact checks_setAll hget ht

end Calls

/-! ### Blocks and components -/

/-- A document has a board to draw on. -/
structure Ready (d : Document) (board : ShapeId) : Prop where
  wellFormed : WellFormed d
  board : ∃ b, d.get? board = some b ∧ b.isContainer = true

section Draw
variable {id : ShapeId} {board : Board}

theorem Ready.extend {shapes : List Shape} (hd : Ready d id) (he : WellFormed e)
    (hext : d.Extends id shapes e) : Ready e id where
  wellFormed := he
  board := by
    obtain ⟨b, hb, hcontainer⟩ := hd.board
    refine ⟨{ b with children := b.children ++ shapes.map Shape.id }, ?_, hcontainer⟩
    rw [hext.appended, hb]; rfl

/-- **A block is refused for its numbers only.** -/
theorem checks_draw {block : Block} (hd : Ready d id) (hfits : block.Fits) :
    Checks (block.draw id) d block.quantities := by
  obtain ⟨b, hb, hcontainer⟩ := hd.board
  obtain ⟨s, hs⟩ := hfits id d.nextId
  obtain ⟨t, ht, -⟩ := shape?_eq_ok.mp hs
  have hnext : d.get? d.nextId = none := hd.wellFormed.get?_nextId
  have hne : id ≠ d.nextId := fun heq => by rw [← heq, hb] at hnext; cases hnext
  refine (checks_new block.primitive d).nil_bind fun _ d₁ hnew => ?_
  obtain ⟨rfl, rfl⟩ := run_new_eq_ok.mp hnew
  have hcreated := get?_create_self d block.primitive
  refine (checks_setAll hcreated ht).bind_nil fun _ d₂ hset => ?_
  obtain ⟨u, -, hget, hchange⟩ := changesOnly_of_setAll hset hcreated
  have hboard : d₂.get? id = some b := by
    rw [hchange.kept id hne, get?_create, if_neg hne, hb]
  exact (checks_append hget hne hboard hcontainer).nil_bind fun _ d₃ _ => .pure _ d₃

theorem checks_drawAll : ∀ {blocks : List Block} {d : Document}, Ready d id →
    (∀ block ∈ blocks, block.Fits) →
      Checks (Block.drawAll id blocks) d (blocks.flatMap Block.quantities)
  | [], d, _, _ => .pure [] d
  | block :: blocks, d, hd, hfit => by
    obtain ⟨hfirst, hrest⟩ := List.forall_mem_cons.mp hfit
    rw [List.flatMap_cons]
    refine (checks_draw hd hfirst).bind fun _ e he => ?_
    obtain ⟨b, hb, -⟩ := hd.board
    obtain ⟨s, -, -, hext⟩ := extends_of_draw hd.wellFormed hb he
    exact (checks_drawAll (hd.extend (hd.wellFormed.run_plan he) hext) hrest).map

/-- **A component is refused for its numbers only.** -/
theorem checks_component (hd : Ready d board.id) (c : Component) :
    Checks (c.draw board) d (c.quantities ⟨board.x, board.y⟩) := by
  have hblocks := checks_drawAll hd (c.fits board)
  have hmap : Checks (c.draw board) d ((c.blocks board).flatMap Block.quantities) := by
    rw [Component.draw_eq]; exact hblocks.map
  exact hmap.trans (checkAll_blocks board c)

theorem checks_components : ∀ (cs : List Component) {d : Document}, Ready d board.id →
    Checks (Component.drawAll board cs) d (cs.flatMap (Component.quantities ⟨board.x, board.y⟩))
  | [], d, _ => .pure [] d
  | c :: cs, d, hd => by
    rw [List.flatMap_cons]
    refine (checks_component hd c).bind fun _ e he => ?_
    obtain ⟨b, hb, -⟩ := hd.board
    obtain ⟨shapes, hext, -⟩ := run_component hd.wellFormed hb he
    exact (checks_components cs (hd.extend (hd.wellFormed.run_plan he) hext)).map

end Draw

/-! ### Screens -/

/-- The board of a frame is refused for its numbers only. -/
theorem checks_frame (f : FrameSpec) (d : Document) :
    let x := d.viewport.center.x - f.boardWidth / 2.0
    let y := d.viewport.center.y - f.boardHeight / 2.0
    Checks f.draw d ([.extent "width" f.boardWidth, .extent "height" f.boardHeight]
      ++ Quantity.position x y) := by
  refine (checks_new .board d).nil_bind fun _ d₁ hnew => ?_
  obtain ⟨rfl, rfl⟩ := run_new_eq_ok.mp hnew
  have hcreated := get?_create_self d .board
  refine (checks_set hcreated (a := .name f.boardName) rfl).nil_bind fun _ d₂ hname => ?_
  obtain ⟨s, hs, hget, hchange⟩ := changesOnly_of_set hname hcreated
  refine (checks_set hget (a := .size f.boardWidth f.boardHeight) rfl).bind fun _ d₃ hsize => ?_
  obtain ⟨t, ht, hget', hchange'⟩ := changesOnly_of_set hsize hget
  refine (checks_viewCenter d₃).nil_bind fun center d₄ hcenter => ?_
  obtain ⟨rfl, rfl⟩ := run_viewCenter_eq_ok.mp hcenter
  have hview : d₃.viewport = d.viewport := hchange'.viewport.trans hchange.viewport
  rw [hview]
  exact (checks_set hget' rfl).bind_nil fun _ e _ => .pure _ e

/-- **A screen is refused for its numbers only.** -/
theorem checks_screen (hd : WellFormed d) (s : Screen) :
    Checks s.draw d (s.quantities d.viewport.center) := by
  refine (checks_frame s.frame d).bind fun board e hframe => ?_
  obtain ⟨hboard, hget, -⟩ := run_frame hframe
  have hready : Ready e board.id :=
    ⟨hd.run_plan hframe, _, by rw [hboard]; exact hget, rfl⟩
  have hcomponents := checks_components s.components hready
  rw [hboard] at hcomponents ⊢
  exact hcomponents.map

/-- **When the drawing of a screen succeeds and why it fails**, on any document that comes from an
empty one: it fails for the first of its numbers that is not accepted, and for nothing else. -/
theorem draw_refused_iff (ids : IdSupply) (v : Viewport) (steps : List Step) (s : Screen) :
    let d := (new ids v).run steps
    let ms := s.quantities d.viewport.center
    let result := (s.draw.run canvas d).1
    ((∃ drawing, result = .ok drawing) ↔ ∀ m ∈ ms, m.Accepted) ∧
      (∀ e, result = .error e ↔
        ∃ before m after, ms = before ++ m :: after ∧ (∀ n ∈ before, n.Accepted) ∧
          ¬ m.Accepted ∧ e = .invalidGeometry m.field m.value) ∧
      (∀ id, result ≠ .error (.shapeNotFound id)) ∧ (∀ id, result ≠ .error (.invalidParent id)) ∧
      ∀ reason, result ≠ .error (.rejected reason) := by
  intro d ms result
  have hchecks : Checks s.draw d ms := checks_screen ((wellFormed_new ids v).run steps) s
  have hfirst : ∀ e, result = .error e ↔ _ := fun e => hchecks.eq_error_iff.trans checkAll_eq_error
  refine ⟨hchecks.eq_ok_iff, hfirst, fun id h => ?_, fun id h => ?_, fun reason h => ?_⟩
  · obtain ⟨_, _, _, _, _, _, he⟩ := (hfirst _).mp h
    cases he
  · obtain ⟨_, _, _, _, _, _, he⟩ := (hfirst _).mp h
    cases he
  · obtain ⟨_, _, _, _, _, _, he⟩ := (hfirst _).mp h
    cases he

end Document

end Artboard
