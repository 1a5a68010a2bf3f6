import Artboard.Proofs.Canvas.Plan
import Artboard.Proofs.Document.WellFormed
import Artboard.Proofs.Drawing.Block

/-! # Blocks on documents

What drawing blocks on a board does to a document.

* `run_plan`: a plan changes a document as a sequence of steps does, so it keeps it well-formed.
* `Block.shape?`: the shape that a block stands for.
* `Extends`: the document has new shapes, the last children of a board, and no other change.
* `extends_of_draw`: drawing a block does this with its shape.
* `extends_of_drawAll`: drawing blocks does it with their shapes in order. -/

namespace Artboard

open Document (setAttribute)

/-- The shape that a block gives on a board under an id. -/
def Block.shape? (b : Block) (board id : ShapeId) : Except CanvasError Shape :=
  match b.attributes.foldlM setAttribute (.detached id b.primitive.kind) with
  | .ok s => .ok { s with parent := some board }
  | .error e => .error e

namespace Document

/-! ### Plans on documents -/

/-- **A plan changes a document as a sequence of steps does.** -/
theorem run_plan {α : Type} : ∀ (p : Plan α) (d : Document),
    ∃ steps, (p.run canvas d).2 = d.run steps
  | .done _, d => ⟨[], rfl⟩
  | .create p next, d => by
    obtain ⟨steps, h⟩ := run_plan (next (d.create p).1) (d.create p).2
    exact ⟨.call (.create p) :: steps, h⟩
  | .edit c next, d => by
    have hstep : d.step (.call (.edit c)) = (canvas.edit c d).2 := rfl
    rw [Plan.run]
    rcases hc : canvas.edit c d with ⟨_ | _, e⟩ <;> rw [hc] at hstep
    · exact ⟨[.call (.edit c)], hstep.symm⟩
    · obtain ⟨steps, h⟩ := run_plan next e
      refine ⟨.call (.edit c) :: steps, h.trans ?_⟩
      show e.run steps = (d.step _).run steps
      rw [hstep]
  | .center next, d => run_plan (next d.viewport.center) d

theorem WellFormed.run_plan {α : Type} {p : Plan α} {d e : Document} {r : Except CanvasError α}
    (hd : WellFormed d) (h : p.run canvas d = (r, e)) : WellFormed e := by
  obtain ⟨steps, hsteps⟩ := Document.run_plan p d
  rw [h] at hsteps
  rw [show e = d.run steps from hsteps]
  exact hd.run steps

theorem run_edit_eq_ok {d e : Document} {c : Edit} {u : Unit} :
    (Plan.edit c (.done ())).run canvas d = (.ok u, e) ↔ d.edit c = .ok e := by
  simp only [Plan.run, canvas]
  cases d.edit c <;> simp

/-- A change leads to the same document as a step, accepted or refused. -/
theorem run_edit_snd (c : Edit) (d : Document) :
    ((Plan.edit c (.done ())).run canvas d).2 = d.step (.call (.edit c)) := by
  simp only [Plan.run, step, canvas]
  cases d.edit c <;> rfl

theorem run_new_eq_ok {d e : Document} {p : Primitive} {id : ShapeId} :
    (Plan.new p).run canvas d = (.ok id, e) ↔ d.nextId = id ∧ (d.create p).2 = e := by
  show (Except.ok d.nextId, (d.create p).2) = (.ok id, e) ↔ _
  rw [Prod.mk.injEq, Except.ok.injEq]

theorem run_viewCenter_eq_ok {d e : Document} {center : Point} :
    Plan.viewCenter.run canvas d = (.ok center, e) ↔ d.viewport.center = center ∧ d = e := by
  show (Except.ok d.viewport.center, d) = (.ok center, e) ↔ _
  rw [Prod.mk.injEq, Except.ok.injEq]

/-! ### Setting attributes -/

/-- Nothing but one shape differs. -/
structure ChangesOnly (id : ShapeId) (d e : Document) : Prop where
  kept : ∀ j, j ≠ id → e.get? j = d.get? j
  order : e.order = d.order
  viewport : e.viewport = d.viewport

section Attributes
variable {d e : Document} {id : ShapeId} {s t : Shape} {a : Attribute} {as : List Attribute}

theorem ChangesOnly.trans {f : Document} (h : ChangesOnly id d e) (h' : ChangesOnly id e f) :
    ChangesOnly id d f where
  kept j hj := (h'.kept j hj).trans (h.kept j hj)
  order := h'.order.trans h.order
  viewport := h'.viewport.trans h.viewport

theorem changesOnly_of_set (h : (Plan.set id a).run canvas d = (.ok (), e))
    (hs : d.get? id = some s) :
    ∃ t, setAttribute s a = .ok t ∧ e.get? id = some t ∧ ChangesOnly id d e := by
  obtain ⟨-, s', t, hs', ht, rfl⟩ := set_eq_ok.mp (run_edit_eq_ok.mp h)
  rw [hs] at hs'
  obtain rfl := Option.some.inj hs'
  refine ⟨t, ht, ?_, fun j hj => ?_, rfl, rfl⟩
  · rw [get?_modify, if_pos rfl, hs]; rfl
  · rw [get?_modify, if_neg hj]

theorem foldlM_cons_eq_ok : (a :: as).foldlM setAttribute s = .ok t ↔
    ∃ u, setAttribute s a = .ok u ∧ as.foldlM setAttribute u = .ok t := by
  rw [List.foldlM_cons]
  cases setAttribute s a <;> simp [bind, Except.bind]

/-- **Setting attributes in order gives the shape all of them** and leaves the others. -/
theorem changesOnly_of_setAll : ∀ {as : List Attribute} {d : Document} {s : Shape},
    (Plan.setAll id as).run canvas d = (.ok (), e) → d.get? id = some s →
      ∃ t, as.foldlM setAttribute s = .ok t ∧ e.get? id = some t ∧ ChangesOnly id d e
  | [], d, s, h, hs => by
    obtain ⟨-, rfl⟩ := Plan.run_pure_eq_ok.mp h
    exact ⟨s, rfl, hs, fun _ _ => rfl, rfl, rfl⟩
  | a :: as, d, s, h, hs => by
    obtain ⟨_, d₁, ha, h⟩ := Plan.run_bind_eq_ok.mp h
    obtain ⟨u, hu, hget, hd⟩ := changesOnly_of_set ha hs
    obtain ⟨t, ht, hget', hd'⟩ := changesOnly_of_setAll h hget
    exact ⟨t, foldlM_cons_eq_ok.mpr ⟨u, hu, ht⟩, hget', hd.trans hd'⟩

/-- Attributes leave id and links as they are. -/
theorem links_of_foldlM : ∀ {as : List Attribute} {s : Shape}, as.foldlM setAttribute s = .ok t →
    t.id = s.id ∧ t.parent = s.parent ∧ t.children = s.children
  | [], s, h => by cases h; exact ⟨rfl, rfl, rfl⟩
  | a :: as, s, h => by
    obtain ⟨u, hu, h⟩ := foldlM_cons_eq_ok.mp h
    obtain ⟨hid, hparent, hchildren, -⟩ := setAttribute_eq_ok hu
    obtain ⟨hid', hparent', hchildren'⟩ := links_of_foldlM h
    exact ⟨hid'.trans hid, hparent'.trans hparent, hchildren'.trans hchildren⟩

end Attributes

/-! ### Documents with more shapes -/

/-- **The document has new shapes**, the last children of a board, and is otherwise unchanged. -/
structure Extends (d : Document) (board : ShapeId) (shapes : List Shape) (e : Document) : Prop where
  order : e.order = d.order ++ shapes.map Shape.id
  appended : e.get? board = (d.get? board).map fun b =>
    { b with children := b.children ++ shapes.map Shape.id }
  stored : ∀ s ∈ shapes, e.get? s.id = some s
  kept : ∀ j, j ≠ board → j ∉ shapes.map Shape.id → e.get? j = d.get? j
  viewport : e.viewport = d.viewport

namespace Extends

variable {d e f : Document} {board : ShapeId} {xs ys : List Shape}

theorem refl (d : Document) (board : ShapeId) : d.Extends board [] d where
  order := by simp
  appended := by cases d.get? board <;> simp
  stored _ h := by cases h
  kept _ _ _ := rfl
  viewport := rfl

/-- New shapes and then more of them. -/
theorem append (h : d.Extends board xs e) (h' : e.Extends board ys f) (hf : f.order.Nodup)
    (hb : board ∈ d.order) : d.Extends board (xs ++ ys) f where
  order := by rw [h'.order, h.order, List.map_append, List.append_assoc]
  appended := by rw [h'.appended, h.appended, Option.map_map]; simp [Function.comp_def]
  stored s hs := by
    rcases List.mem_append.mp hs with hs | hs
    · -- later shapes are neither an earlier one nor the board
      rw [h'.order, h.order] at hf
      have hmem : s.id ∈ xs.map Shape.id := List.mem_map_of_mem hs
      have hnot : s.id ∉ ys.map Shape.id := fun hy =>
        (List.nodup_append.mp hf).2.2 s.id (List.mem_append_right _ hmem) s.id hy rfl
      have hne : s.id ≠ board := fun heq =>
        (List.nodup_append.mp (List.nodup_append.mp hf).1).2.2 board hb s.id hmem heq.symm
      rw [h'.kept s.id hne hnot]
      exact h.stored s hs
    · exact h'.stored s hs
  kept j hj hnot := by
    rw [List.map_append, List.mem_append, not_or] at hnot
    rw [h'.kept j hj hnot.2, h.kept j hj hnot.1]
  viewport := h'.viewport.trans h.viewport

end Extends

/-! ### Drawing blocks -/

section Draw
variable {board id : ShapeId} {block : Block} {b : Shape}

theorem shape?_eq_ok {s : Shape} : block.shape? board id = .ok s ↔
    ∃ t, block.attributes.foldlM setAttribute (.detached id block.primitive.kind) = .ok t ∧
      s = { t with parent := some board } := by
  unfold Block.shape?
  cases block.attributes.foldlM setAttribute (.detached id block.primitive.kind) <;>
    simp [eq_comm]

/-- Attaching a shape without a parent adds it to its new parent. -/
theorem get?_attach_of_root {d : Document} {t : Shape} (ht : d.get? id = some t)
    (hparent : t.parent = none) (hne : board ≠ id) :
    (∀ j, j ≠ id → j ≠ board → (d.attach board id).get? j = d.get? j) ∧
    (d.attach board id).get? id = some { t with parent := some board } ∧
    (d.attach board id).get? board =
      (d.get? board).map fun b => { b with children := b.children ++ [id] } := by
  have hold : d.parent? id = none := (parent?_of_get? ht).trans hparent
  refine ⟨fun j hj hjb => ?_, ?_, ?_⟩
  · rw [get?_attach, hold]
    cases d.get? j <;> simp [relinked, hj, hjb]
  · rw [get?_attach, hold, ht]
    simp [relinked, hne.symm]
  · rw [get?_attach, hold]
    cases d.get? board <;> simp [relinked, hne]

/-- **Drawing a block adds its shape to the board.** -/
theorem extends_of_draw {d e : Document} (hd : WellFormed d) (hb : d.get? board = some b)
    (h : (block.draw board).run canvas d = (.ok id, e)) :
    ∃ s, block.shape? board id = .ok s ∧ s.id = id ∧ d.Extends board [s] e := by
  obtain ⟨_, d₁, hnew, h⟩ := Plan.run_bind_eq_ok.mp h
  obtain ⟨rfl, rfl⟩ := run_new_eq_ok.mp hnew
  obtain ⟨_, d₂, hset, h⟩ := Plan.run_bind_eq_ok.mp h
  obtain ⟨_, d₃, happend, h⟩ := Plan.run_bind_eq_ok.mp h
  obtain ⟨rfl, rfl⟩ := Plan.run_pure_eq_ok.mp h
  have hnext : d.get? d.nextId = none := hd.get?_nextId
  have hne : board ≠ d.nextId := fun heq => by rw [← heq, hb] at hnext; cases hnext
  have hcreated : (d.create block.primitive).2.get? d.nextId =
      some (.detached d.nextId block.primitive.kind) := by rw [get?_create, if_pos rfl]
  obtain ⟨t, ht, hget, hchange⟩ := changesOnly_of_setAll hset hcreated
  obtain ⟨-, -, -, rfl⟩ := append_eq_ok.mp (run_edit_eq_ok.mp happend)
  obtain ⟨hid, hparent, -⟩ := links_of_foldlM ht
  obtain ⟨hkept, hshape, hboard⟩ := get?_attach_of_root hget hparent hne
  have hother : ∀ j, j ≠ d.nextId → d₂.get? j = d.get? j := fun j hj => by
    rw [hchange.kept j hj, get?_create, if_neg hj]
  have hid' : t.id = d.nextId := hid
  refine ⟨_, shape?_eq_ok.mpr ⟨t, ht, rfl⟩, hid', ?_, ?_, ?_, ?_, ?_⟩
  · rw [order_attach, hchange.order, order_create, List.map_singleton, hid']
  · rw [hboard, hother board hne, List.map_singleton, hid']
  · intro s hs
    rw [List.mem_singleton.mp hs]
    exact (congrArg (d₂.attach board d.nextId).get? hid').trans hshape
  · intro j hj hnot
    rw [List.map_singleton, List.mem_singleton, hid'] at hnot
    rw [hkept j hnot hj, hother j hnot]
  · rw [viewport_attach, hchange.viewport, viewport_create]

/-- **Drawing blocks adds their shapes to the board in order.** -/
theorem extends_of_drawAll : ∀ {blocks : List Block} {d e : Document} {b : Shape}
    {ids : List ShapeId}, WellFormed d → d.get? board = some b →
      (Block.drawAll board blocks).run canvas d = (.ok ids, e) →
        ∃ shapes, shapes.map Shape.id = ids ∧ d.Extends board shapes e ∧
          List.Forall₂ (fun block s => block.shape? board s.id = .ok s) blocks shapes
  | [], d, _, _, _, _, _, h => by
    obtain ⟨rfl, rfl⟩ := Plan.run_pure_eq_ok.mp h
    exact ⟨[], rfl, .refl d board, .nil⟩
  | block :: blocks, d, _, b, _, hd, hb, h => by
    obtain ⟨id, d₁, hfirst, h⟩ := Plan.run_bind_eq_ok.mp h
    obtain ⟨rest, d₂, hrest, h⟩ := Plan.run_bind_eq_ok.mp h
    obtain ⟨rfl, rfl⟩ := Plan.run_pure_eq_ok.mp h
    obtain ⟨s, hs, hid, hext⟩ := extends_of_draw hd hb hfirst
    have hd₁ := hd.run_plan hfirst
    have hb₁ := hext.appended
    rw [hb] at hb₁
    obtain ⟨shapes, hids, hext', hshapes⟩ := extends_of_drawAll hd₁ hb₁ hrest
    have hboard : board ∈ d.order := hd.mem_order_iff.mpr ⟨b, hb⟩
    refine ⟨s :: shapes, ?_, hext.append hext' (hd₁.run_plan hrest).order_nodup hboard,
      .cons ?_ hshapes⟩
    · rw [List.map_cons, hid, hids]
    · rw [hid]; exact hs

end Draw

end Document

end Artboard
