import Artboard.Proofs.Drawing.Acceptance
import Artboard.Proofs.Drawing.Boards
import Artboard.Proofs.Drawing.Sequence

/-! # What a refused drawing leaves

A document refuses a block while it sets the attributes of its shape, which is not attached then.
All shapes before it are on the board.

* `Retouches`: one shape gets attributes. `retouches_setAll`: also where one of them is refused.
* `Strays`: a document has one more shape, without any link. `strays_of_draw`: a block that is
  refused leaves such a shape.
* `Reaches`: shapes are on a board, and perhaps there is a stray one besides.
* `reaches_of_drawAll`: blocks lead to this, up to their end or a refusal. -/

namespace Artboard

open Document (setAttribute)

/-- A shape that hangs on a board, with nothing on it. -/
structure Shape.OnBoard (s : Shape) (board : ShapeId) : Prop where
  parent : s.parent = some board
  childless : s.children = []
  plain : s.kind ≠ .board

/-- A shape without any link. -/
structure Shape.Loose (s : Shape) : Prop where
  parentless : s.parent = none
  childless : s.children = []
  plain : s.kind ≠ .board

/-- A block of a shape that is no board, with attributes that such a shape can have. -/
structure Block.Proper (b : Block) : Prop where
  fits : b.Fits
  plain : b.Plain

theorem Component.proper (board : Board) (cs : List Component) :
    ∀ b ∈ allBlocks board cs, b.Proper := by
  intro b hb
  obtain ⟨c, -, hb⟩ := List.mem_flatMap.mp hb
  exact ⟨c.fits board b hb, c.plain board b hb⟩

theorem Block.Plain.onBoard {block : Block} {board id : ShapeId} {s : Shape} (h : block.Plain)
    (hs : block.shape? board id = .ok s) : s.OnBoard board := by
  obtain ⟨t, ht, rfl⟩ := Document.shape?_eq_ok.mp hs
  obtain ⟨-, -, hchildren⟩ := Document.links_of_foldlM ht
  refine ⟨rfl, hchildren, fun hkind => h.primitive ?_⟩
  have hcontainer : t.isContainer = true := Shape.isContainer_iff.mpr hkind
  rw [Document.isContainer_of_foldlM ht] at hcontainer
  exact Shape.isContainer_iff.mp hcontainer

namespace Document

variable {α β : Type} {d e f : Document} {id board : ShapeId}

/-! ### Attributes -/

/-- One shape gets attributes, which leave its links and its being a board or not. -/
structure Retouches (id : ShapeId) (d e : Document) : Prop extends ChangesOnly id d e where
  touched : ∀ s, d.get? id = some s → ∃ t, e.get? id = some t ∧ t.id = s.id ∧
    t.parent = s.parent ∧ t.children = s.children ∧ t.isContainer = s.isContainer

namespace Retouches

theorem refl (id : ShapeId) (d : Document) : Retouches id d d where
  kept _ _ := rfl
  order := rfl
  viewport := rfl
  touched s hs := ⟨s, hs, rfl, rfl, rfl, rfl⟩

theorem trans (h : Retouches id d e) (h' : Retouches id e f) : Retouches id d f where
  toChangesOnly := h.toChangesOnly.trans h'.toChangesOnly
  touched s hs := by
    obtain ⟨t, ht, hid, hparent, hchildren, hcontainer⟩ := h.touched s hs
    obtain ⟨u, hu, hid', hparent', hchildren', hcontainer'⟩ := h'.touched t ht
    exact ⟨u, hu, hid'.trans hid, hparent'.trans hparent, hchildren'.trans hchildren,
      hcontainer'.trans hcontainer⟩

end Retouches

theorem retouches_bind {p : Plan α} {k : α → Plan β} (hp : Retouches id d (p.run canvas d).2)
    (hk : ∀ a e, p.run canvas d = (.ok a, e) → Retouches id e ((k a).run canvas e).2) :
    Retouches id d ((p >>= k).run canvas d).2 := by
  refine Plan.run_bind_induction (P := fun q => Retouches id d q.2) ?_ ?_
  · intro r e h
    rw [h] at hp; exact hp
  · intro a e h
    have hrest := hk a e h
    rw [h] at hp; exact hp.trans hrest

theorem retouches_set (id : ShapeId) (a : Attribute) (d : Document) :
    Retouches id d ((Plan.set id a).run canvas d).2 := by
  show Retouches id d ((Plan.edit (.set id a) (.done ())).run canvas d).2
  rw [run_edit_snd, step_edit]
  cases h : d.edit (.set id a) with
  | error _ => exact .refl id d
  | ok e =>
    obtain ⟨-, s, t, hs, ht, rfl⟩ := set_eq_ok.mp h
    refine ⟨⟨fun j hj => by rw [get?_modify, if_neg hj], rfl, rfl⟩, fun s' hs' => ?_⟩
    obtain rfl : s = s' := Option.some.inj (hs.symm.trans hs')
    exact ⟨t, by rw [get?_modify, if_pos rfl, hs]; rfl, setAttribute_eq_ok ht⟩

theorem retouches_setAll (id : ShapeId) : ∀ (as : List Attribute) (d : Document),
    Retouches id d ((Plan.setAll id as).run canvas d).2
  | [], d => .refl id d
  | a :: as, d => retouches_bind (retouches_set id a d) fun _ e _ => retouches_setAll id as e

/-! ### Refused blocks -/

/-- **The document has one more shape, without any link**, and is otherwise unchanged. -/
structure Strays (d : Document) (t : Shape) (e : Document) : Prop where
  loose : t.Loose
  order : e.order = d.order ++ [t.id]
  stored : e.get? t.id = some t
  kept : ∀ j, j ≠ t.id → e.get? j = d.get? j
  viewport : e.viewport = d.viewport

/-- **A refused block leaves its shape unattached**, and nothing else. -/
theorem strays_of_draw {block : Block} {err : CanvasError} (hd : Ready d board)
    (hblock : block.Proper) (h : (block.draw board).run canvas d = (.error err, e)) :
    ∃ t, d.Strays t e := by
  obtain ⟨b, hb, hcontainer⟩ := hd.board
  have hnext : d.get? d.nextId = none := hd.wellFormed.get?_nextId
  have hne : board ≠ d.nextId := fun heq => by rw [← heq, hb] at hnext; cases hnext
  rcases Plan.run_bind_eq_error.mp h with hnew | ⟨_, d₁, hnew, h⟩
  · cases hnew
  obtain ⟨rfl, rfl⟩ := run_new_eq_ok.mp hnew
  have hcreated := get?_create_self d block.primitive
  have hset := retouches_setAll d.nextId block.attributes (d.create block.primitive).2
  rcases Plan.run_bind_eq_error.mp h with hrefused | ⟨_, d₂, hdone, h⟩
  · -- an attribute is refused
    rw [hrefused] at hset
    obtain ⟨t, ht, hid, hparent, hchildren, hkind⟩ := hset.touched _ hcreated
    have hid' : t.id = d.nextId := hid
    refine ⟨t, ⟨hparent, hchildren, fun hboard => hblock.plain.primitive ?_⟩, ?_, ?_, ?_, ?_⟩
    · rw [← Shape.isContainer_iff, hkind] at hboard
      exact Shape.isContainer_iff.mp hboard
    · rw [hset.order, order_create, hid']
    · rw [hid']; exact ht
    · intro j hj
      rw [hid'] at hj
      rw [hset.kept j hj, get?_create, if_neg hj]
    · exact hset.viewport
  · -- attaching is not
    rw [hdone] at hset
    obtain ⟨t, ht, -⟩ := hset.touched _ hcreated
    have hboard : d₂.get? board = some b := by
      rw [hset.kept board hne, get?_create, if_neg hne, hb]
    have happend := (checks_append ht hne hboard hcontainer).eq_ok_iff.mpr (List.forall_mem_nil _)
    rcases Plan.run_bind_eq_error.mp h with hrefused | ⟨_, _, _, h⟩
    · obtain ⟨_, hok⟩ := happend
      rw [hrefused] at hok; cases hok
    · cases h

/-! ### Blocks in order -/

/-- **Some more shapes are on a board**, and there may be a stray one besides. Nothing else is
changed. -/
structure Reaches (d : Document) (board : ShapeId) (shapes : List Shape) (stray : Option Shape)
    (e : Document) : Prop where
  order : e.order = d.order ++ (shapes ++ stray.toList).map Shape.id
  appended : e.get? board = (d.get? board).map fun b =>
    { b with children := b.children ++ shapes.map Shape.id }
  stored : ∀ s ∈ shapes ++ stray.toList, e.get? s.id = some s
  onBoard : ∀ s ∈ shapes, s.OnBoard board
  loose : ∀ t ∈ stray, t.Loose
  kept : ∀ j ∈ d.order, j ≠ board → e.get? j = d.get? j
  viewport : e.viewport = d.viewport

namespace Reaches

variable {xs ys : List Shape} {stray : Option Shape}

theorem refl (d : Document) (board : ShapeId) : d.Reaches board [] none d where
  order := by simp
  appended := by cases d.get? board <;> simp
  stored _ h := by cases h
  onBoard _ h := by cases h
  loose _ h := by cases h
  kept _ _ _ := rfl
  viewport := rfl

theorem of_strays {t : Shape} (h : d.Strays t e) (hnodup : e.order.Nodup)
    (hb : board ∈ d.order) : d.Reaches board [] (some t) e := by
  have hnew : ∀ j ∈ d.order, j ≠ t.id := by
    rw [h.order, List.nodup_append] at hnodup
    exact fun j hj => hnodup.2.2 j hj t.id (List.mem_singleton_self _)
  refine ⟨h.order, ?_, ?_, List.forall_mem_nil _, ?_, fun j hj _ => h.kept j (hnew j hj),
    h.viewport⟩
  · rw [h.kept board (hnew board hb)]
    cases d.get? board <;> simp
  · exact List.forall_mem_singleton.mpr h.stored
  · rintro _ ⟨⟩; exact h.loose

theorem of_extends (h : d.Extends board xs e) (hon : ∀ s ∈ xs, s.OnBoard board)
    (hnodup : e.order.Nodup) : d.Reaches board xs none e where
  order := by rw [h.order]; simp
  appended := h.appended
  stored := by simpa using h.stored
  onBoard := hon
  loose _ ht := by cases ht
  kept j hj hne := by
    rw [h.order, List.nodup_append] at hnodup
    exact h.kept j hne fun hmem => hnodup.2.2 j hj j hmem rfl
  viewport := h.viewport

/-- Shapes on the board, and then more of them. -/
theorem append (h : d.Reaches board xs none e) (h' : e.Reaches board ys stray f)
    (hnodup : e.order.Nodup) (hb : board ∈ d.order) : d.Reaches board (xs ++ ys) stray f := by
  have horder : e.order = d.order ++ xs.map Shape.id := by rw [h.order]; simp
  rw [horder, List.nodup_append] at hnodup
  refine ⟨?_, ?_, fun s hs => ?_, ?_, h'.loose, fun j hj hne => ?_, h'.viewport.trans h.viewport⟩
  · rw [h'.order, horder, List.append_assoc, List.append_assoc, ← List.map_append]
  · rw [h'.appended, h.appended, Option.map_map]; simp [Function.comp_def]
  · rw [List.append_assoc] at hs
    rcases List.mem_append.mp hs with hs | hs
    · -- the board was there before the shapes that are on it
      have hmem : s.id ∈ xs.map Shape.id := List.mem_map_of_mem hs
      have hne : s.id ≠ board := (hnodup.2.2 board hb s.id hmem).symm
      rw [h'.kept s.id (by rw [horder]; exact List.mem_append_right _ hmem) hne]
      exact h.stored s (List.mem_append_left _ hs)
    · exact h'.stored s hs
  · exact List.forall_mem_append.mpr ⟨h.onBoard, h'.onBoard⟩
  · rw [h'.kept j (by rw [horder]; exact List.mem_append_left _ hj) hne, h.kept j hj hne]

/-- The board shows which shapes are on it. -/
theorem unique {stray' : Option Shape} {b : Shape} (h : d.Reaches board xs stray e)
    (h' : d.Reaches board ys stray' e) (hb : d.get? board = some b) :
    xs.map Shape.id = ys.map Shape.id := by
  have heq := h.appended.symm.trans h'.appended
  rw [hb] at heq
  have hchildren := congrArg Shape.children (Option.some.inj heq)
  exact List.append_cancel_left hchildren

end Reaches

/-- A run that succeeds gives the ids of shapes that are on the board then; one that is refused
leaves a stray shape. -/
def ReachedBy (d : Document) (board : ShapeId) :
    Except CanvasError (List ShapeId) × Document → Prop
  | (.ok ids, e) => ∃ shapes, d.Reaches board shapes none e ∧ ids = shapes.map Shape.id
  | (.error _, e) => ∃ shapes t, d.Reaches board shapes (some t) e

theorem ReachedBy.exists_reaches {p : Except CanvasError (List ShapeId) × Document}
    (h : ReachedBy d board p) : ∃ shapes stray, d.Reaches board shapes stray p.2 ∧
      stray.isSome = !p.1.isOk ∧ ∀ ids, p.1 = .ok ids → ids = shapes.map Shape.id := by
  rcases p with ⟨err | ids, e⟩
  · obtain ⟨shapes, t, h⟩ := h
    exact ⟨shapes, some t, h, rfl, fun _ hok => by cases hok⟩
  · obtain ⟨shapes, h, hids⟩ := h
    exact ⟨shapes, none, h, rfl, fun _ hok => by cases hok; exact hids⟩

/-- **Blocks that are drawn on a board lead to their shapes on it**; if a call is refused, to those
of the first of them and a stray one. -/
theorem reaches_of_drawAll : ∀ {blocks : List Block} {d : Document}, Ready d board →
    (∀ block ∈ blocks, block.Proper) →
      ReachedBy d board ((Block.drawAll board blocks).run canvas d)
  | [], d, _, _ => ⟨[], .refl d board, rfl⟩
  | block :: blocks, d, hd, hproper => by
    obtain ⟨hblock, hblocks⟩ := List.forall_mem_cons.mp hproper
    obtain ⟨b, hb, -⟩ := hd.board
    have hboard : board ∈ d.order := hd.wellFormed.mem_order_iff.mpr ⟨b, hb⟩
    refine Plan.run_bind_induction (P := ReachedBy d board) ?_ ?_
    · intro err e h
      obtain ⟨t, ht⟩ := strays_of_draw hd hblock h
      exact ⟨[], t, .of_strays ht (hd.wellFormed.run_plan h).order_nodup hboard⟩
    · intro id d₁ hfirst
      obtain ⟨s, hs, rfl, hext⟩ := extends_of_draw hd.wellFormed hb hfirst
      have hd₁ := hd.extend (hd.wellFormed.run_plan hfirst) hext
      have hnodup := hd₁.wellFormed.order_nodup
      have hon : ∀ t ∈ [s], t.OnBoard board :=
        List.forall_mem_singleton.mpr (hblock.plain.onBoard hs)
      have hthen {ys : List Shape} {stray : Option Shape} {e : Document}
          (h : d₁.Reaches board ys stray e) : d.Reaches board (s :: ys) stray e :=
        (Reaches.of_extends hext hon hnodup).append h hnodup hboard
      have hrest := reaches_of_drawAll hd₁ hblocks
      rw [Plan.run_bind]
      rcases hrun : (Block.drawAll board blocks).run canvas d₁ with ⟨err | ids, e⟩ <;>
        rw [hrun] at hrest
      · obtain ⟨shapes, t, hreach⟩ := hrest
        exact ⟨s :: shapes, t, hthen hreach⟩
      · obtain ⟨shapes, hreach, rfl⟩ := hrest
        exact ⟨s :: shapes, hthen hreach, rfl⟩

end Document

end Artboard
