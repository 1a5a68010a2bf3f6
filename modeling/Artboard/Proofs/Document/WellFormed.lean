import Artboard.Proofs.Document.Change

/-! # Well-formed documents

A document keeps its shapes and their order apart, and both ends of each link between a child and
its parent. That all of this agrees is `WellFormed`.

* `Indexed`, `Linked`, `Shape.Measured`: the parts of it, on ids, on links and on numbers.
* `WellFormed.change`: a step keeps a document well-formed, so it is after every run.
* `map_id_shapes`, `mem_shapes`, `shapeCount_eq`: the shapes of a well-formed document, each once.
* `map_id_children`, `mem_children_iff`: the children of a shape are the shapes with this parent.
* `mem_boards`, `map_id_boards_sublist`: the boards are those without a parent, in order.
* `representation_run`: all of this after every run from an empty document. -/

namespace Artboard

/-- A number that a document accepts for a width, a height, a radius or a font size. -/
def IsExtent (x : Float) : Prop := x.isFinite = true ∧ 0.0 ≤ x

theorem isExtent_zero : IsExtent 0.0 := by unfold IsExtent; decide

theorem isExtent_hundred : IsExtent 100.0 := by unfold IsExtent; decide

namespace Shape

/-- The numbers of a shape are ones that a document accepts. -/
structure Measured (s : Shape) : Prop where
  x : s.geometry.x.isFinite = true
  y : s.geometry.y.isFinite = true
  width : IsExtent s.geometry.width
  height : IsExtent s.geometry.height
  radius : ∀ r, s.borderRadius = some r → IsExtent r
  fontSize : ∀ content size weight, s.kind = .text content (some size) weight → IsExtent size

theorem isContainer_iff {s : Shape} : s.isContainer = true ↔ s.kind = .board := by
  simp [isContainer]

theorem measured_detached (id : ShapeId) (p : Primitive) : (detached id p.kind).Measured where
  x := isExtent_zero.1
  y := isExtent_zero.1
  width := by cases p <;> first | exact isExtent_hundred | exact isExtent_zero
  height := by cases p <;> first | exact isExtent_hundred | exact isExtent_zero
  radius r h := by cases h
  fontSize content size weight h := by cases p <;> cases h

end Shape

namespace Document

/-! ### Checked numbers -/

theorem checkCoordinate_eq_ok (field : String) {x : Float} :
    checkCoordinate field x = .ok () ↔ x.isFinite = true := by
  unfold checkCoordinate; split_ifs with h <;> simp [h]

theorem checkExtent_eq_ok (field : String) {x : Float} :
    checkExtent field x = .ok () ↔ IsExtent x := by
  unfold checkExtent IsExtent
  split_ifs with h <;> simpa using h

theorem checkNumbers_position {x y : Float} : checkNumbers (.position x y) = .ok () ↔
    x.isFinite = true ∧ y.isFinite = true := by
  simp only [checkNumbers, bind, Except.bind]
  rw [← checkCoordinate_eq_ok "x", ← checkCoordinate_eq_ok "y"]
  cases checkCoordinate "x" x <;> simp

theorem checkNumbers_size {w h : Float} :
    checkNumbers (.size w h) = .ok () ↔ IsExtent w ∧ IsExtent h := by
  simp only [checkNumbers, bind, Except.bind]
  rw [← checkExtent_eq_ok "width", ← checkExtent_eq_ok "height"]
  cases checkExtent "width" w <;> simp

/-- An accepted attribute keeps the numbers of a shape acceptable. -/
theorem measured_setAttribute {s t : Shape} {a : Attribute} (hs : s.Measured)
    (ha : checkNumbers a = .ok ()) (ht : setAttribute s a = .ok t) : t.Measured := by
  cases a
  case position x y =>
    obtain ⟨hx, hy⟩ := checkNumbers_position.mp ha
    cases ht; exact ⟨hx, hy, hs.width, hs.height, hs.radius, hs.fontSize⟩
  case size w h =>
    obtain ⟨hw, hh⟩ := checkNumbers_size.mp ha
    cases ht; exact ⟨hs.x, hs.y, hw, hh, hs.radius, hs.fontSize⟩
  case borderRadius r =>
    have hr := (checkExtent_eq_ok _).mp ha
    cases ht
    exact ⟨hs.x, hs.y, hs.width, hs.height, fun _ h => by cases h; exact hr, hs.fontSize⟩
  case fontSize size =>
    have hsize := (checkExtent_eq_ok _).mp ha
    cases hk : s.kind <;> simp only [setAttribute, hk] at ht <;> cases ht
    exact ⟨hs.x, hs.y, hs.width, hs.height, hs.radius, fun _ _ _ h => by cases h; exact hsize⟩
  case fontWeight weight =>
    cases hk : s.kind <;> simp only [setAttribute, hk] at ht <;> cases ht
    exact ⟨hs.x, hs.y, hs.width, hs.height, hs.radius, fun _ _ _ h => by
      cases h; exact hs.fontSize _ _ _ hk⟩
  all_goals cases ht; exact ⟨hs.x, hs.y, hs.width, hs.height, hs.radius, hs.fontSize⟩

/-! ### The invariant -/

/-- The shapes and their order agree on the ids, and the ids of shapes to come are free. -/
structure Indexed (d : Document) : Prop where
  /-- No id stands twice in the order of creation. -/
  order_nodup : d.order.Nodup
  /-- The order of creation has the ids that have a shape. -/
  mem_order : ∀ id, id ∈ d.order ↔ id ∈ d.store.ids
  /-- A shape is kept under its own id. -/
  own_id : ∀ id s, d.get? id = some s → s.id = id
  fresh : ∀ n, d.created ≤ n → d.get? (d.ids.id n) = none

/-- Children and parents agree on the links between them. -/
structure Linked (d : Document) : Prop where
  /-- A shape is among the children of another if and only if this is its parent. -/
  mem_children : ∀ p s c, d.get? p = some s → (c ∈ s.children ↔ d.parent? c = some p)
  children_nodup : ∀ p s, d.get? p = some s → s.children.Nodup
  /-- Only boards have children. -/
  childless : ∀ p s, d.get? p = some s → s.kind ≠ .board → s.children = []
  /-- A parent is a board that is there, and not the shape itself. -/
  parent_board : ∀ c p, d.parent? c = some p → p ≠ c ∧ ∃ b, d.get? p = some b ∧ b.kind = .board

/-- **All that a document keeps agrees.** -/
structure WellFormed (d : Document) : Prop extends Indexed d, Linked d where
  measured : ∀ id s, d.get? id = some s → s.Measured

/-- A document without shapes is well-formed. -/
theorem wellFormed_of_empty {d : Document} (hs : d.store = .empty) (ho : d.order = []) :
    WellFormed d := by
  have hget : ∀ id, d.get? id = none := fun id => by rw [get?, hs]; rfl
  have hpar : ∀ id, d.parent? id = none := fun id => by rw [parent?, hget]; rfl
  refine ⟨⟨?_, ?_, ?_, ?_⟩, ⟨?_, ?_, ?_, ?_⟩, ?_⟩ <;>
    simp [hs, ho, hget, hpar, Store.ids, Store.empty]

/-! ### What is kept when shapes change -/

namespace Indexed

variable {d : Document} (hd : Indexed d)
include hd

theorem mem_order_iff {id : ShapeId} : id ∈ d.order ↔ ∃ s, d.get? id = some s :=
  (hd.mem_order id).trans Store.mem_ids

theorem get?_nextId : d.get? d.nextId = none := hd.fresh _ (Nat.le_refl _)

theorem nextId_not_mem_order : d.nextId ∉ d.order := by
  rw [hd.mem_order_iff, hd.get?_nextId]; simp

theorem create (p : Primitive) : Indexed (d.create p).2 where
  order_nodup := by
    rw [order_create, List.nodup_append]
    refine ⟨hd.order_nodup, List.pairwise_singleton _ _, fun a ha b hb => ?_⟩
    rintro rfl
    exact hd.nextId_not_mem_order (List.mem_singleton.mp hb ▸ ha)
  mem_order id := by
    rw [order_create, List.mem_append, List.mem_singleton, hd.mem_order_iff, Store.mem_ids]
    show _ ↔ ∃ s, (d.create p).2.get? id = some s
    rw [get?_create]
    by_cases h : id = d.nextId <;> simp [h]
  own_id id s h := by
    rw [get?_create] at h
    split_ifs at h with hid
    · cases h; exact hid.symm
    · exact hd.own_id id s h
  fresh n hn := by
    rw [created_create] at hn
    rw [ids_create, get?_create, if_neg, hd.fresh n (by omega)]
    intro h
    have := d.ids.distinct n d.created h
    omega

/-- Shapes may change as long as they keep their ids. -/
theorem map {e : Document} {g : ShapeId → Shape → Shape}
    (hget : ∀ j, e.get? j = (d.get? j).map (g j))
    (hid : ∀ j s, d.get? j = some s → (g j s).id = s.id)
    (horder : e.order = d.order) (hcreated : e.created = d.created) (hids : e.ids = d.ids) :
    Indexed e where
  order_nodup := by rw [horder]; exact hd.order_nodup
  mem_order id := by
    rw [horder, hd.mem_order_iff, Store.mem_ids]
    show _ ↔ ∃ s, e.get? id = some s
    rw [hget]
    cases d.get? id <;> simp
  own_id id t h := by
    rw [hget] at h
    obtain ⟨s, hs, rfl⟩ := Option.map_eq_some_iff.mp h
    rw [hid id s hs]; exact hd.own_id id s hs
  fresh n hn := by
    rw [hcreated] at hn
    rw [hget, hids, hd.fresh n hn]; rfl

end Indexed

namespace Linked

variable {d : Document} (hd : Linked d)
include hd

/-- A new shape has no links. -/
theorem create (hnext : d.get? d.nextId = none) (p : Primitive) : Linked (d.create p).2 := by
  have hpar := parent?_create hnext p
  have hno : ∀ c, d.parent? c ≠ some d.nextId := by
    intro c h
    obtain ⟨-, b, hb, -⟩ := hd.parent_board c _ h
    rw [hnext] at hb; cases hb
  refine ⟨fun q s c h => ?_, fun q s h => ?_, fun q s h hk => ?_, fun c q h => ?_⟩
  · rw [hpar]
    rw [get?_create] at h
    split_ifs at h with hq
    · cases h
      exact ⟨fun hc => (List.not_mem_nil hc).elim, fun hc => absurd (hq ▸ hc) (hno c)⟩
    · exact hd.mem_children q s c h
  · rw [get?_create] at h
    split_ifs at h
    · cases h; exact List.nodup_nil
    · exact hd.children_nodup q s h
  · rw [get?_create] at h
    split_ifs at h
    · cases h; rfl
    · exact hd.childless q s h hk
  · rw [hpar] at h
    have hq : q ≠ d.nextId := by rintro rfl; exact hno c h
    obtain ⟨hne, b, hb, hk⟩ := hd.parent_board c q h
    exact ⟨hne, b, by rw [get?_create, if_neg hq, hb], hk⟩

/-- Shapes may change as long as they keep links and kind. -/
theorem map {e : Document} {g : ShapeId → Shape → Shape}
    (hget : ∀ j, e.get? j = (d.get? j).map (g j))
    (hparent : ∀ j s, d.get? j = some s → (g j s).parent = s.parent)
    (hchildren : ∀ j s, d.get? j = some s → (g j s).children = s.children)
    (hboard : ∀ j s, d.get? j = some s → ((g j s).kind = .board ↔ s.kind = .board)) :
    Linked e := by
  have hpar : ∀ j, e.parent? j = d.parent? j := by
    intro j
    rw [parent?, parent?, hget]
    cases h : d.get? j with
    | none => rfl
    | some s => exact hparent j s h
  refine ⟨fun q t c h => ?_, fun q t h => ?_, fun q t h hk => ?_, fun c q h => ?_⟩
  · rw [hget] at h
    obtain ⟨s, hs, rfl⟩ := Option.map_eq_some_iff.mp h
    rw [hpar, hchildren q s hs]; exact hd.mem_children q s c hs
  · rw [hget] at h
    obtain ⟨s, hs, rfl⟩ := Option.map_eq_some_iff.mp h
    rw [hchildren q s hs]; exact hd.children_nodup q s hs
  · rw [hget] at h
    obtain ⟨s, hs, rfl⟩ := Option.map_eq_some_iff.mp h
    rw [hchildren q s hs]; exact hd.childless q s hs fun hb => hk ((hboard q s hs).mpr hb)
  · rw [hpar] at h
    obtain ⟨hne, b, hb, hk⟩ := hd.parent_board c q h
    exact ⟨hne, g q b, by rw [hget, hb]; rfl, (hboard q b hb).mpr hk⟩

/-- **A shape that is moved leaves the children of its old parent and becomes the last child of the
new one.** The two may be the same board. -/
theorem attach {parent child : ShapeId} {p c : Shape} (hc : d.get? child = some c)
    (hne : parent ≠ child) (hp : d.get? parent = some p) (hb : p.kind = .board) :
    Linked (d.attach parent child) := by
  have hpar := parent?_attach parent hc
  -- the children that stay, with the moved one taken out wherever it was
  have hstay : ∀ q s, d.get? q = some s → ∀ x,
      x ∈ (if d.parent? child = some q then s.children.filter (· ≠ child) else s.children) ↔
        x ≠ child ∧ d.parent? x = some q := by
    intro q s hs x
    have hx := hd.mem_children q s x hs
    split_ifs with hq
    · simp [hx, and_comm]
    · rw [hx]
      exact ⟨fun h => ⟨fun e => hq (e ▸ h), h⟩, And.right⟩
  refine ⟨fun q t x h => ?_, fun q t h => ?_, fun q t h hk => ?_, fun x q h => ?_⟩
  · rw [get?_attach] at h
    obtain ⟨s, hs, rfl⟩ := Option.map_eq_some_iff.mp h
    rw [hpar]
    show x ∈ _ ++ _ ↔ _
    rw [List.mem_append, hstay q s hs]
    by_cases hx : x = child
    · by_cases hq : q = parent
      · simp [hx, hq]
      · simp [hx, hq, Ne.symm hq]
    · by_cases hq : q = parent <;> simp [hx, hq]
  · rw [get?_attach] at h
    obtain ⟨s, hs, rfl⟩ := Option.map_eq_some_iff.mp h
    show List.Nodup (_ ++ _)
    have hnd := hd.children_nodup q s hs
    rw [List.nodup_append]
    refine ⟨?_, ?_, fun a ha b hb => ?_⟩
    · split_ifs
      · exact hnd.filter _
      · exact hnd
    · split_ifs
      · exact List.pairwise_singleton _ _
      · exact List.nodup_nil
    · split_ifs at hb
      · rw [List.mem_singleton.mp hb]; exact ((hstay q s hs a).mp ha).1
      · cases hb
  · rw [get?_attach] at h
    obtain ⟨s, hs, rfl⟩ := Option.map_eq_some_iff.mp h
    have hq : q ≠ parent := by
      rintro rfl; rw [hp] at hs; cases hs; exact hk hb
    show (if _ then _ else _) ++ (if _ then _ else _) = []
    rw [if_neg hq, hd.childless q s hs hk]
    split_ifs <;> rfl
  · rw [hpar] at h
    have hkind : ∀ b : Shape, d.get? q = some b → b.kind = .board →
        ∃ b', (d.attach parent child).get? q = some b' ∧ b'.kind = .board := fun b hq hk =>
      ⟨relinked (d.parent? child) parent child q b, by rw [get?_attach, hq]; rfl, hk⟩
    split_ifs at h with hx
    · cases h
      exact ⟨hx ▸ hne, hkind p hp hb⟩
    · obtain ⟨hqx, b, hbq, hk⟩ := hd.parent_board x q h
      exact ⟨hqx, hkind b hbq hk⟩

end Linked

/-! ### Every step keeps a document well-formed -/

namespace WellFormed

variable {d : Document} (hd : WellFormed d)
include hd

theorem create (p : Primitive) : WellFormed (d.create p).2 where
  toIndexed := hd.toIndexed.create p
  toLinked := hd.toLinked.create hd.get?_nextId p
  measured id s h := by
    rw [get?_create] at h
    split_ifs at h
    · cases h; exact Shape.measured_detached _ p
    · exact hd.measured id s h

theorem set {id : ShapeId} {a : Attribute} {s t : Shape} (ha : checkNumbers a = .ok ())
    (hs : d.get? id = some s) (ht : setAttribute s a = .ok t) :
    WellFormed (d.modify id fun _ => t) := by
  obtain ⟨hid, hpar, hch, hboard⟩ := setAttribute_eq_ok ht
  have hget : ∀ j, (d.modify id fun _ => t).get? j =
      (d.get? j).map fun u => if j = id then t else u := by
    intro j
    rw [get?_modify]
    split_ifs
    · rfl
    · cases d.get? j <;> rfl
  refine ⟨hd.toIndexed.map hget (fun j u hu => ?_) rfl rfl rfl,
    hd.toLinked.map hget (fun j u hu => ?_) (fun j u hu => ?_) (fun j u hu => ?_), fun j u hu => ?_⟩
  · split_ifs with h
    · subst h; rw [hs] at hu; cases hu; exact hid
    · rfl
  · split_ifs with h
    · subst h; rw [hs] at hu; cases hu; exact hpar
    · rfl
  · split_ifs with h
    · subst h; rw [hs] at hu; cases hu; exact hch
    · rfl
  · split_ifs with h
    · subst h; rw [hs] at hu; cases hu
      rw [← Shape.isContainer_iff, hboard, Shape.isContainer_iff]
    · exact Iff.rfl
  · rw [hget] at hu
    obtain ⟨w, hw, rfl⟩ := Option.map_eq_some_iff.mp hu
    split_ifs
    · exact measured_setAttribute (hd.measured id s hs) ha ht
    · exact hd.measured j w hw

theorem attach {parent child : ShapeId} {p c : Shape} (hc : d.get? child = some c)
    (hne : parent ≠ child) (hp : d.get? parent = some p) (hb : p.isContainer = true) :
    WellFormed (d.attach parent child) where
  toIndexed := hd.toIndexed.map (get?_attach d parent child) (fun _ _ _ => rfl)
    (order_attach ..) (created_attach ..) (ids_attach ..)
  toLinked := hd.toLinked.attach hc hne hp (Shape.isContainer_iff.mp hb)
  measured j t h := by
    rw [get?_attach] at h
    obtain ⟨s, hs, rfl⟩ := Option.map_eq_some_iff.mp h
    obtain ⟨hx, hy, hw, hh, hr, hf⟩ := hd.measured j s hs
    exact ⟨hx, hy, hw, hh, hr, hf⟩

/-- The viewport has no part in it. -/
theorem look (v : Viewport) : WellFormed (d.look v) :=
  ⟨⟨hd.order_nodup, hd.mem_order, hd.own_id, hd.fresh⟩,
    ⟨hd.mem_children, hd.children_nodup, hd.childless, hd.parent_board⟩, hd.measured⟩

/-- **A step keeps a document well-formed.** -/
theorem change {s : Step} {e : Document} (h : Change d s e) : WellFormed e := by
  cases h with
  | create p => exact hd.create p
  | set ok found given => exact hd.set ok found given
  | attach child_found ne parent_found board => exact hd.attach child_found ne parent_found board
  | refused _ => exact hd
  | clear => exact wellFormed_of_empty rfl rfl
  | look v => exact hd.look v

theorem run (steps : List Step) : WellFormed (d.run steps) :=
  run_induction (fun _ _ _ hd h => hd.change h) hd steps

/-! ### What is seen of a well-formed document -/

/-- Looking up stored ids gives a shape for each of them, in order. -/
theorem map_id_filterMap : ∀ {l : List ShapeId}, (∀ id ∈ l, ∃ s, d.get? id = some s) →
    (l.filterMap d.get?).map Shape.id = l
  | [], _ => rfl
  | id :: l, h => by
    obtain ⟨s, hs⟩ := h id (List.mem_cons_self ..)
    rw [List.filterMap_cons_some hs, List.map_cons, hd.own_id id s hs,
      map_id_filterMap fun j hj => h j (List.mem_cons_of_mem _ hj)]

theorem map_id_shapes : d.shapes.map Shape.id = d.order :=
  hd.map_id_filterMap fun _ h => hd.mem_order_iff.mp h

theorem mem_shapes {s : Shape} : s ∈ d.shapes ↔ d.get? s.id = some s := by
  rw [shapes, List.mem_filterMap]
  constructor
  · rintro ⟨id, -, h⟩; rwa [hd.own_id id s h]
  · intro h; exact ⟨s.id, hd.mem_order_iff.mpr ⟨s, h⟩, h⟩

theorem shapeCount_eq : d.shapeCount = d.order.length := by
  have hperm : d.store.ids.Perm d.order :=
    (List.perm_ext_iff_of_nodup d.store.nodup hd.order_nodup).mpr fun id => (hd.mem_order id).symm
  rw [shapeCount, ← Store.length_ids, hperm.length_eq]

theorem map_id_children {p : ShapeId} {s : Shape} (hs : d.get? p = some s) :
    (d.children p).map Shape.id = s.children := by
  rw [children, hs]
  refine hd.map_id_filterMap fun c hc => ?_
  obtain ⟨t, ht, -⟩ := parent?_eq_some.mp ((hd.mem_children p s c hs).mp hc)
  exact ⟨t, ht⟩

theorem mem_children_iff {p : ShapeId} {t : Shape} :
    t ∈ d.children p ↔ d.get? t.id = some t ∧ t.parent = some p := by
  constructor
  · intro h
    cases hp : d.get? p with
    | none => rw [children, hp] at h; cases h
    | some s =>
      rw [children, hp] at h
      obtain ⟨c, hc, ht⟩ := List.mem_filterMap.mp h
      rw [hd.own_id c t ht]
      exact ⟨ht, by rw [← parent?_of_get? ht, (hd.mem_children p s c hp).mp hc]⟩
  · rintro ⟨ht, hpar⟩
    have hpar' := (parent?_of_get? ht).trans hpar
    obtain ⟨-, s, hs, -⟩ := hd.parent_board t.id p hpar'
    rw [children, hs]
    exact List.mem_filterMap.mpr ⟨t.id, (hd.mem_children p s t.id hs).mpr hpar', ht⟩

theorem mem_boards {s : Shape} :
    s ∈ d.boards ↔ d.get? s.id = some s ∧ s.parent = none ∧ s.kind = .board := by
  rw [boards, List.mem_filter, hd.mem_shapes]
  simp [Shape.isContainer]

theorem map_id_boards_sublist : (d.boards.map Shape.id).Sublist d.order := by
  rw [← hd.map_id_shapes]; exact List.filter_sublist.map _

end WellFormed

/-! ### Runs -/

theorem wellFormed_new (ids : IdSupply) (v : Viewport) : WellFormed (new ids v) :=
  wellFormed_of_empty rfl rfl

theorem Reachable.wellFormed {d : Document} (h : Reachable d) : WellFormed d := by
  obtain ⟨ids, v, steps, rfl⟩ := h
  exact (wellFormed_new ids v).run steps

/-- **What a document keeps agrees after every sequence of steps**, accepted or refused, and so its
shapes, children and boards are each seen once, in order, and none is missing. -/
theorem representation_run (ids : IdSupply) (v : Viewport) (steps : List Step) :
    let d := (new ids v).run steps
    WellFormed d ∧
      (d.shapes.map Shape.id = d.order ∧ (∀ s, s ∈ d.shapes ↔ d.get? s.id = some s) ∧
        d.shapeCount = d.order.length) ∧
      ((∀ p s, d.get? p = some s → (d.children p).map Shape.id = s.children) ∧
        ∀ p t, t ∈ d.children p ↔ d.get? t.id = some t ∧ t.parent = some p) ∧
      ((d.boards.map Shape.id).Sublist d.order ∧
        ∀ s, s ∈ d.boards ↔ d.get? s.id = some s ∧ s.parent = none ∧ s.kind = .board) := by
  intro d
  have hd : WellFormed d := (wellFormed_new ids v).run steps
  exact ⟨hd, ⟨hd.map_id_shapes, fun _ => hd.mem_shapes, hd.shapeCount_eq⟩,
    ⟨fun _ _ => hd.map_id_children, fun _ _ => hd.mem_children_iff⟩,
    ⟨hd.map_id_boards_sublist, fun _ => hd.mem_boards⟩⟩

end Document

end Artboard
