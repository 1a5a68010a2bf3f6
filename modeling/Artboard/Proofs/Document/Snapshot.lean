import Artboard.Proofs.Document.Ancestry

/-! # What a snapshot shows

A snapshot is made by going down from the boards without a parent, from children to their children.
Nothing in a document says that this ends.

* `Captures`: the descent from a shape, without a bound on its depth, ends with a layer.
* `captures_layer`: below a shape whose links upwards end, it ends. `not_captures_of_cycle`: from a
  shape below itself it does not.
* `nodup_ids_layer`: no shape is met twice. `mem_ids_layer`: the shapes that are met are those that
  lie below.
* `exists_of_mem_layer`: each layer shows its shape and all children of it.
* `snapshot_run`: what the snapshot shows of a document after any run.
* `forest_iff_boards_shown`: a document is a forest exactly if its snapshot shows all boards.
* `boards_shown_run`: so the snapshots of a run show all boards if no step closes a cycle. -/

namespace Artboard

namespace Layer

mutual

/-- A layer and all layers under it. -/
def all : Layer → List Layer
  | .node face children => .node face children :: alls children

/-- Layers and all layers under them. -/
def alls : List Layer → List Layer
  | [] => []
  | l :: rest => l.all ++ alls rest

end

/-- The ids of a layer and of all layers under it. -/
def ids (l : Layer) : List ShapeId := l.all.map fun m => m.face.id

theorem alls_eq_flatMap : ∀ ls : List Layer, alls ls = ls.flatMap all
  | [] => rfl
  | l :: ls => by rw [alls, alls_eq_flatMap ls, List.flatMap_cons]

end Layer

namespace Snapshot

/-- All layers of a snapshot. -/
def layers (s : Snapshot) : List Layer := Layer.alls s.boards

/-- The ids that a snapshot shows, one for each layer. -/
def ids (s : Snapshot) : List ShapeId := s.layers.map fun l => l.face.id

theorem ids_eq_flatMap (s : Snapshot) : s.ids = s.boards.flatMap Layer.ids := by
  rw [ids, layers, Layer.alls_eq_flatMap, List.map_flatMap]; rfl

end Snapshot

namespace Document

mutual

/-- The descent from a shape to its children, their children and so on ends with a layer. -/
inductive Captures (d : Document) : Shape → Layer → Prop
  | node {s : Shape} {ls : List Layer} (below : CapturesAll d (d.children s.id) ls) :
      Captures d s (.node s.face ls)

/-- The descents from several shapes end with layers, one for each. -/
inductive CapturesAll (d : Document) : List Shape → List Layer → Prop
  | nil : CapturesAll d [] []
  | cons {s : Shape} {ss : List Shape} {l : Layer} {ls : List Layer} (first : Captures d s l)
      (rest : CapturesAll d ss ls) : CapturesAll d (s :: ss) (l :: ls)

end

section Captures
variable {d : Document}

mutual

/-- A descent ends with one layer at most. -/
theorem Captures.unique {s : Shape} {l m : Layer} : Captures d s l → Captures d s m → l = m
  | .node h, .node h' => by rw [h.unique h']

theorem CapturesAll.unique {ss : List Shape} {ls ms : List Layer} :
    CapturesAll d ss ls → CapturesAll d ss ms → ls = ms
  | .nil, .nil => rfl
  | .cons h hs, .cons h' hs' => by rw [h.unique h', hs.unique hs']

end

theorem capturesAll_map {g : Shape → Layer} : ∀ {ss : List Shape},
    (∀ s ∈ ss, Captures d s (g s)) → CapturesAll d ss (ss.map g)
  | [], _ => .nil
  | s :: _, h => .cons (h s (List.mem_cons_self ..))
      (capturesAll_map fun t ht => h t (List.mem_cons_of_mem _ ht))

theorem CapturesAll.exists_of_mem {t : Shape} : ∀ {ss : List Shape} {ls : List Layer},
    CapturesAll d ss ls → t ∈ ss → ∃ l ∈ ls, Captures d t l
  | _, _, .cons first rest, ht => by
    rcases List.mem_cons.mp ht with rfl | ht
    · exact ⟨_, List.mem_cons_self .., first⟩
    · obtain ⟨l, hl, h⟩ := rest.exists_of_mem ht
      exact ⟨l, List.mem_cons_of_mem _ hl, h⟩

/-- A descent that ends goes through all that lies below, to smaller and smaller layers. -/
theorem Captures.descend (hd : WellFormed d) {s : Shape} {l : Layer} (h : Captures d s l)
    (hs : d.get? s.id = some s) : ∀ {k : ℕ} {t : Shape}, d.get? t.id = some t →
      d.ascend k t.id = some s.id → ∃ m, Captures d t m ∧ sizeOf m + k ≤ sizeOf l
  | 0, t, ht, hk => by
    rw [Option.some.inj hk, hs] at ht
    obtain rfl := Option.some.inj ht
    exact ⟨l, h, Nat.le_refl _⟩
  | k + 1, t, ht, hk => by
    obtain ⟨p, hp, hk⟩ := Option.bind_eq_some_iff.mp hk
    obtain ⟨-, b, hb, -⟩ := hd.parent_board t.id p hp
    obtain rfl := hd.own_id p b hb
    obtain ⟨m, hm, hsize⟩ := h.descend hd hs hb hk
    cases hm with
    | node below =>
      have hchild : t ∈ d.children b.id :=
        hd.mem_children_iff.mpr ⟨ht, (parent?_of_get? ht).symm.trans hp⟩
      obtain ⟨m', hm', hcap⟩ := below.exists_of_mem hchild
      have hlt := List.sizeOf_lt_of_mem hm'
      refine ⟨m', hcap, ?_⟩
      rw [Layer.node.sizeOf_spec] at hsize
      omega

/-- **From a shape below itself the descent does not end.** -/
theorem not_captures_of_cycle (hd : WellFormed d) {s : Shape} (hs : d.get? s.id = some s) {k : ℕ}
    (hk : d.ascend (k + 1) s.id = some s.id) (l : Layer) : ¬ Captures d s l := by
  intro h
  obtain ⟨m, hm, hsize⟩ := h.descend hd hs hs hk
  rw [hm.unique h] at hsize
  omega

end Captures

/-! ### Layers of a document -/

section Layers
variable (d : Document) (depth : ℕ) (s : Shape)

@[simp] theorem face_layer : (d.layer depth s).face = s.face := by cases depth <;> rfl

theorem children_layer_succ :
    (d.layer (depth + 1) s).children = (d.children s.id).map (d.layer depth) := rfl

theorem all_layer_succ : (d.layer (depth + 1) s).all =
    d.layer (depth + 1) s :: (d.children s.id).flatMap fun t => (d.layer depth t).all := by
  show _ :: Layer.alls ((d.children s.id).map (d.layer depth)) = _
  rw [Layer.alls_eq_flatMap, List.flatMap_map]; rfl

theorem ids_layer_zero : (d.layer 0 s).ids = [s.id] := rfl

theorem ids_layer_succ : (d.layer (depth + 1) s).ids =
    s.id :: (d.children s.id).flatMap fun t => (d.layer depth t).ids := by
  rw [Layer.ids, all_layer_succ, List.map_cons, face_layer, List.map_flatMap]; rfl

end Layers

section Below
variable {d : Document} {depth n : ℕ} {s t : Shape} {id root root' : ShapeId}

/-- **What lies in a layer are the shapes that lie below it**, down to its depth. -/
theorem mem_ids_layer (hd : WellFormed d) : ∀ {depth : ℕ} {s : Shape},
    d.get? s.id = some s →
      (id ∈ (d.layer depth s).ids ↔ ∃ k, k ≤ depth ∧ d.ascend k id = some s.id)
  | 0, s, _ => by
    rw [ids_layer_zero, List.mem_singleton]
    constructor
    · rintro rfl; exact ⟨0, Nat.le_refl 0, rfl⟩
    · rintro ⟨k, hk, h⟩
      obtain rfl := Nat.le_zero.mp hk
      cases h; rfl
  | depth + 1, s, hs => by
    rw [ids_layer_succ, List.mem_cons, List.mem_flatMap]
    constructor
    · rintro (rfl | ⟨t, ht, hid⟩)
      · exact ⟨0, Nat.zero_le _, rfl⟩
      · obtain ⟨ht, hpar⟩ := hd.mem_children_iff.mp ht
        obtain ⟨k, hk, h⟩ := (mem_ids_layer hd ht).mp hid
        refine ⟨k + 1, Nat.succ_le_succ hk, ?_⟩
        rw [ascend_parent? h, parent?_of_get? ht, hpar]
    · rintro ⟨k, hk, h⟩
      cases k with
      | zero => cases h; exact .inl rfl
      | succ k =>
        -- the last link but one leads to a child of `s`
        obtain ⟨b, hb⟩ := ascend_of_le h (Nat.le_succ k)
        rw [ascend_parent? hb] at h
        obtain ⟨t, ht, hpar⟩ := parent?_eq_some.mp h
        obtain rfl := hd.own_id b t ht
        refine .inr ⟨t, hd.mem_children_iff.mpr ⟨ht, hpar⟩, ?_⟩
        exact (mem_ids_layer hd ht).mpr ⟨k, Nat.le_of_succ_le_succ hk, hb⟩

/-- Nothing lies below two shapes of one level. -/
theorem disjoint_ids_layer (hd : WellFormed d) (hs : d.get? s.id = some s)
    (ht : d.get? t.id = some t) (hls : d.Level s.id n root) (hlt : d.Level t.id n root')
    (hne : s.id ≠ t.id) : List.Disjoint (d.layer depth s).ids (d.layer depth t).ids := by
  intro id hids hidt
  obtain ⟨k, -, hk⟩ := (mem_ids_layer hd hs).mp hids
  obtain ⟨m, -, hm⟩ := (mem_ids_layer hd ht).mp hidt
  have hkm : k = m := Nat.add_right_cancel ((hls.descend hk).unique (hlt.descend hm))
  subst hkm
  rw [hk] at hm
  exact hne (Option.some.inj hm)

/-- The layers of different shapes of one level show no shape twice if each of them does not. -/
theorem nodup_flatMap_ids (hd : WellFormed d) {l : List Shape} (hl : (l.map Shape.id).Nodup)
    (hlevel : ∀ t ∈ l, d.get? t.id = some t ∧ ∃ root, d.Level t.id n root)
    (heach : ∀ t ∈ l, (d.layer depth t).ids.Nodup) :
    (l.flatMap fun t => (d.layer depth t).ids).Nodup := by
  refine List.nodup_flatMap.mpr ⟨heach, ?_⟩
  refine (List.pairwise_map.mp hl).imp_of_mem fun {s t} hs ht hne => ?_
  obtain ⟨hgs, _, hls⟩ := hlevel s hs
  obtain ⟨hgt, _, hlt⟩ := hlevel t ht
  exact disjoint_ids_layer hd hgs hgt hls hlt hne

theorem level_of_mem_children (hd : WellFormed d) (h : d.Level s.id n root)
    (ht : t ∈ d.children s.id) : d.get? t.id = some t ∧ d.Level t.id (n + 1) root := by
  obtain ⟨hget, hpar⟩ := hd.mem_children_iff.mp ht
  exact ⟨hget, h.child ((parent?_of_get? hget).trans hpar)⟩

/-- **No shape is met twice on the way down.** -/
theorem nodup_ids_layer (hd : WellFormed d) : ∀ {depth n : ℕ} {s : Shape},
    d.get? s.id = some s → d.Level s.id n root → (d.layer depth s).ids.Nodup
  | 0, _, s, _, _ => by rw [ids_layer_zero]; exact List.nodup_singleton _
  | depth + 1, n, s, hs, h => by
    have hchild : ∀ t ∈ d.children s.id, d.get? t.id = some t ∧ d.Level t.id (n + 1) root :=
      fun t ht => level_of_mem_children hd h ht
    rw [ids_layer_succ]
    refine List.nodup_cons.mpr ⟨?_, ?_⟩
    · intro hmem
      obtain ⟨t, ht, hid⟩ := List.mem_flatMap.mp hmem
      obtain ⟨hget, hpar⟩ := hd.mem_children_iff.mp ht
      obtain ⟨k, -, hk⟩ := (mem_ids_layer hd hget).mp hid
      refine h.no_cycle k ?_
      rw [ascend_parent? hk, parent?_of_get? hget, hpar]
    · refine nodup_flatMap_ids hd ?_ (fun t ht => ⟨(hchild t ht).1, root, (hchild t ht).2⟩) ?_
      · rw [hd.map_id_children hs]; exact hd.children_nodup _ s hs
      · exact fun t ht => nodup_ids_layer hd (hchild t ht).1 (hchild t ht).2

/-- **The descent ends, and a depth that all shapes together cannot exceed does not cut it
short.** -/
theorem captures_layer (hd : WellFormed d) : ∀ {depth n : ℕ} {s : Shape},
    d.get? s.id = some s → d.Level s.id n root → d.order.length ≤ n + depth →
      Captures d s (d.layer depth s)
  | 0, n, s, hs, h, hlen => absurd (h.lt_length hd ⟨s, hs⟩) (Nat.not_lt_of_le hlen)
  | depth + 1, n, s, hs, h, hlen => by
    refine .node (capturesAll_map fun t ht => ?_)
    obtain ⟨hget, hlevel⟩ := level_of_mem_children hd h ht
    exact captures_layer hd hget hlevel (by omega)

/-- **Each layer shows its shape as it is stored, and below it all children of it in order.** -/
theorem exists_of_mem_layer (hd : WellFormed d) : ∀ {depth n : ℕ} {s : Shape},
    d.get? s.id = some s → d.Level s.id n root → d.order.length ≤ n + depth →
      ∀ l ∈ (d.layer depth s).all, ∃ t, d.get? t.id = some t ∧ l.face = t.face ∧
        l.children.map (fun c => c.face.id) = t.children
  | 0, n, s, hs, h, hlen => absurd (h.lt_length hd ⟨s, hs⟩) (Nat.not_lt_of_le hlen)
  | depth + 1, n, s, hs, h, hlen => by
    intro l hl
    rw [all_layer_succ, List.mem_cons, List.mem_flatMap] at hl
    rcases hl with rfl | ⟨t, ht, hl⟩
    · refine ⟨s, hs, face_layer .., ?_⟩
      rw [children_layer_succ, List.map_map, ← hd.map_id_children hs]
      exact List.map_congr_left fun t _ => by rw [Function.comp_apply, face_layer]; rfl
    · obtain ⟨hget, hlevel⟩ := level_of_mem_children hd h ht
      exact exists_of_mem_layer hd hget hlevel (by omega) l hl

end Below

/-! ### Snapshots of well-formed documents -/

theorem ids_snapshot (d : Document) :
    d.snapshot.ids = d.boards.flatMap fun s => (d.layer d.shapeCount s).ids := by
  rw [Snapshot.ids_eq_flatMap, snapshot, List.flatMap_map]

theorem map_id_snapshot_boards (d : Document) :
    d.snapshot.boards.map (fun l => l.face.id) = d.boards.map Shape.id := by
  rw [snapshot, List.map_map]
  exact List.map_congr_left fun s _ => by rw [Function.comp_apply, face_layer]; rfl

namespace WellFormed

variable {d : Document} (hd : WellFormed d)
include hd

theorem level_of_mem_boards {s : Shape} (hs : s ∈ d.boards) :
    d.get? s.id = some s ∧ d.Level s.id 0 s.id := by
  obtain ⟨hget, hpar, -⟩ := hd.mem_boards.mp hs
  exact ⟨hget, .of_root ((parent?_of_get? hget).trans hpar)⟩

theorem length_le_shapeCount : d.order.length ≤ 0 + d.shapeCount := by
  rw [Nat.zero_add, hd.shapeCount_eq]

theorem captures_boards : CapturesAll d d.boards d.snapshot.boards := by
  refine capturesAll_map fun s hs => ?_
  obtain ⟨hget, hlevel⟩ := hd.level_of_mem_boards hs
  exact captures_layer hd hget hlevel hd.length_le_shapeCount

theorem nodup_ids_snapshot : d.snapshot.ids.Nodup := by
  rw [ids_snapshot]
  refine nodup_flatMap_ids (n := 0) hd (hd.order_nodup.sublist hd.map_id_boards_sublist) ?_ ?_
  · intro s hs
    obtain ⟨hget, hlevel⟩ := hd.level_of_mem_boards hs
    exact ⟨hget, s.id, hlevel⟩
  · intro s hs
    obtain ⟨hget, hlevel⟩ := hd.level_of_mem_boards hs
    exact nodup_ids_layer hd hget hlevel

/-- The shapes that are shown are those whose links end at a board. -/
theorem mem_ids_snapshot {id : ShapeId} : id ∈ d.snapshot.ids ↔
    ∃ n root b, d.ascend n id = some root ∧ d.get? root = some b ∧ b.parent = none ∧
      b.kind = .board := by
  rw [ids_snapshot, List.mem_flatMap]
  constructor
  · rintro ⟨b, hb, hid⟩
    obtain ⟨hget, hpar, hkind⟩ := hd.mem_boards.mp hb
    obtain ⟨n, -, hn⟩ := (mem_ids_layer hd hget).mp hid
    exact ⟨n, b.id, b, hn, hget, hpar, hkind⟩
  · rintro ⟨n, root, b, hn, hget, hpar, hkind⟩
    obtain rfl := hd.own_id root b hget
    refine ⟨b, hd.mem_boards.mpr ⟨hget, hpar, hkind⟩, (mem_ids_layer hd hget).mpr ⟨n, ?_, hn⟩⟩
    have hlevel : d.Level id n b.id := ⟨hn, (parent?_of_get? hget).trans hpar⟩
    have hlt := hlevel.lt_length hd (exists_of_ascend hn hget)
    rw [hd.shapeCount_eq]; omega

theorem exists_of_mem_layers {l : Layer} (hl : l ∈ d.snapshot.layers) :
    ∃ s, d.get? s.id = some s ∧ l.face = s.face ∧
      l.children.map (fun c => c.face.id) = s.children := by
  rw [Snapshot.layers, Layer.alls_eq_flatMap, snapshot, List.flatMap_map, List.mem_flatMap] at hl
  obtain ⟨s, hs, hl⟩ := hl
  obtain ⟨hget, hlevel⟩ := hd.level_of_mem_boards hs
  exact exists_of_mem_layer hd hget hlevel hd.length_le_shapeCount l hl

end WellFormed

/-- **What a snapshot shows after every sequence of steps.** The descent from the boards without a
parent ends and meets no shape twice. It meets those whose links upwards end at a board; the
snapshot has the boards in the order of creation, and below each shape its children. -/
theorem snapshot_run (ids : IdSupply) (v : Viewport) (steps : List Step) :
    let d := (new ids v).run steps
    (∀ ls, CapturesAll d d.boards ls ↔ ls = d.snapshot.boards) ∧
      d.snapshot.ids.Nodup ∧
      (∀ id, id ∈ d.snapshot.ids ↔ ∃ n root b, d.ascend n id = some root ∧
        d.get? root = some b ∧ b.parent = none ∧ b.kind = .board) ∧
      ((d.snapshot.boards.map fun l => l.face.id).Sublist d.order ∧
        ∀ id, (id ∈ d.snapshot.boards.map fun l => l.face.id) ↔
          ∃ b, d.get? id = some b ∧ b.parent = none ∧ b.kind = .board) ∧
      (∀ l ∈ d.snapshot.layers, ∃ s, d.get? s.id = some s ∧
        l.face = ⟨s.id, s.name, s.kind, s.geometry, s.fills, s.strokes, s.borderRadius⟩ ∧
        l.children.map (fun c => c.face.id) = s.children) ∧
      (d.snapshot.shapeCount = d.order.length ∧ d.order.Nodup ∧
        ∀ id, id ∈ d.order ↔ ∃ s, d.get? id = some s) := by
  intro d
  have hd : WellFormed d := (wellFormed_new ids v).run steps
  refine ⟨fun ls => ?_, hd.nodup_ids_snapshot, fun _ => hd.mem_ids_snapshot,
    ⟨?_, fun id => ?_⟩, fun l hl => hd.exists_of_mem_layers hl,
    hd.shapeCount_eq, hd.order_nodup, fun _ => hd.mem_order_iff⟩
  · constructor
    · exact fun h => h.unique hd.captures_boards
    · rintro rfl; exact hd.captures_boards
  · rw [map_id_snapshot_boards]; exact hd.map_id_boards_sublist
  · rw [map_id_snapshot_boards, List.mem_map]
    constructor
    · rintro ⟨b, hb, rfl⟩; exact ⟨b, hd.mem_boards.mp hb⟩
    · rintro ⟨b, hget, hrest⟩
      obtain rfl := hd.own_id id b hget
      exact ⟨b, hd.mem_boards.mpr ⟨hget, hrest⟩, rfl⟩

/-! ### Boards that a snapshot does not show -/

section Hidden
variable {d : Document}

/-- The links from a board lead over boards. -/
theorem WellFormed.board_of_ascend (hd : WellFormed d) : ∀ {n : ℕ} {id root : ShapeId}
    {s r : Shape}, d.get? id = some s → s.kind = .board → d.ascend n id = some root →
      d.get? root = some r → r.kind = .board
  | 0, _, _, s, r, hs, hk, h, hr => by
    cases h
    rw [hs] at hr
    cases hr; exact hk
  | n + 1, id, _, _, _, _, _, h, hr => by
    obtain ⟨p, hp, h⟩ := Option.bind_eq_some_iff.mp h
    obtain ⟨-, b, hb, hkind⟩ := hd.parent_board id p hp
    exact hd.board_of_ascend hb hkind h hr

/-- **A document is a forest exactly if its snapshot shows all of its boards.** -/
theorem forest_iff_boards_shown (hd : WellFormed d) :
    Forest d ↔ ∀ s ∈ d.shapes, s.kind = .board → s.id ∈ d.snapshot.ids := by
  constructor
  · intro hf s hs hk
    have hget := hd.mem_shapes.mp hs
    obtain ⟨n, root, r, hn, hr, hpar⟩ := hf s.id s hget
    exact hd.mem_ids_snapshot.mpr ⟨n, root, r, hn, hr, hpar, hd.board_of_ascend hget hk hn hr⟩
  · intro h
    have hboard : ∀ id b, d.get? id = some b → b.kind = .board → d.Rooted id := by
      intro id b hb hk
      obtain rfl := hd.own_id id b hb
      obtain ⟨n, root, r, hn, hr, hpar, -⟩ :=
        hd.mem_ids_snapshot.mp (h b (hd.mem_shapes.mpr hb) hk)
      exact ⟨n, root, r, hn, hr, hpar⟩
    intro id s hs
    -- any other shape is at the end, or a board is next
    cases hpar : s.parent with
    | none => exact ⟨0, id, s, rfl, hs, hpar⟩
    | some p =>
      have hp := (parent?_of_get? hs).trans hpar
      obtain ⟨-, b, hb, hk⟩ := hd.parent_board id p hp
      obtain ⟨n, root, r, hn, hr, hroot⟩ := hboard p b hb hk
      exact ⟨n + 1, root, r, (ascend_succ hp n).trans hn, hr, hroot⟩

theorem forest_new (ids : IdSupply) (v : Viewport) : Forest (new ids v) :=
  fun _ _ h => by cases h

/-- **When links upwards end after every sequence of steps**: as long as no step attaches a board
below itself. A document is such a forest exactly if its snapshot shows all boards. -/
theorem boards_shown_run (ids : IdSupply) (v : Viewport) (steps : List Step) :
    ((∀ before, before <+: steps → Forest ((new ids v).run before)) ↔
      ∀ before s, before ++ [s] <+: steps → ¬ ClosesCycle ((new ids v).run before) s) ∧
    let d := (new ids v).run steps
    (Forest d ↔ ∀ s ∈ d.shapes, s.kind = .board → s.id ∈ d.snapshot.ids) := by
  have hnew := wellFormed_new ids v
  exact ⟨forest_run_iff hnew (forest_new ids v) steps, forest_iff_boards_shown (hnew.run steps)⟩

/-- Two boards, each attached to the other: the second attachment is accepted, the links from them
go round, and the snapshot shows neither of the two shapes that it counts. -/
theorem boards_hidden_by_cycle :
    let board (n : ℕ) : ShapeId := (IdSupply.from 0).id n
    let steps : List Step := [.call (.create .board), .call (.create .board),
      .call (.edit (.append (board 0) (board 1))), .call (.edit (.append (board 1) (board 0)))]
    let d := (new (.from 0) .standard).run steps
    ¬ Forest d ∧ (d.shapes.map fun s => (s.id, s.kind, s.parent)) =
        [(board 0, .board, some (board 1)), (board 1, .board, some (board 0))] ∧
      d.snapshot.ids = [] ∧ d.snapshot.shapeCount = 2 := by
  intro board steps d
  have hshapes : (d.shapes.map fun s => (s.id, s.kind, s.parent)) =
      [(board 0, .board, some (board 1)), (board 1, .board, some (board 0))] := by decide +kernel
  have hids : d.snapshot.ids = [] := by decide +kernel
  refine ⟨?_, hshapes, hids, by decide +kernel⟩
  rw [forest_iff_boards_shown ((wellFormed_new _ _).run steps)]
  intro h
  have hmem : (board 0, ShapeKind.board, some (board 1)) ∈
      d.shapes.map fun s => (s.id, s.kind, s.parent) := by rw [hshapes]; exact List.mem_cons_self
  obtain ⟨s, hs, heq⟩ := List.mem_map.mp hmem
  obtain ⟨-, hk, -⟩ : s.id = board 0 ∧ s.kind = .board ∧ _ := by simpa using heq
  have hshown := h s hs hk
  rw [hids] at hshown
  cases hshown

end Hidden

end Document

end Artboard
