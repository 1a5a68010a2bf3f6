import Artboard.Proofs.Drawing.Independence

/-! # Snapshots that differ in their ids only

Documents that give other ids show the same design under other ids.

* `Snapshot.rename`: a snapshot with other ids.
* `Snapshot.Alike`: two snapshots are the same up to their ids.
* `snapshot_of_copies`: a copy of a document shows what the document does.
* `Twins`: two documents are copies of one. The same drawing, or a reset, leaves twins, and twins
  give the same outcomes and alike snapshots.
* `alike_afterAll`: so do two documents with one viewport that were empty before the same
  drawings. -/

namespace Artboard

/-- The face with another id. -/
def Face.rename (ρ : ShapeId → ShapeId) (f : Face) : Face := { f with id := ρ f.id }

/-! ### Other ids -/

namespace Layer

variable {ρ τ : ShapeId → ShapeId}

mutual

/-- The layer with other ids. -/
def rename (ρ : ShapeId → ShapeId) : Layer → Layer
  | .node face children => .node (face.rename ρ) (renames ρ children)

/-- The layers with other ids. -/
def renames (ρ : ShapeId → ShapeId) : List Layer → List Layer
  | [] => []
  | l :: ls => l.rename ρ :: renames ρ ls

end

theorem renames_eq_map : ∀ ls : List Layer, renames ρ ls = ls.map (rename ρ)
  | [] => rfl
  | l :: ls => by rw [renames, renames_eq_map ls, List.map_cons]

theorem face_rename : ∀ l : Layer, (l.rename ρ).face = l.face.rename ρ
  | .node _ _ => rfl

mutual

theorem rename_rename : ∀ l : Layer, (l.rename ρ).rename τ = l.rename (τ ∘ ρ)
  | .node _ children => congrArg (node _) (renames_renames children)

theorem renames_renames : ∀ ls : List Layer, renames τ (renames ρ ls) = renames (τ ∘ ρ) ls
  | [] => rfl
  | l :: ls => congrArg₂ List.cons (rename_rename l) (renames_renames ls)

end

mutual

theorem all_rename : ∀ l : Layer, (l.rename ρ).all = l.all.map (rename ρ)
  | .node face children => congrArg ((node face children).rename ρ :: ·) (alls_renames children)

theorem alls_renames : ∀ ls : List Layer, alls (renames ρ ls) = (alls ls).map (rename ρ)
  | [] => rfl
  | l :: ls => by
    rw [renames, alls, alls, List.map_append, all_rename l, alls_renames ls]

end

end Layer

namespace Snapshot

variable {ρ τ : ShapeId → ShapeId} {s t : Snapshot}

/-- The snapshot with other ids. -/
def rename (ρ : ShapeId → ShapeId) (s : Snapshot) : Snapshot :=
  { s with boards := Layer.renames ρ s.boards }

theorem rename_rename (s : Snapshot) : (s.rename ρ).rename τ = s.rename (τ ∘ ρ) :=
  congrArg (fun boards => { s with boards }) (Layer.renames_renames s.boards)

theorem ids_rename (s : Snapshot) : (s.rename ρ).ids = s.ids.map ρ := by
  have hid (l : Layer) : (l.rename ρ).face.id = ρ l.face.id :=
    congrArg Face.id (Layer.face_rename l)
  rw [ids, layers, rename, Layer.alls_renames, List.map_map, ids, List.map_map]
  exact List.map_congr_left fun l _ => hid l

/-- **Two snapshots are the same up to their ids**: other ids for the shapes of the first one, and
different ones for different shapes, give the second one. -/
def Alike (s t : Snapshot) : Prop :=
  ∃ ρ : ShapeId → ShapeId, Set.InjOn ρ {id | id ∈ s.ids} ∧ t = s.rename ρ

/-- Two ways to rename one snapshot give alike ones. -/
theorem alike_of_renames (hρ : Function.Injective ρ) (hτ : Function.Injective τ) (s : Snapshot) :
    (s.rename ρ).Alike (s.rename τ) := by
  -- back to the ids of `s`, and on to those of the second snapshot
  have hback (id : ShapeId) : (τ ∘ Function.invFun ρ) (ρ id) = τ id :=
    congrArg τ (Function.leftInverse_invFun hρ id)
  refine ⟨τ ∘ Function.invFun ρ, fun a ha b hb hab => ?_, ?_⟩
  · rw [Set.mem_ofPred_eq, ids_rename] at ha hb
    obtain ⟨i, -, rfl⟩ := List.mem_map.mp ha
    obtain ⟨j, -, rfl⟩ := List.mem_map.mp hb
    rw [hback, hback] at hab
    exact congrArg ρ (hτ hab)
  · rw [rename_rename]
    exact congrArg (fun σ => s.rename σ) (funext fun id => (hback id).symm)

end Snapshot

/-! ### Copies -/

namespace Document

variable {ρ : ShapeId → ShapeId} {old x d : Document}

theorem Copies.children (h : Copies ρ old x d) (id : ShapeId) :
    d.children (ρ id) = (x.children id).map (Shape.rename ρ) := by
  have hget : d.get? ∘ ρ = fun id => (x.get? id).map (Shape.rename ρ) := funext h.copied
  rw [Document.children, Document.children, h.copied]
  cases x.get? id with
  | none => rfl
  | some s =>
    show (s.children.map ρ).filterMap d.get? = _
    rw [List.filterMap_map, hget, List.map_filterMap]

theorem Copies.layer (h : Copies ρ old x d) : ∀ (depth : Nat) (s : Shape),
    d.layer depth (s.rename ρ) = (x.layer depth s).rename ρ
  | 0, _ => rfl
  | depth + 1, s => by
    have ih : d.layer depth ∘ Shape.rename ρ = Layer.rename ρ ∘ x.layer depth :=
      funext fun t => h.layer depth t
    have hchildren : (d.children (ρ s.id)).map (d.layer depth) =
        Layer.renames ρ ((x.children s.id).map (x.layer depth)) := by
      rw [h.children, List.map_map, ih, Layer.renames_eq_map, List.map_map]
    exact congrArg (Layer.node _) hchildren

/-- **A copy of a document shows what the document does**, beside no old shapes. -/
theorem snapshot_of_copies {ids : IdSupply} {v : Viewport} (h : Copies ρ (new ids v) x d)
    (hx : WellFormed x) (hd : WellFormed d) : d.snapshot = x.snapshot.rename ρ := by
  have hshapes : d.shapes = x.shapes.map (Shape.rename ρ) :=
    h.shapes (wellFormed_new ids v).toIndexed fun _ => rfl
  have hcount : d.shapeCount = x.shapeCount := by
    rw [hd.shapeCount_eq, hx.shapeCount_eq, h.order, List.length_append, List.length_map]
    exact Nat.zero_add _
  have htop (s : Shape) : ((s.rename ρ).parent.isNone && (s.rename ρ).isContainer) =
      (s.parent.isNone && s.isContainer) := by
    cases hs : s.parent <;> simp [Shape.rename, hs, Shape.isContainer]
  have hboards : d.boards = x.boards.map (Shape.rename ρ) := by
    rw [boards, hshapes, List.filter_map]
    exact congrArg _ (List.filter_congr fun s _ => htop s)
  have hlayers : d.boards.map (d.layer d.shapeCount) =
      Layer.renames ρ (x.boards.map (x.layer x.shapeCount)) := by
    rw [hboards, hcount, Layer.renames_eq_map, List.map_map, List.map_map]
    exact List.map_congr_left fun s _ => h.layer x.shapeCount s
  rw [snapshot, h.viewport, hlayers, hcount]
  rfl

theorem Copies.clear {ids : IdSupply} {v : Viewport} (h : Copies ρ (new ids v) x d) :
    Copies ρ (new ids v) x.clear d.clear where
  injective := h.injective
  coming := h.coming
  order := rfl
  viewport := h.viewport
  copied _ := rfl
  kept _ _ := rfl

/-! ### Twins -/

variable {e : Document}

/-- **Two documents are the same up to their ids**: both are copies of one, without other shapes. -/
structure Twins (d e : Document) : Prop where
  left : WellFormed d
  right : WellFormed e
  copies : ∃ x ρ τ ids ids' v v', WellFormed x ∧ Copies ρ (new ids v) x d ∧
    Copies τ (new ids' v') x e

/-- Two documents without shapes are twins if the user sees the same part of them. -/
theorem twins_new (ids ids' : IdSupply) (v : Viewport) : Twins (new ids v) (new ids' v) where
  left := wellFormed_new ids v
  right := wellFormed_new ids' v
  copies := ⟨new (.from 0) v, _, _, ids, ids', v, v, wellFormed_new _ v,
    copies_new (wellFormed_new ids v).toIndexed, copies_new (wellFormed_new ids' v).toIndexed⟩

namespace Twins

theorem viewport (h : Twins d e) : d.viewport = e.viewport := by
  obtain ⟨-, -, x, ρ, τ, _, _, _, _, -, hd, he⟩ := h
  rw [hd.viewport, he.viewport]

/-- **The same drawing leaves twins**, whether it is refused or not. -/
theorem after (h : Twins d e) (s : Screen) :
    Twins (Attempt.after ⟨d, s⟩) (Attempt.after ⟨e, s⟩) := by
  obtain ⟨hd, he, x, ρ, τ, ids, ids', v, v', hx, hcopy, hcopy'⟩ := h
  exact ⟨hd.after s, he.after s, _, ρ, τ, ids, ids', v, v', hx.after s,
    hcopy.run (renames_screen s), hcopy'.run (renames_screen s)⟩

theorem afterAll : ∀ (screens : List Screen) {d e : Document}, Twins d e →
    Twins (d.afterAll screens) (e.afterAll screens)
  | [], _, _, h => h
  | s :: screens, _, _, h => afterAll screens (h.after s)

theorem clear (h : Twins d e) : Twins d.clear e.clear := by
  obtain ⟨hd, he, x, ρ, τ, ids, ids', v, v', hx, hcopy, hcopy'⟩ := h
  exact ⟨hd.change .clear, he.change .clear, _, ρ, τ, ids, ids', v, v', hx.change .clear,
    hcopy.clear, hcopy'.clear⟩

theorem outcome (h : Twins d e) (s : Screen) :
    (Attempt.mk d s).outcome = (Attempt.mk e s).outcome :=
  outcome_eq_of_viewport h.left h.right h.viewport s

/-- **Twins show the same**, up to the ids. -/
theorem snapshot (h : Twins d e) : d.snapshot.Alike e.snapshot := by
  obtain ⟨hd, he, x, ρ, τ, ids, ids', v, v', hx, hcopy, hcopy'⟩ := h
  rw [snapshot_of_copies hcopy hx hd, snapshot_of_copies hcopy' hx he]
  exact Snapshot.alike_of_renames hcopy.injective hcopy'.injective _

end Twins

/-- **Two documents that were empty show the same after the same drawings**, up to their ids. -/
theorem alike_afterAll (ids₁ ids₂ : IdSupply) (v : Viewport) (screens : List Screen) :
    ((new ids₁ v).afterAll screens).snapshot.Alike ((new ids₂ v).afterAll screens).snapshot :=
  ((twins_new ids₁ ids₂ v).afterAll screens).snapshot

end Document

end Artboard
