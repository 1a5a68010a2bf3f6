import Artboard.Proofs.Document.Snapshot
import Artboard.Proofs.Shape.Members

/-! # Snapshots lose nothing on the wire

A snapshot is told by its JSON text, at every depth, as far as its numbers are told by their texts.

* `Face.numbers`, `Snapshot.numbers`: the numbers that are shown.
* `Face.eq_of_members`: what is shown of a shape is told by its members.
* `Layer.eq_of_toJson`, `Snapshot.eq_of_toJson`: layers and snapshots are told by their trees.
* `Snapshot.eq_of_compact`: and by their texts.
* `Snapshot.Framed`: the numbers that a document takes unchecked are finite; then all are
  (`allFinite_snapshot`).
* `lossless_snapshot`: snapshots of documents after any runs. -/

namespace Artboard

open Number (AllFinite)
open Json (Tidy)

variable {xs : List Float}

namespace Viewport
variable {v w : Viewport}

/-- The place and size of a viewport. -/
def frame (v : Viewport) : Geometry := ⟨v.x, v.y, v.width, v.height⟩

/-- The numbers of a viewport. -/
def numbers (v : Viewport) : List Float := v.frame.numbers

theorem eq_of_toJson (hv : AllFinite v.numbers) (hw : AllFinite w.numbers)
    (h : v.toJson = w.toJson) : v = w := by
  have hframe : v.frame = w.frame := Geometry.eq_of_toJson hv hw h
  cases v
  cases w
  simpa only [frame, Geometry.mk.injEq, Viewport.mk.injEq] using hframe

theorem tidy_toJson (h : v.numbers ⊆ xs) : v.toJson.Tidy xs := Geometry.tidy_toJson (g := v.frame) h

end Viewport

namespace Face
variable {f g : Face}

/-- The numbers that are shown of a shape itself. -/
def numbers (f : Face) : List Float :=
  f.kind.numbers ++ f.geometry.numbers ++ f.strokes.map Stroke.width ++ f.borderRadius.toList

/-- The members behind those of the kind, with more behind them. -/
def lookMembers (f : Face) (more : List (String × Json)) : List (String × Json) :=
  ("geometry", f.geometry.toJson) :: (Json.ifNonempty "fills" Fill.toJson f.fills ++
    (Json.ifNonempty "strokes" Stroke.toJson f.strokes ++
      (Json.ifPresent "borderRadius" .ofFloat f.borderRadius ++ more)))

theorem members_append (f : Face) (more : List (String × Json)) : f.members ++ more =
    ("id", f.id.toJson) :: ("name", .string f.name) :: (f.kind.members ++ f.lookMembers more) := by
  simp [members, lookMembers]

section Keys
variable {ms : List (String × Json)} (hms : (Json.keys ms).Sublist ["children"])
include hms

theorem keys_radius (f : Face) :
    (Json.keys (Json.ifPresent "borderRadius" Json.ofFloat f.borderRadius ++ ms)).Sublist
      ["borderRadius", "children"] :=
  Json.keys_append (Json.keys_ifPresent ..) hms

theorem keys_strokes (f : Face) :
    (Json.keys (Json.ifNonempty "strokes" Stroke.toJson f.strokes ++
      (Json.ifPresent "borderRadius" Json.ofFloat f.borderRadius ++ ms))).Sublist
        ["strokes", "borderRadius", "children"] :=
  Json.keys_append (Json.keys_ifNonempty ..) (f.keys_radius hms)

theorem keys_lookMembers (f : Face) : (Json.keys (f.lookMembers ms)).Sublist
    ["geometry", "fills", "strokes", "borderRadius", "children"] :=
  .cons_cons "geometry" (Json.keys_append (Json.keys_ifNonempty ..) (f.keys_strokes hms))

/-- **No key occurs twice among the members**, those of the kind and the children included. -/
theorem nodup_keys (f : Face) : (Json.keys (f.members ++ ms)).Nodup := by
  have hkeys : (Json.keys (f.members ++ ms)).Sublist ("id" :: "name" :: (ShapeKind.keys ++
      ["geometry", "fills", "strokes", "borderRadius", "children"])) := by
    rw [members_append]
    exact .cons_cons _ (.cons_cons _
      (Json.keys_append f.kind.keys_members (f.keys_lookMembers hms)))
  exact hkeys.nodup (by decide)

end Keys

section Told
variable {ms ns : List (String × Json)} (hf : AllFinite f.numbers) (hg : AllFinite g.numbers)
  (hms : (Json.keys ms).Sublist ["children"]) (hns : (Json.keys ns).Sublist ["children"])
include hf hg hms hns

theorem eq_of_lookMembers (h : f.lookMembers ms = g.lookMembers ns) :
    (f.geometry = g.geometry ∧ f.fills = g.fills ∧ f.strokes = g.strokes ∧
      f.borderRadius = g.borderRadius) ∧ ms = ns := by
  simp only [AllFinite, numbers, List.forall_mem_append, List.forall_mem_map] at hf hg
  obtain ⟨⟨⟨-, hgeometry⟩, hwidths⟩, hradius⟩ := hf
  obtain ⟨⟨⟨-, hgeometry'⟩, hwidths'⟩, hradius'⟩ := hg
  obtain ⟨hplace, h⟩ := List.cons.inj h
  obtain ⟨hfills, h⟩ := Json.append_inj_of_keys (Json.keys_ifNonempty ..) (Json.keys_ifNonempty ..)
    (f.keys_strokes hms) (g.keys_strokes hns) (by decide) h
  obtain ⟨hstrokes, h⟩ := Json.append_inj_of_keys (Json.keys_ifNonempty ..)
    (Json.keys_ifNonempty ..) (f.keys_radius hms) (g.keys_radius hns) (by decide) h
  obtain ⟨hradii, hmore⟩ := Json.append_inj_of_keys (Json.keys_ifPresent ..)
    (Json.keys_ifPresent ..) hms hns (by decide) h
  refine ⟨⟨Geometry.eq_of_toJson hgeometry hgeometry' (Prod.mk.inj hplace).2,
    Json.eq_of_ifNonempty (fun _ _ _ _ heq => Fill.eq_of_toJson heq) hfills, ?_, ?_⟩, hmore⟩
  · refine Json.eq_of_ifNonempty (fun r hr s hs heq => ?_) hstrokes
    exact Stroke.eq_of_toJson (hwidths r hr) (hwidths' s hs) heq
  · refine Json.eq_of_ifPresent (fun x hx y hy heq => ?_) hradii
    exact Json.eq_of_ofFloat (hradius x (Option.mem_toList.mpr hx))
      (hradius' y (Option.mem_toList.mpr hy)) heq

/-- **What is shown of a shape is told by its members**, and so is what stands behind them. -/
theorem eq_of_members (h : f.members ++ ms = g.members ++ ns) : f = g ∧ ms = ns := by
  rw [members_append, members_append] at h
  obtain ⟨hid, h⟩ := List.cons.inj h
  obtain ⟨hname, h⟩ := List.cons.inj h
  obtain ⟨hkind, h⟩ := Json.append_inj_of_keys f.kind.keys_members g.kind.keys_members
    (f.keys_lookMembers hms) (g.keys_lookMembers hns) (by decide) h
  obtain ⟨⟨hgeometry, hfills, hstrokes, hradius⟩, hmore⟩ := eq_of_lookMembers hf hg hms hns h
  have hids : f.id = g.id := ShapeId.eq_of_toJson (Prod.mk.inj hid).2
  have hnames : f.name = g.name := Json.string.inj (Prod.mk.inj hname).2
  have hkinds : f.kind = g.kind := ShapeKind.eq_of_members
    (fun x hx => hf x (by simp [numbers, hx])) (fun x hx => hg x (by simp [numbers, hx])) hkind
  cases f
  cases g
  rw [Face.mk.injEq]
  exact ⟨⟨hids, hnames, hkinds, hgeometry, hfills, hstrokes, hradius⟩, hmore⟩

end Told

theorem tidy_members (h : f.numbers ⊆ xs) : ∀ m ∈ f.members, m.2.Tidy xs := by
  simp only [numbers, List.append_subset] at h
  obtain ⟨⟨⟨hkind, hgeometry⟩, hwidths⟩, hradius⟩ := h
  simp only [members, List.forall_mem_append, List.forall_mem_cons]
  refine ⟨⟨⟨⟨⟨⟨f.id.tidy_toJson, Json.tidy_string _, List.forall_mem_nil _⟩,
    ShapeKind.tidy_members hkind⟩, Geometry.tidy_toJson hgeometry, List.forall_mem_nil _⟩,
    Json.tidy_ifNonempty fun r _ => r.tidy_toJson⟩,
    Json.tidy_ifNonempty fun s hs => Stroke.tidy_toJson ?_⟩, Json.tidy_ifPresent fun x hx => ?_⟩
  · exact hwidths (List.mem_map_of_mem hs)
  · exact Json.tidy_ofFloat (hradius (Option.mem_toList.mpr hx))

end Face

/-! ### Layers -/

namespace Layer

theorem childMembers_eq (js : List Json) : childMembers js = Json.ifNonempty "children" id js := by
  cases js with
  | nil => rfl
  | cons j js => simp [childMembers, Json.ifNonempty]

theorem keys_childMembers (js : List Json) :
    (Json.keys (childMembers js)).Sublist ["children"] := by
  rw [childMembers_eq]
  exact Json.keys_ifNonempty ..

theorem eq_of_childMembers {is js : List Json} (h : childMembers is = childMembers js) :
    is = js := by
  rw [childMembers_eq, childMembers_eq] at h
  exact Json.eq_of_ifNonempty (fun _ _ _ _ heq => heq) h

mutual

/-- **A layer is told by its tree**, with all layers under it. -/
theorem eq_of_toJson : ∀ {l m : Layer}, (∀ n ∈ l.all, AllFinite n.face.numbers) →
    (∀ n ∈ m.all, AllFinite n.face.numbers) → l.toJson = m.toJson → l = m
  | .node f ls, .node g ms, hl, hm, h => by
    obtain ⟨hf, hls⟩ := List.forall_mem_cons.mp hl
    obtain ⟨hg, hms⟩ := List.forall_mem_cons.mp hm
    obtain ⟨hface, hbelow⟩ := Face.eq_of_members (f := f) (g := g) hf hg (keys_childMembers _)
      (keys_childMembers _) (Json.object.inj h)
    rw [hface, eq_of_toJsons hls hms (eq_of_childMembers hbelow)]

theorem eq_of_toJsons : ∀ {ls ms : List Layer}, (∀ n ∈ alls ls, AllFinite n.face.numbers) →
    (∀ n ∈ alls ms, AllFinite n.face.numbers) → toJsons ls = toJsons ms → ls = ms
  | [], [], _, _, _ => rfl
  | [], _ :: _, _, _, h => by cases h
  | _ :: _, [], _, _, h => by cases h
  | l :: ls, m :: ms, hl, hm, h => by
    obtain ⟨hl, hls⟩ := List.forall_mem_append.mp hl
    obtain ⟨hm, hms⟩ := List.forall_mem_append.mp hm
    obtain ⟨hfirst, hrest⟩ := List.cons.inj h
    rw [eq_of_toJson hl hm hfirst, eq_of_toJsons hls hms hrest]

end

mutual

/-- No key occurs twice in the tree of a layer, at any depth, and it shows only its numbers. -/
theorem tidy_toJson : ∀ {l : Layer}, (∀ n ∈ l.all, n.face.numbers ⊆ xs) → l.toJson.Tidy xs
  | .node f ls, hl => by
    obtain ⟨hf, hls⟩ := List.forall_mem_cons.mp hl
    refine Json.tidy_object (f.nodup_keys (keys_childMembers _)) ?_
    rw [childMembers_eq, List.forall_mem_append]
    exact ⟨Face.tidy_members hf, Json.tidy_ifNonempty (tidy_toJsons hls)⟩

theorem tidy_toJsons : ∀ {ls : List Layer}, (∀ n ∈ alls ls, n.face.numbers ⊆ xs) →
    ∀ j ∈ toJsons ls, j.Tidy xs
  | [], _ => List.forall_mem_nil _
  | l :: ls, hl => by
    obtain ⟨hl, hls⟩ := List.forall_mem_append.mp hl
    exact List.forall_mem_cons.mpr ⟨tidy_toJson hl, tidy_toJsons hls⟩

end

end Layer

/-! ### Snapshots -/

namespace Snapshot
variable {s t : Snapshot}

/-- The numbers that a snapshot shows. -/
def numbers (s : Snapshot) : List Float :=
  s.viewport.numbers ++ s.layers.flatMap fun l => l.face.numbers

/-- **A snapshot is told by its tree.** -/
theorem eq_of_toJson (hs : AllFinite s.numbers) (ht : AllFinite t.numbers)
    (h : s.toJson = t.toJson) : s = t := by
  simp only [AllFinite, numbers, List.forall_mem_append, List.forall_mem_flatMap] at hs ht
  simp only [toJson, Json.object.injEq, List.cons.injEq, Prod.mk.injEq, Json.array.injEq,
    Json.int.injEq, Int.ofNat_inj, true_and, and_true] at h
  obtain ⟨hviewport, hboards, hcount⟩ := h
  cases s
  cases t
  rw [Snapshot.mk.injEq]
  exact ⟨Viewport.eq_of_toJson hs.1 ht.1 hviewport, Layer.eq_of_toJsons hs.2 ht.2 hboards, hcount⟩

theorem tidy_toJson (s : Snapshot) : s.toJson.Tidy s.numbers := by
  have hkeys : ["viewport", "boards", "shape_count"].Nodup := by decide
  refine Json.tidy_object hkeys ?_
  simp only [List.forall_mem_cons]
  refine ⟨Viewport.tidy_toJson (List.subset_append_left _ _), Json.tidy_array ?_,
    Json.tidy_int _, List.forall_mem_nil _⟩
  refine Layer.tidy_toJsons fun n hn x hx => List.mem_append_right _ ?_
  exact List.mem_flatMap.mpr ⟨n, hn, hx⟩

/-- **A snapshot is told by its text** if its numbers are told by theirs. -/
theorem eq_of_compact (hs : AllFinite s.numbers) (ht : AllFinite t.numbers)
    (hwritten : ∀ x ∈ s.numbers, ∀ y ∈ t.numbers,
      Number.Style.wire.text x = Number.Style.wire.text y → x = y)
    (h : s.toJson.compact = t.toJson.compact) : s = t :=
  have told : Json.Told (· ∈ s.numbers) (· ∈ t.numbers) :=
    ⟨hs, ht, fun x y hx hy => hwritten x hx y hy⟩
  eq_of_toJson hs ht (Json.eq_of_compact told s.tidy_toJson.floatsIn t.tidy_toJson.floatsIn h)

/-- The numbers that a document takes as they are, those of its viewport and the widths of strokes,
are finite. -/
structure Framed (s : Snapshot) : Prop where
  viewport : AllFinite s.viewport.numbers
  strokes : ∀ l ∈ s.layers, ∀ r ∈ l.face.strokes, r.width.isFinite = true

end Snapshot

theorem Shape.Measured.allFinite {s : Shape} (h : s.Measured)
    (hstrokes : ∀ r ∈ s.strokes, r.width.isFinite = true) : AllFinite s.face.numbers := by
  simp only [AllFinite, Face.numbers, List.forall_mem_append, List.forall_mem_map]
  refine ⟨⟨⟨fun x hx => ?_, ?_⟩, hstrokes⟩, fun x hx => (h.radius x (Option.mem_toList.mp hx)).1⟩
  · cases hkind : s.kind with
    | text content fontSize fontWeight =>
      rw [show s.face.kind = s.kind from rfl, hkind] at hx
      have hsize : fontSize = some x := Option.mem_toList.mp hx
      exact (h.fontSize content x fontWeight (hsize ▸ hkind)).1
    | _ =>
      rw [show s.face.kind = s.kind from rfl, hkind] at hx
      cases hx
  · simp only [Geometry.numbers, List.forall_mem_cons]
    exact ⟨h.x, h.y, h.width.1, h.height.1, List.forall_mem_nil _⟩

namespace Document
variable {d d' : Document}

/-- A document checks all other numbers when it takes them. -/
theorem allFinite_snapshot (hd : Reachable d) (h : d.snapshot.Framed) :
    AllFinite d.snapshot.numbers := by
  simp only [AllFinite, Snapshot.numbers, List.forall_mem_append, List.forall_mem_flatMap]
  refine ⟨h.viewport, fun l hl => ?_⟩
  obtain ⟨s, hs, hface, -⟩ := hd.wellFormed.exists_of_mem_layers hl
  have hstrokes := h.strokes l hl
  rw [hface] at hstrokes ⊢
  exact (hd.wellFormed.measured s.id s hs).allFinite hstrokes

/-- **The JSON of a snapshot loses nothing.** No key occurs twice in any of its objects, at any
depth; and documents after any runs whose snapshots have one text have the same snapshot, if
different numbers in them are written differently. -/
theorem lossless_snapshot (hd : Reachable d) (hd' : Reachable d') :
    d.snapshot.toJson.Everywhere Json.Distinct ∧
      (d.snapshot.Framed → d'.snapshot.Framed →
        (∀ x ∈ d.snapshot.numbers, ∀ y ∈ d'.snapshot.numbers,
          Number.Style.wire.text x = Number.Style.wire.text y → x = y) →
        d.snapshot.toJson.compact = d'.snapshot.toJson.compact → d.snapshot = d'.snapshot) :=
  ⟨d.snapshot.tidy_toJson.distinct, fun hframed hframed' => Snapshot.eq_of_compact
    (allFinite_snapshot hd hframed) (allFinite_snapshot hd' hframed')⟩

/-- Two histories of a board with a text on it: in the second one some changes are made twice and
one is refused. The texts of the snapshots are the same, so the snapshots are. -/
theorem lossless_snapshot_histories :
    let id (n : ℕ) : ShapeId := (IdSupply.from 0).id n
    let look (s : Step) : List Step :=
      [s, .call (.edit (.set (id 1) (.fontSize 12.5))), .call (.edit (.append (id 0) (id 1))),
        .call (.edit (.set (id 0) (.strokes [⟨"#000000", 0.5⟩])))]
    let start : List Step := [.call (.create .board), .call (.create (.text "Hi"))]
    let d := (new (.from 0) .standard).run (start ++ look (.look ⟨-1.5, 0.0, 1e300, 0.1⟩))
    let d' := (new (.from 0) ⟨-1.5, 0.0, 1e300, 0.1⟩).run
      (start ++ look (.call (.edit (.append (id 1) (id 0)))) ++
        look (.call (.edit (.set (id 1) (.fontSize 9.0)))))
    (d.snapshot.Framed ∧ d'.snapshot.Framed ∧
      (∀ x ∈ d.snapshot.numbers, ∀ y ∈ d'.snapshot.numbers,
        Number.Style.wire.text x = Number.Style.wire.text y → x = y) ∧
      d.snapshot.toJson.compact = d'.snapshot.toJson.compact) ∧ d.snapshot = d'.snapshot := by
  intro id look start d d'
  have hframed : d.snapshot.Framed := ⟨by decide +kernel, by decide +kernel⟩
  have hframed' : d'.snapshot.Framed := ⟨by decide +kernel, by decide +kernel⟩
  have hwritten : ∀ x ∈ d.snapshot.numbers, ∀ y ∈ d'.snapshot.numbers,
      Number.Style.wire.text x = Number.Style.wire.text y → x = y := by decide +kernel
  have htext : d.snapshot.toJson.compact = d'.snapshot.toJson.compact := by decide +kernel
  exact ⟨⟨hframed, hframed', hwritten, htext⟩,
    (lossless_snapshot ⟨_, _, _, rfl⟩ ⟨_, _, _, rfl⟩).2 hframed hframed' hwritten htext⟩

/-- Numbers that are not finite are all written alike. -/
example : let d (x : Float) := new (.from 0) ⟨x, 0.0, 1.0, 1.0⟩
    (d (1.0 / 0.0)).snapshot.viewport ≠ (d (-1.0 / 0.0)).snapshot.viewport ∧
      (d (1.0 / 0.0)).snapshot.toJson.compact = (d (-1.0 / 0.0)).snapshot.toJson.compact := by
  decide +kernel

end Document

end Artboard
