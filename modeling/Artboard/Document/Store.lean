import Artboard.Shape.Basic

/-! # Stores

A store keeps shapes by their ids, at most one for each id, in no particular order.

* `Store.get?`: the shape under an id. What `insert` and `modify` do is said by `get?_insert` and
  `get?_modify`.
* `Store.size`: the number of ids that have a shape. -/

namespace Artboard

/-- Shapes by id. -/
structure Store where
  entries : List (ShapeId × Shape)
  /-- No id has two shapes. -/
  nodup : (entries.map Prod.fst).Nodup

namespace Store

/-- The store without shapes. -/
def empty : Store := ⟨[], List.nodup_nil⟩

/-- The ids that have a shape. -/
def ids (s : Store) : List ShapeId := s.entries.map Prod.fst

/-- The number of ids that have a shape. -/
def size (s : Store) : Nat := s.entries.length

/-- The shape under an id. -/
def get? (s : Store) (id : ShapeId) : Option Shape := s.entries.lookup id

/-- Puts a shape under an id, in place of the one that may be there. -/
def insert (id : ShapeId) (shape : Shape) (s : Store) : Store where
  entries := (id, shape) :: s.entries.filter fun e => e.1 ≠ id
  nodup := by
    refine List.nodup_cons.mpr ⟨by simp, ?_⟩
    exact s.nodup.sublist (List.filter_sublist.map _)

/-- Changes the shape under an id. -/
def modify (id : ShapeId) (f : Shape → Shape) (s : Store) : Store where
  entries := s.entries.map fun e => if e.1 = id then (e.1, f e.2) else e
  nodup := by
    have h : ∀ e : ShapeId × Shape, (if e.1 = id then (e.1, f e.2) else e).1 = e.1 := by
      intro e; split <;> rfl
    simpa [Function.comp_def, h] using s.nodup

/-! ### Finding entries -/

theorem mem_map_fst {id : ShapeId} : ∀ es : List (ShapeId × Shape),
    id ∈ es.map Prod.fst ↔ ∃ a, es.lookup id = some a
  | [] => by simp
  | e :: es => by
    rw [List.map_cons, List.mem_cons, mem_map_fst es, List.lookup_cons]
    by_cases h : id = e.1
    · simp [h]
    · simp only [h, false_or, beq_eq_false_iff_ne.mpr h]

theorem lookup_filter {id j : ShapeId} (h : j ≠ id) : ∀ es : List (ShapeId × Shape),
    (es.filter fun e => e.1 ≠ id).lookup j = es.lookup j
  | [] => rfl
  | e :: es => by
    by_cases he : e.1 = id
    · have hj : (j == e.1) = false := by rw [he]; exact beq_eq_false_iff_ne.mpr h
      rw [List.filter_cons_of_neg (by simp [he]), lookup_filter h es, List.lookup_cons, hj]
    · rw [List.filter_cons_of_pos (by simp [he]), List.lookup_cons, List.lookup_cons,
        lookup_filter h es]

theorem lookup_map (id j : ShapeId) (f : Shape → Shape) : ∀ es : List (ShapeId × Shape),
    (es.map fun e => if e.1 = id then (e.1, f e.2) else e).lookup j =
      if j = id then (es.lookup j).map f else es.lookup j
  | [] => by simp
  | e :: es => by
    rw [List.map_cons, List.lookup_cons, List.lookup_cons, lookup_map id j f es]
    have hfst : (if e.1 = id then (e.1, f e.2) else e).1 = e.1 := by split <;> rfl
    rw [hfst]
    by_cases h : j = e.1
    · by_cases he : e.1 = id <;> simp [h, he]
    · simp only [beq_eq_false_iff_ne.mpr h]

/-! ### What is found in a store -/

theorem mem_ids {s : Store} {id : ShapeId} : id ∈ s.ids ↔ ∃ a, s.get? id = some a :=
  mem_map_fst s.entries

theorem get?_insert (s : Store) (id j : ShapeId) (a : Shape) :
    (s.insert id a).get? j = if j = id then some a else s.get? j := by
  unfold get? insert
  rw [List.lookup_cons]
  by_cases h : j = id
  · simp [h]
  · simp only [beq_eq_false_iff_ne.mpr h, if_neg h, lookup_filter h]

theorem get?_modify (s : Store) (id j : ShapeId) (f : Shape → Shape) :
    (s.modify id f).get? j = if j = id then (s.get? j).map f else s.get? j :=
  lookup_map id j f s.entries

theorem length_ids (s : Store) : s.ids.length = s.size := by simp [ids, size]

end Store

end Artboard
