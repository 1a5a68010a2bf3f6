import Artboard.Proofs.Document.WellFormed
import Mathlib.Data.List.Nodup
import Mathlib.Data.Nat.Find

/-! # Ancestors

Following parent links from a shape either ends at a shape without a parent or goes on for ever.

* `ascend`: the shape behind so many parent links. `Level`: there are so many links up to the end.
* `Level.unique`, `Level.lt_length`: the number of links is fixed, and below the number of shapes.
* `Rooted`, `Forest`: the links from one shape, or from every shape, come to an end.
* `forest_attach_iff`: attaching keeps this exactly if the new parent does not lie below the child.
* `forest_run_iff`: so all documents of a run are forests exactly if no step of it attaches a board
  below itself. Documents do not refuse such a step. -/

namespace Artboard.Document

/-- The shape that is reached by following so many parent links. -/
def ascend (d : Document) : ℕ → ShapeId → Option ShapeId
  | 0, id => some id
  | n + 1, id => (d.parent? id).bind (d.ascend n)

/-- The links up from `id` end after `n` of them, at `root`. -/
def Level (d : Document) (id : ShapeId) (n : ℕ) (root : ShapeId) : Prop :=
  d.ascend n id = some root ∧ d.parent? root = none

/-- Following parent links from a shape ends at a shape without a parent. -/
def Rooted (d : Document) (id : ShapeId) : Prop :=
  ∃ n root r, d.ascend n id = some root ∧ d.get? root = some r ∧ r.parent = none

/-- **Following parent links from any shape ends.** -/
def Forest (d : Document) : Prop := ∀ id s, d.get? id = some s → d.Rooted id

/-- A step attaches a board below itself, and is accepted. -/
def ClosesCycle (d : Document) (s : Step) : Prop :=
  ∃ parent child, s = .call (.edit (.append parent child)) ∧
    (∃ e, d.append parent child = .ok e) ∧ ∃ n, d.ascend n parent = some child

/-! ### Following links -/

section Ascend
variable {d : Document} {id p a : ShapeId} {m n : ℕ}

theorem ascend_add (d : Document) : ∀ (m n : ℕ) (id : ShapeId),
    d.ascend (m + n) id = (d.ascend m id).bind (d.ascend n)
  | 0, n, id => by rw [Nat.zero_add]; rfl
  | m + 1, n, id => by
    rw [Nat.succ_add]
    show (d.parent? id).bind (d.ascend (m + n)) =
      ((d.parent? id).bind (d.ascend m)).bind (d.ascend n)
    cases d.parent? id with
    | none => rfl
    | some p => exact ascend_add d m n p

theorem ascend_succ (h : d.parent? id = some p) (n : ℕ) : d.ascend (n + 1) id = d.ascend n p := by
  rw [ascend, h]; rfl

theorem ascend_succ_of_root (h : d.parent? id = none) (n : ℕ) : d.ascend (n + 1) id = none := by
  rw [ascend, h]; rfl

/-- One link more. -/
theorem ascend_parent? (h : d.ascend n id = some a) : d.ascend (n + 1) id = d.parent? a := by
  rw [ascend_add, h]
  show (d.parent? a).bind (d.ascend 0) = _
  cases d.parent? a <;> rfl

theorem ascend_of_le (h : d.ascend n id = some a) (hm : m ≤ n) : ∃ b, d.ascend m id = some b := by
  obtain ⟨k, rfl⟩ := Nat.exists_eq_add_of_le hm
  rw [ascend_add] at h
  obtain ⟨b, hb, -⟩ := Option.bind_eq_some_iff.mp h
  exact ⟨b, hb⟩

theorem ascend_congr {e : Document} (h : ∀ j, e.parent? j = d.parent? j) :
    ∀ (n : ℕ) (id : ShapeId), e.ascend n id = d.ascend n id
  | 0, _ => rfl
  | n + 1, id => by
    show (e.parent? id).bind (e.ascend n) = (d.parent? id).bind (d.ascend n)
    rw [h]
    cases d.parent? id with
    | none => rfl
    | some p => exact ascend_congr h n p

/-- What a stored shape hangs under is stored. -/
theorem WellFormed.get?_ascend (hd : WellFormed d) : ∀ {n : ℕ} {id a : ShapeId},
    (∃ s, d.get? id = some s) → d.ascend n id = some a → ∃ t, d.get? a = some t
  | 0, _, _, hs, h => by cases h; exact hs
  | n + 1, id, _, _, h => by
    obtain ⟨p, hp, h⟩ := Option.bind_eq_some_iff.mp h
    obtain ⟨-, b, hb, -⟩ := hd.parent_board id p hp
    exact hd.get?_ascend ⟨b, hb⟩ h

/-- What hangs under a stored shape is stored. -/
theorem exists_of_ascend {b : Shape} (h : d.ascend n id = some a) (ha : d.get? a = some b) :
    ∃ s, d.get? id = some s := by
  cases n with
  | zero => cases h; exact ⟨b, ha⟩
  | succ n =>
    obtain ⟨p, hp, -⟩ := Option.bind_eq_some_iff.mp h
    obtain ⟨s, hs, -⟩ := parent?_eq_some.mp hp
    exact ⟨s, hs⟩

end Ascend

/-! ### Levels -/

namespace Level

variable {d : Document} {id a root : ShapeId} {m n : ℕ}

theorem of_root (h : d.parent? id = none) : d.Level id 0 id := ⟨rfl, h⟩

/-- The links from an ancestor are the rest of the links. -/
theorem ancestor (h : d.Level id m root) (ha : d.ascend n id = some a) :
    n ≤ m ∧ d.Level a (m - n) root := by
  have hle : n ≤ m := by
    by_contra hlt
    obtain ⟨k, rfl⟩ := Nat.exists_eq_add_of_lt (Nat.lt_of_not_le hlt)
    rw [Nat.add_assoc, ascend_add, h.1, Option.bind_some, ascend_succ_of_root h.2] at ha
    cases ha
  refine ⟨hle, ?_, h.2⟩
  have hroot := h.1
  rw [← Nat.add_sub_cancel' hle, ascend_add, ha] at hroot
  exact hroot

theorem unique {root' : ShapeId} (h : d.Level id m root) (h' : d.Level id n root') : m = n :=
  Nat.le_antisymm (h'.ancestor h.1).1 (h.ancestor h'.1).1

theorem descend (h : d.Level a n root) (ha : d.ascend m id = some a) : d.Level id (m + n) root :=
  ⟨by rw [ascend_add, ha]; exact h.1, h.2⟩

theorem child {p : ShapeId} (h : d.Level p n root) (hp : d.parent? id = some p) :
    d.Level id (n + 1) root := ⟨by rw [ascend_succ hp]; exact h.1, h.2⟩

/-- No shape whose links come to an end is its own ancestor. -/
theorem no_cycle (h : d.Level id n root) (m : ℕ) : d.ascend (m + 1) id ≠ some id := by
  intro hc
  have := h.unique (h.descend hc)
  omega

/-- **There are fewer links than shapes**: the shapes on the way up are all different. -/
theorem lt_length (hd : WellFormed d) (hs : ∃ s, d.get? id = some s) (h : d.Level id n root) :
    n < d.order.length := by
  set way := (List.range (n + 1)).map fun k => (d.ascend k id).getD id with hway
  have hk : ∀ k ∈ List.range (n + 1), k ≤ n ∧ ∃ a, d.ascend k id = some a := by
    intro k hk
    have hkn : k ≤ n := Nat.lt_succ_iff.mp (List.mem_range.mp hk)
    exact ⟨hkn, ascend_of_le h.1 hkn⟩
  have hnodup : way.Nodup := by
    refine List.Nodup.map_on (fun i hi j hj hij => ?_) List.nodup_range
    obtain ⟨hin, a, ha⟩ := hk i hi
    obtain ⟨hjn, b, hb⟩ := hk j hj
    rw [ha, hb] at hij
    have hab : a = b := hij
    subst hab
    have := (h.ancestor ha).2.unique (h.ancestor hb).2
    omega
  have hsub : way ⊆ d.order := by
    intro a ha
    obtain ⟨k, hmem, rfl⟩ := List.mem_map.mp ha
    obtain ⟨-, a, ha⟩ := hk k hmem
    rw [ha]
    exact hd.mem_order_iff.mpr (hd.get?_ascend hs ha)
  have hlen := hnodup.length_le_of_subset hsub
  simp only [hway, List.length_map, List.length_range] at hlen
  omega

end Level

/-! ### Forests -/

section Forest
variable {d e : Document}

theorem rooted_iff (hd : WellFormed d) {id : ShapeId} (hs : ∃ s, d.get? id = some s) :
    d.Rooted id ↔ ∃ n root, d.Level id n root := by
  constructor
  · rintro ⟨n, root, r, hn, hr, hpar⟩
    exact ⟨n, root, hn, (parent?_of_get? hr).trans hpar⟩
  · rintro ⟨n, root, hn, hpar⟩
    obtain ⟨r, hr⟩ := hd.get?_ascend hs hn
    exact ⟨n, root, r, hn, hr, (parent?_of_get? hr).symm.trans hpar⟩

/-- Ids without a shape have no parent either. -/
theorem forest_iff (hd : WellFormed d) : Forest d ↔ ∀ id, ∃ n root, d.Level id n root := by
  constructor
  · intro hf id
    cases hs : d.get? id with
    | none => exact ⟨0, id, .of_root (by rw [parent?, hs]; rfl)⟩
    | some s => exact (rooted_iff hd ⟨s, hs⟩).mp (hf id s hs)
  · intro h id s hs
    exact (rooted_iff hd ⟨s, hs⟩).mpr (h id)

theorem forest_of_parent?_eq (hd : WellFormed d) (he : WellFormed e) (hf : Forest d)
    (h : ∀ j, e.parent? j = d.parent? j) : Forest e := by
  rw [forest_iff he]
  intro id
  obtain ⟨n, root, hn, hr⟩ := (forest_iff hd).mp hf id
  exact ⟨n, root, by rw [ascend_congr h]; exact hn, by rw [h]; exact hr⟩

section Attach
variable {parent child : ShapeId} {p c : Shape}

/-- Before they meet the moved shape, links are what they were. -/
theorem ascend_attach (hc : d.get? child = some c) {id : ShapeId} : ∀ {n : ℕ},
    (∀ k < n, d.ascend k id ≠ some child) →
      (d.attach parent child).ascend n id = d.ascend n id
  | 0, _ => rfl
  | n + 1, h => by
    have ih := ascend_attach hc fun k hk => h k (Nat.lt_succ_of_lt hk)
    rw [ascend_add, ascend_add, ih]
    cases ha : d.ascend n id with
    | none => rfl
    | some a =>
      have hne : a ≠ child := fun e => h n (Nat.lt_succ_self n) (by rw [ha, e])
      show ((d.attach parent child).parent? a).bind _ = (d.parent? a).bind _
      rw [parent?_attach parent hc, if_neg hne]
      cases d.parent? a <;> rfl

/-- A shape that lay below the moved one still does. -/
theorem exists_ascend_attach (parent : ShapeId) (hc : d.get? child = some c) {id : ShapeId}
    (h : ∃ n, d.ascend n id = some child) :
    ∃ n, (d.attach parent child).ascend n id = some child := by
  classical
  refine ⟨Nat.find h, ?_⟩
  rw [ascend_attach hc fun k hk => Nat.find_min h hk]
  exact Nat.find_spec h

/-- A shape that did not lie below the moved one ends where it did. -/
theorem Level.attach {id root : ShapeId} {n : ℕ} (hc : d.get? child = some c)
    (h : d.Level id n root) (hno : ∀ k, d.ascend k id ≠ some child) :
    (d.attach parent child).Level id n root := by
  refine ⟨by rw [ascend_attach hc fun k _ => hno k]; exact h.1, ?_⟩
  have hne : root ≠ child := fun e => hno n (by rw [h.1, e])
  rw [parent?_attach parent hc, if_neg hne]; exact h.2

/-- **Attaching keeps a forest exactly if the new parent does not lie below the child.** -/
theorem forest_attach_iff (hd : WellFormed d) (hf : Forest d) (hc : d.get? child = some c)
    (hne : parent ≠ child) (hp : d.get? parent = some p) (hb : p.isContainer = true) :
    Forest (d.attach parent child) ↔ ¬ ∃ n, d.ascend n parent = some child := by
  have hd' := hd.attach hc hne hp hb
  have hlink : (d.attach parent child).parent? child = some parent := by
    rw [parent?_attach parent hc, if_pos rfl]
  rw [forest_iff hd']
  constructor
  · -- the links from the child come back to it
    intro hf' hbelow
    obtain ⟨n, hn⟩ := exists_ascend_attach parent hc hbelow
    obtain ⟨m, root, hm⟩ := hf' child
    exact hm.no_cycle n ((ascend_succ hlink n).trans hn)
  · intro hbelow id
    have hno : ∀ k, d.ascend k parent ≠ some child := fun k hk => hbelow ⟨k, hk⟩
    obtain ⟨m, root, hm⟩ := (forest_iff hd).mp hf parent
    have hchild := (hm.attach hc hno).child hlink
    by_cases hid : ∃ k, d.ascend k id = some child
    · obtain ⟨k, hk⟩ := exists_ascend_attach parent hc hid
      exact ⟨_, _, hchild.descend hk⟩
    · obtain ⟨n, root', hn⟩ := (forest_iff hd).mp hf id
      exact ⟨n, root', hn.attach hc fun k hk => hid ⟨k, hk⟩⟩

end Attach

/-- **Only a step that closes a cycle turns a forest into something else.** -/
theorem forest_change_iff (hd : WellFormed d) (hf : Forest d) {s : Step} (h : Change d s e) :
    Forest e ↔ ¬ ClosesCycle d s := by
  have he := hd.change h
  have other : Forest e → (∀ p c, s ≠ .call (.edit (.append p c))) →
      (Forest e ↔ ¬ ClosesCycle d s) := fun hfe hs =>
    iff_of_true hfe fun ⟨p, c, hs', _⟩ => hs p c hs'
  cases h with
  | create p =>
    refine other (forest_of_parent?_eq hd he hf fun j => ?_) (fun _ _ h => by cases h)
    exact parent?_create hd.get?_nextId p j
  | set ok found given =>
    exact other (forest_of_parent?_eq hd he hf (parent?_set found given)) (fun _ _ h => by cases h)
  | @attach parent child p c child_found ne parent_found board =>
    have hok : ∃ e, d.append parent child = .ok e :=
      ⟨_, append_eq_ok.mpr ⟨⟨c, child_found⟩, ne, ⟨p, parent_found, board⟩, rfl⟩⟩
    rw [forest_attach_iff hd hf child_found ne parent_found board, not_iff_not]
    constructor
    · exact fun h => ⟨parent, child, rfl, hok, h⟩
    · rintro ⟨_, _, h, -, hbelow⟩; cases h; exact hbelow
  | @refused c error refused =>
    refine iff_of_true hf ?_
    rintro ⟨p, q, h, ⟨e, hok⟩, -⟩
    cases h
    rw [show d.edit (.append p q) = d.append p q from rfl, hok] at refused
    cases refused
  | clear => exact other (fun _ _ h => by cases h) (fun _ _ h => by cases h)
  | look v =>
    exact other (forest_of_parent?_eq hd he hf fun _ => rfl) (fun _ _ h => by cases h)

/-- **All documents of a run are forests exactly if no step of it closes a cycle.** -/
theorem forest_run_iff (hd : WellFormed d) (hf : Forest d) (steps : List Step) :
    (∀ before, before <+: steps → Forest (d.run before)) ↔
      ∀ before s, before ++ [s] <+: steps → ¬ ClosesCycle (d.run before) s := by
  have hstep : ∀ before s, Forest (d.run before) →
      (Forest (d.run (before ++ [s])) ↔ ¬ ClosesCycle (d.run before) s) := by
    intro before s hfb
    rw [run_concat]
    exact forest_change_iff (hd.run before) hfb (change_step _ s)
  constructor
  · intro h before s hs
    exact (hstep before s (h before ((List.prefix_append _ _).trans hs))).mp (h _ hs)
  · intro h before
    induction before using List.reverseRecOn with
    | nil => exact fun _ => hf
    | append_singleton before s ih =>
      intro hs
      exact (hstep before s (ih ((List.prefix_append _ _).trans hs))).mpr (h before s hs)

end Forest

end Artboard.Document
