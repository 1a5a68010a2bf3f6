import Artboard.Json.Tree
import Mathlib.Data.List.Nodup

/-! # Trees as dictionaries

In canonical form no key occurs twice in an object, and all parts are in canonical form.

* `Json.keys`, `Distinct`: the keys of members, and objects with each key once.
* `Canonical`: trees in canonical form. `Canonical.isPart`: their parts are so too.
* `Unembedded`: a tree with nothing to open. `opened_of_unembedded`: it stands for itself. -/

namespace Artboard.Json

/-- The keys of members. -/
def keys (ms : List (String × Json)) : List String := ms.map Prod.fst

/-- No key of an object occurs twice. -/
def Distinct : Json → Prop
  | .object ms => (keys ms).Nodup
  | _ => True

/-! ### Looking up keys -/

section Lookup
variable {ms : List (String × Json)} {key k : String} {j : Json}

theorem lookup_concat (ms : List (String × Json)) (k : String) (j : Json) (key : String) :
    lookup key (ms ++ [(k, j)]) = if k = key then some j else lookup key ms := by
  unfold lookup
  rw [List.reverse_concat, List.find?_cons]
  by_cases h : k = key <;> simp [h]

theorem lookup_eq_none : lookup key ms = none ↔ key ∉ keys ms := by
  rw [lookup, Option.map_eq_none_iff, List.find?_eq_none, keys, List.mem_map]
  constructor
  · rintro h ⟨e, he, rfl⟩
    exact h e (List.mem_reverse.mpr he) (decide_eq_true rfl)
  · rintro h e he hkey
    exact h ⟨e, List.mem_reverse.mp he, of_decide_eq_true hkey⟩

theorem mem_of_lookup (h : lookup key ms = some j) : (key, j) ∈ ms := by
  obtain ⟨⟨k, i⟩, hfind, rfl⟩ := Option.map_eq_some_iff.mp h
  have hk := List.find?_some hfind
  obtain rfl : k = key := by simpa using hk
  exact List.mem_reverse.mp (List.mem_of_find?_eq_some hfind)

theorem lookup_of_mem (hms : (keys ms).Nodup) (h : (key, j) ∈ ms) : lookup key ms = some j := by
  cases hl : lookup key ms with
  | none => exact absurd (List.mem_map_of_mem h) (lookup_eq_none.mp hl)
  | some i =>
    have heq := List.inj_on_of_nodup_map hms (mem_of_lookup hl) h rfl
    cases heq; rfl

end Lookup

/-! ### Canonical trees -/

theorem hasKey_eq (key : String) (ms : List (String × Json)) :
    hasKey key ms = decide (key ∈ keys ms) := by
  rw [Bool.eq_iff_iff, decide_eq_true_eq, hasKey, keys, List.any_eq_true, List.mem_map]
  constructor
  · rintro ⟨e, he, hkey⟩; exact ⟨e, he, of_decide_eq_true hkey⟩
  · rintro ⟨e, he, hkey⟩; exact ⟨e, he, decide_eq_true hkey⟩

theorem perm_insertMember (key : String) (j : Json) : ∀ ms : List (String × Json),
    (insertMember key j ms).Perm ((key, j) :: ms)
  | [] => .refl _
  | (k, i) :: ms => by
    rw [insertMember]
    split_ifs
    · exact .refl _
    · exact ((perm_insertMember key j ms).cons _).trans (.swap ..)

theorem nodup_keys_canonicalMembers : ∀ ms : List (String × Json),
    (keys (canonicalMembers ms)).Nodup
  | [] => List.nodup_nil
  | (key, j) :: ms => by
    have hms := nodup_keys_canonicalMembers ms
    rw [canonicalMembers]
    show (keys (if hasKey key (canonicalMembers ms) then _ else _)).Nodup
    rw [hasKey_eq]
    by_cases h : key ∈ keys (canonicalMembers ms)
    · rw [if_pos (decide_eq_true h)]; exact hms
    · rw [if_neg (by simpa using h)]
      have hperm := (perm_insertMember key j.canonical (canonicalMembers ms)).map Prod.fst
      exact hperm.nodup_iff.mpr (List.nodup_cons.mpr ⟨h, hms⟩)

/-- No key of a canonical object occurs twice. -/
theorem distinct_canonical (j : Json) : j.canonical.Distinct := by
  cases j with
  | object ms => exact nodup_keys_canonicalMembers ms
  | _ => trivial

theorem canonicalItems_eq_map : ∀ js : List Json, canonicalItems js = js.map canonical
  | [] => rfl
  | j :: js => congrArg (j.canonical :: ·) (canonicalItems_eq_map js)

/-- A tree is in canonical form. -/
def Canonical (i : Json) : Prop := ∃ j : Json, j.canonical = i

/-- A tree is the value of a member of an object or an item of an array. -/
def IsPart (x : Json) : Json → Prop
  | .object ms => ∃ key, (key, x) ∈ ms
  | .array js => x ∈ js
  | _ => False

theorem Canonical.distinct {j : Json} (hj : j.Canonical) : j.Distinct := by
  obtain ⟨j, rfl⟩ := hj
  exact distinct_canonical j

theorem canonical_of_mem_canonicalMembers {k : String} {i : Json} :
    ∀ {ms : List (String × Json)}, (k, i) ∈ canonicalMembers ms → i.Canonical
  | (key, j) :: ms, h => by
    rw [canonicalMembers] at h
    by_cases hkey : hasKey key (canonicalMembers ms) = true
    · rw [if_pos hkey] at h
      exact canonical_of_mem_canonicalMembers h
    · rw [if_neg hkey] at h
      rcases List.mem_cons.mp ((perm_insertMember key j.canonical _).mem_iff.mp h) with heq | h
      · cases heq; exact ⟨j, rfl⟩
      · exact canonical_of_mem_canonicalMembers h

/-- The parts of a canonical tree are canonical. -/
theorem Canonical.isPart {j x : Json} (hj : j.Canonical) (hx : IsPart x j) : x.Canonical := by
  obtain ⟨j, rfl⟩ := hj
  cases j with
  | object ms =>
    obtain ⟨key, hx⟩ := hx
    exact canonical_of_mem_canonicalMembers hx
  | array js =>
    have hx : x ∈ canonicalItems js := hx
    rw [canonicalItems_eq_map] at hx
    obtain ⟨j, -, rfl⟩ := List.mem_map.mp hx
    exact ⟨j, rfl⟩
  | _ => exact hx.elim

/-! ### Trees with nothing to open -/

mutual

/-- No object of a tree begins with the reserved key. -/
def Unembedded : Json → Prop
  | .array js => UnembeddedItems js
  | .object ms => embeddedIn? ms = none ∧ UnembeddedMembers ms
  | _ => True

/-- No object in a list begins with the reserved key. -/
def UnembeddedItems : List Json → Prop
  | [] => True
  | j :: js => j.Unembedded ∧ UnembeddedItems js

/-- No object in the values of members begins with the reserved key. -/
def UnembeddedMembers : List (String × Json) → Prop
  | [] => True
  | (_, j) :: ms => j.Unembedded ∧ UnembeddedMembers ms

end

mutual

/-- **A tree in which no object begins with the reserved key stands for itself.** -/
theorem opened_of_unembedded : ∀ {j : Json}, j.Unembedded → j.opened = .ok j
  | .array js, h => by
    rw [opened, openedItems_of_unembedded h]; rfl
  | .object ms, h => by
    rw [opened, h.1, openedMembers_of_unembedded h.2]; rfl
  | .null, _ => rfl
  | .bool _, _ => rfl
  | .int _, _ => rfl
  | .float _, _ => rfl
  | .string _, _ => rfl

theorem openedItems_of_unembedded : ∀ {js : List Json}, UnembeddedItems js →
    openedItems js = .ok js
  | [], _ => rfl
  | j :: js, h => by
    rw [openedItems, opened_of_unembedded h.1, openedItems_of_unembedded h.2]; rfl

theorem openedMembers_of_unembedded : ∀ {ms : List (String × Json)}, UnembeddedMembers ms →
    openedMembers ms = .ok ms
  | [], _ => rfl
  | (key, j) :: ms, h => by
    rw [openedMembers, opened_of_unembedded h.1, openedMembers_of_unembedded h.2]; rfl

end

/-! ### Opened trees -/

theorem keys_openedMembers : ∀ {ms ns : List (String × Json)}, openedMembers ms = .ok ns →
    keys ns = keys ms
  | [], _, h => by cases h; rfl
  | (key, j) :: ms, ns, h => by
    rw [openedMembers] at h
    cases hj : j.opened with
    | error m => rw [hj] at h; cases h
    | ok i =>
      cases hms : openedMembers ms with
      | error m => rw [hj, hms] at h; cases h
      | ok ns =>
        rw [hj, hms] at h
        cases h
        exact congrArg (key :: ·) (keys_openedMembers hms)

/-- Nothing is opened to an object in which a key occurs twice. -/
theorem distinct_openValue {j i : Json} {length : Nat} (h : openValue j length = .ok i) :
    i.Distinct := by
  unfold openValue at h
  cases hs : embeddedText j with
  | error m => rw [hs] at h; cases h
  | ok s =>
    simp only [hs] at h
    cases ht : parse (Text.ofString s) with
    | error e => rw [ht] at h; cases h
    | ok tree =>
      simp only [ht] at h
      split_ifs at h
      cases h
      exact distinct_canonical tree

/-- In an opened tree no key occurs twice either. -/
theorem distinct_opened {j i : Json} (hj : j.Distinct) (h : j.opened = .ok i) : i.Distinct := by
  cases j with
  | object ms =>
    rw [opened] at h
    cases he : embeddedIn? ms with
    | some v =>
      simp only [he] at h
      exact distinct_openValue h
    | none =>
      simp only [he] at h
      cases hms : openedMembers ms with
      | error m => rw [hms] at h; cases h
      | ok ns =>
        rw [hms] at h
        cases h
        show (keys ns).Nodup
        rw [keys_openedMembers hms]; exact hj
  | array js =>
    rw [opened] at h
    cases hjs : openedItems js with
    | error m => rw [hjs] at h; cases h
    | ok is => rw [hjs] at h; cases h; trivial
  | _ => cases h; trivial

end Artboard.Json
