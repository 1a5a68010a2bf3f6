import Artboard.Proofs.Json.Numbers

/-! # Tokens of a text

* `IsScalar`: the scalars, by their first glyph.
* `NextItem`, `NextMember`: what stands between the entries of a list and of an object. -/

namespace Artboard.Json

/-! ### Scalars -/

section Scalars
variable {text rest more : Text} {j : Json}

theorem keyword_eq_ok : ∀ {word : List Char} {text : Text},
    keyword word text = .ok rest ↔ text = word.map .char ++ rest
  | [], text => by simp [keyword]
  | c :: word, [] => by simp [keyword, failAt]
  | c :: word, g :: text => by
    rw [keyword]
    split_ifs with hg
    · rw [keyword_eq_ok, hg]; simp
    · simp [failOn, hg]

theorem keyword_append {word : List Char} (h : keyword word text = .ok rest) :
    keyword word (text ++ more) = .ok (rest ++ more) := by
  rw [keyword_eq_ok] at h ⊢
  rw [h, List.append_assoc]

/-- A scalar at the front of a text, by its first glyph. -/
inductive IsScalar : Text → Json → Text → Prop
  | null {text rest : Text} (h : keyword ['u', 'l', 'l'] text = .ok rest) :
      IsScalar (.char 'n' :: text) .null rest
  | isTrue {text rest : Text} (h : keyword ['r', 'u', 'e'] text = .ok rest) :
      IsScalar (.char 't' :: text) (.bool true) rest
  | isFalse {text rest : Text} (h : keyword ['a', 'l', 's', 'e'] text = .ok rest) :
      IsScalar (.char 'f' :: text) (.bool false) rest
  | string {text rest : Text} {cs : List Char} (h : Quoted text cs rest) :
      IsScalar (.char '"' :: text) (.string (String.ofList cs)) rest
  | minus {text rest : Text} {j : Json} (h : unsignedNumber true text = .ok (j, rest)) :
      IsScalar (.char '-' :: text) j rest
  | number {text rest : Text} {j : Json} (hdigit : (digitAt? text).isSome)
      (h : unsignedNumber false text = .ok (j, rest)) : IsScalar text j rest

theorem isScalar_of_scalar (h : scalar text = .ok (j, rest)) : IsScalar text j rest := by
  have hmap {r : Except Failure Text} {a : Json}
      (h : r.map (fun rest => (a, rest)) = .ok (j, rest)) : r = .ok rest ∧ j = a := by
    cases r <;> cases h
    exact ⟨rfl, rfl⟩
  unfold scalar at h
  split at h
  · obtain ⟨hword, rfl⟩ := hmap h
    exact .null hword
  · obtain ⟨hword, rfl⟩ := hmap h
    exact .isTrue hword
  · obtain ⟨hword, rfl⟩ := hmap h
    exact .isFalse hword
  · rename_i t
    cases hs : stringBody t with
    | error f => rw [hs] at h; cases h
    | ok r =>
      rw [hs] at h; cases h
      obtain ⟨cs, hcs, hr⟩ := stringBody_eq_ok.mp hs
      rw [hr]
      exact .string hcs
  · exact .minus h
  · cases h
  · rename_i hminus _
    split_ifs at h with hd
    · refine .number hd ?_
      unfold Json.number at h
      split at h
      · exact absurd rfl (hminus _)
      · exact h
    · cases h

/-- A text with a digit at its front is read as a number. -/
theorem scalar_of_digitAt? (h : (digitAt? text).isSome) :
    scalar text = unsignedNumber false text := by
  match text with
  | [] => cases h
  | .stray b :: text => cases h
  | .char c :: text =>
    have hc : Number.isDigit c = true := by
      by_contra hc
      simp [digitAt?, hc] at h
    have hne {d : Char} (hd : Number.isDigit d = false) : ¬ c = d := by
      rintro rfl
      rw [hc] at hd; cases hd
    have hnumber : Json.number (.char c :: text) = unsignedNumber false (.char c :: text) := by
      unfold Json.number
      split
      · rename_i heq; cases heq; exact absurd rfl (hne (by decide))
      · rfl
    unfold scalar
    split
    · rename_i heq; cases heq; exact absurd rfl (hne (by decide))
    · rename_i heq; cases heq; exact absurd rfl (hne (by decide))
    · rename_i heq; cases heq; exact absurd rfl (hne (by decide))
    · rename_i heq; cases heq; exact absurd rfl (hne (by decide))
    · rename_i heq; cases heq; exact absurd rfl (hne (by decide))
    · rename_i heq; cases heq
    · rw [if_pos h, hnumber]

theorem skipScalar_of_digitAt? (h : (digitAt? text).isSome) :
    skipScalar text = skipNumber text := by
  match text with
  | [] => cases h
  | .stray b :: text => cases h
  | .char c :: text =>
    have hc : Number.isDigit c = true := by
      by_contra hc
      simp [digitAt?, hc] at h
    have hne {d : Char} (hd : Number.isDigit d = false) : ¬ c = d := by
      rintro rfl
      rw [hc] at hd; cases hd
    unfold skipScalar
    split
    · rename_i heq; cases heq; exact absurd rfl (hne (by decide))
    · rename_i heq; cases heq; exact absurd rfl (hne (by decide))
    · rename_i heq; cases heq; exact absurd rfl (hne (by decide))
    · rename_i heq; cases heq; exact absurd rfl (hne (by decide))
    · rename_i heq; cases heq; exact absurd rfl (hne (by decide))
    · rename_i heq; cases heq
    · rw [if_pos h]

/-- **Scalars are read by their first glyph.** -/
theorem scalar_eq_ok : scalar text = .ok (j, rest) ↔ IsScalar text j rest := by
  refine ⟨isScalar_of_scalar, fun h => ?_⟩
  cases h with
  | null h => simp only [scalar, h]; rfl
  | isTrue h => simp only [scalar, h]; rfl
  | isFalse h => simp only [scalar, h]; rfl
  | string h => simp only [scalar, stringBody_eq_ok.mpr ⟨_, h, rfl⟩]; rfl
  | minus h => exact h
  | number hdigit h => rw [scalar_of_digitAt? hdigit, h]

namespace IsScalar

theorem length_lt (h : IsScalar text j rest) : rest.length < text.length := by
  cases h with
  | null h => rw [keyword_eq_ok.mp h]; simp; omega
  | isTrue h => rw [keyword_eq_ok.mp h]; simp; omega
  | isFalse h => rw [keyword_eq_ok.mp h]; simp; omega
  | string h => have := h.length_lt; rw [List.length_cons]; omega
  | minus h => exact (length_lt_of_unsignedNumber h).trans (Nat.lt_succ_self _)
  | number _ h => exact length_lt_of_unsignedNumber h

theorem append (h : IsScalar text j rest) (hmore : Delimited more) :
    IsScalar (text ++ more) j (rest ++ more) := by
  cases h with
  | null h => exact .null (keyword_append h)
  | isTrue h => exact .isTrue (keyword_append h)
  | isFalse h => exact .isFalse (keyword_append h)
  | string h => exact .string (h.append hmore)
  | minus h => exact .minus ((local_unsignedNumber true h).2 hmore)
  | number hdigit h =>
    have hdigit' := hdigit
    rw [← digitAt?_append hmore] at hdigit'
    exact .number hdigit' ((local_unsignedNumber false h).2 hmore)

theorem skipScalar (h : IsScalar text j rest) : Json.skipScalar text = .ok rest := by
  cases h with
  | null h => exact h
  | isTrue h => exact h
  | isFalse h => exact h
  | string h => simp only [Json.skipScalar, skipString, h.skipStringFrom (Nat.lt_succ_self _)]; rfl
  | minus h => exact skipNumber_of_unsignedNumber h
  | number hdigit h => rw [skipScalar_of_digitAt? hdigit, skipNumber_of_unsignedNumber h]

theorem ne_array (h : IsScalar text j rest) (js : List Json) : j ≠ .array js := by
  cases h with
  | minus h => rcases unsignedNumber_isNumber h with ⟨n, rfl⟩ | ⟨x, rfl⟩ <;> exact Json.noConfusion
  | number _ h =>
    rcases unsignedNumber_isNumber h with ⟨n, rfl⟩ | ⟨x, rfl⟩ <;> exact Json.noConfusion
  | _ => exact Json.noConfusion

theorem ne_object (h : IsScalar text j rest) (ms : List (String × Json)) : j ≠ .object ms := by
  cases h with
  | minus h => rcases unsignedNumber_isNumber h with ⟨n, rfl⟩ | ⟨x, rfl⟩ <;> exact Json.noConfusion
  | number _ h =>
    rcases unsignedNumber_isNumber h with ⟨n, rfl⟩ | ⟨x, rfl⟩ <;> exact Json.noConfusion
  | _ => exact Json.noConfusion

/-- A string has fewer characters than what spells it. -/
theorem length_string {s : String} (h : IsScalar text (.string s) rest) :
    (Text.ofString s).length < text.length := by
  generalize hj : Json.string s = j at h
  cases h with
  | @string text _ cs h =>
    cases hj
    have hlen : (Text.ofString (String.ofList cs)).length = cs.length := by simp [Text.ofString]
    have := h.length_lt
    rw [hlen, List.length_cons]; omega
  | minus h => rcases unsignedNumber_isNumber h with ⟨n, rfl⟩ | ⟨x, rfl⟩ <;> cases hj
  | number _ h => rcases unsignedNumber_isNumber h with ⟨n, rfl⟩ | ⟨x, rfl⟩ <;> cases hj
  | _ => cases hj

end IsScalar

end Scalars

/-! ### Blanks and brackets -/

section Brackets
variable {text rest more : Text} {g : Glyph} {first : Bool} {next : Next}

theorem skipBlank_skipBlank (text : Text) : text.skipBlank.skipBlank = text.skipBlank :=
  List.dropWhile_idempotent ..

theorem length_skipBlank_le (text : Text) : text.skipBlank.length ≤ text.length :=
  List.length_dropWhile_le ..

theorem skipBlank_append (h : text.skipBlank = g :: rest) :
    Text.skipBlank (text ++ more) = g :: rest ++ more := by
  unfold Text.skipBlank at h ⊢
  rw [List.dropWhile_append, h]; rfl

/-- What comes next in a list. -/
inductive NextItem : Bool → Text → Next → Text → Prop
  | close {first : Bool} {text rest : Text} (h : text.skipBlank = .char ']' :: rest) :
      NextItem first text .close (.char ']' :: rest)
  | first {text rest : Text} {g : Glyph} (h : text.skipBlank = g :: rest) (hg : g ≠ .char ']') :
      NextItem true text .entry (g :: rest)
  | comma {text t rest : Text} {g : Glyph} (h : text.skipBlank = .char ',' :: t)
      (ht : Text.skipBlank t = g :: rest) (hg : g ≠ .char ']') :
      NextItem false text .entry (g :: rest)

/-- What comes next in an object, with the opening quote of a key. -/
inductive NextMember : Bool → Text → Next → Text → Prop
  | close {first : Bool} {text rest : Text} (h : text.skipBlank = .char '\x7d' :: rest) :
      NextMember first text .close (.char '\x7d' :: rest)
  | first {text rest : Text} (h : text.skipBlank = .char '"' :: rest) :
      NextMember true text .entry rest
  | comma {text t rest : Text} (h : text.skipBlank = .char ',' :: t)
      (ht : Text.skipBlank t = .char '"' :: rest) : NextMember false text .entry rest

/-- A list goes on in the same way whether it is kept or passed over. -/
theorem nextItem_eq_ok {pass : Pass} :
    nextItem pass first text = .ok (next, rest) ↔ NextItem first text next rest := by
  constructor
  · intro h
    unfold nextItem at h
    split at h
    · cases h
    · rename_i hblank
      cases h; exact .close hblank
    · rename_i g t hg hblank
      have hg : g ≠ .char ']' := hg
      split_ifs at h with hfirst hcomma
      · cases h; subst hfirst; exact .first hblank hg
      · obtain rfl : first = false := by simpa using hfirst
        subst hcomma
        split at h
        · cases h
        · cases h
        · rename_i t' hnil hclose
          cases h
          obtain ⟨g', u, hu⟩ := List.exists_cons_of_ne_nil hnil
          rw [hu]
          refine .comma hblank hu ?_
          rintro rfl
          exact hclose _ hu
      · cases h
  · intro h
    unfold nextItem
    cases h with
    | close h => rw [h]; rfl
    | first h hg => rw [h]; split <;> simp_all
    | comma h ht hg =>
      rw [h]
      change (if false = true then _ else if Glyph.char ',' = .char ',' then _ else _) = _
      rw [if_neg Bool.false_ne_true, if_pos rfl, ht]
      split <;> simp_all

theorem nextMember_eq_ok {pass : Pass} :
    nextMember pass first text = .ok (next, rest) ↔ NextMember first text next rest := by
  constructor
  · intro h
    unfold nextMember at h
    split at h
    · cases h
    · rename_i hblank
      cases h; exact .close hblank
    · rename_i g t hg hblank
      split_ifs at h with hfirst hquote hcomma
      · cases h; subst hfirst hquote; exact .first hblank
      · cases h
      · obtain rfl : first = false := by simpa using hfirst
        subst hcomma
        split at h
        · cases h
        · rename_i ht
          cases h; exact .comma hblank ht
        · cases h
        · cases h
      · cases h
  · intro h
    unfold nextMember
    cases h with
    | close h => rw [h]; rfl
    | first h => rw [h]; rfl
    | comma h ht =>
      rw [h]
      change (if false = true then _ else if Glyph.char ',' = .char ',' then _ else _) = _
      rw [if_neg Bool.false_ne_true, if_pos rfl, ht]
      rfl

theorem colon_eq_ok : colon text = .ok rest ↔ text.skipBlank = .char ':' :: rest := by
  unfold colon
  split <;> simp_all [failOn]

theorem closeList_eq_ok : closeList text = .ok rest ↔ text.skipBlank = .char ']' :: rest := by
  unfold closeList
  split
  · simp_all [failOn]
  · simp_all
  · rename_i h
    rw [h]
    split <;> simp [failOn]
  · simp_all [failOn]

theorem closeObject_eq_ok :
    closeObject text = .ok rest ↔ text.skipBlank = .char '\x7d' :: rest := by
  unfold closeObject
  split <;> simp_all [failOn]

theorem NextItem.length_le (h : NextItem first text next rest) : rest.length ≤ text.length := by
  cases h with
  | close h => rw [← h]; exact length_skipBlank_le text
  | first h => rw [← h]; exact length_skipBlank_le text
  | @comma _ t _ _ h ht =>
    have htext := length_skipBlank_le text
    have hlen := length_skipBlank_le t
    rw [h, List.length_cons] at htext
    rw [ht] at hlen
    omega

theorem NextItem.append (h : NextItem first text next rest) :
    NextItem first (text ++ more) next (rest ++ more) := by
  cases h with
  | close h => exact .close (skipBlank_append h)
  | first h hg => exact .first (skipBlank_append h) hg
  | comma h ht hg => exact .comma (skipBlank_append h) (skipBlank_append ht) hg

theorem NextMember.length_le (h : NextMember first text next rest) : rest.length ≤ text.length := by
  cases h with
  | close h => rw [← h]; exact length_skipBlank_le text
  | first h =>
    have htext := length_skipBlank_le text
    rw [h, List.length_cons] at htext
    omega
  | @comma _ t _ h ht =>
    have htext := length_skipBlank_le text
    have hlen := length_skipBlank_le t
    rw [h, List.length_cons] at htext
    rw [ht, List.length_cons] at hlen
    omega

theorem NextMember.append (h : NextMember first text next rest) :
    NextMember first (text ++ more) next (rest ++ more) := by
  cases h with
  | close h => exact .close (skipBlank_append h)
  | first h => exact .first (skipBlank_append h)
  | comma h ht => exact .comma (skipBlank_append h) (skipBlank_append ht)

end Brackets

end Artboard.Json
