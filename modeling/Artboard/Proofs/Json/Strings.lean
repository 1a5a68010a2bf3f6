import Artboard.Json.Tree
import Artboard.Json.Skip
import Mathlib.Data.List.DropRight
import Mathlib.Data.List.TakeWhile

/-! # Strings in a text

A string is read up to its closing quote, and is passed over up to the same place.

* `Local`: readers for which the text behind what they take makes no difference.
* `Quoted`: the characters that stand for a string in a text. -/

namespace Artboard.Json

theorem Text.ofString_append (s t : String) :
    Text.ofString (s ++ t) = Text.ofString s ++ Text.ofString t := by
  simp [Text.ofString]

/-- A text begins with nothing that a number before it would go on with. -/
def Delimited (text : Text) : Prop :=
  ∀ c rest, text = .char c :: rest → Number.isDigit c = false ∧ c ≠ '.' ∧ c ≠ 'e' ∧ c ≠ 'E'

/-- What a reader takes from the front of a text does not depend on what stands behind it. -/
def Local {α : Type} (r : Reader α) : Prop :=
  ∀ {text rest : Text} {a : α}, r text = .ok (a, rest) → rest.length ≤ text.length ∧
    ∀ {more : Text}, Delimited more → r (text ++ more) = .ok (a, rest ++ more)

section Strings
variable {text rest : Text}

theorem fourDigits?_eq_some {n : Nat} (h : fourDigits? text = some (n, rest)) :
    ∃ a b c d, text = a :: b :: c :: d :: rest ∧
      ∀ more, fourDigits? (a :: b :: c :: d :: more) = some (n, more) := by
  unfold fourDigits? at h
  split at h
  · rename_i a b c d tail
    simp only [Option.bind_eq_bind, Option.bind_eq_some_iff, pure, Option.some.injEq,
      Prod.mk.injEq] at h
    obtain ⟨x, hx, y, hy, z, hz, w, hw, hn, rfl⟩ := h
    exact ⟨a, b, c, d, rfl, fun more => by simp [fourDigits?, hx, hy, hz, hw, hn]⟩
  · cases h

theorem codeUnit_eq_ok {n : Nat} :
    codeUnit text = .ok (n, rest) ↔ fourDigits? text = some (n, rest) := by
  unfold codeUnit
  cases fourDigits? text with
  | some unit => simp
  | none =>
    simp only [reduceCtorEq, iff_false]
    intro h
    split at h <;> cases h

theorem local_codeUnit : Local codeUnit := by
  intro text rest n h
  obtain ⟨a, b, c, d, rfl, hmore⟩ := fourDigits?_eq_some (codeUnit_eq_ok.mp h)
  refine ⟨by simp only [List.length_cons]; omega, fun _ => ?_⟩
  exact codeUnit_eq_ok.mpr (hmore _)

theorem local_trailingUnit (leading : Nat) : Local (trailingUnit leading) := by
  intro text rest c h
  unfold trailingUnit at h
  split at h
  case h_3 t =>
    rcases hu : codeUnit t with f | ⟨unit, u⟩ <;> rw [hu] at h
    · cases h
    · obtain ⟨hlen, hmore⟩ := local_codeUnit hu
      simp only [bind, Except.bind] at h
      split_ifs at h with hrange
      · obtain ⟨hc, rfl⟩ := Prod.mk.inj (Except.ok.inj h)
        refine ⟨by simp only [List.length_cons]; omega, fun hd => ?_⟩
        simp only [List.cons_append, trailingUnit, hmore hd, bind, Except.bind, if_pos hrange, hc]
      · cases h
  all_goals cases h

theorem local_codePoint : Local codePoint := by
  intro text rest c h
  unfold codePoint at h
  rcases hu : codeUnit text with f | ⟨unit, t⟩ <;> rw [hu] at h
  · cases h
  · obtain ⟨hlen, hmore⟩ := local_codeUnit hu
    simp only [bind, Except.bind] at h
    split_ifs at h with hlow hhigh
    · cases h
    · obtain ⟨hlen', hmore'⟩ := local_trailingUnit unit h
      refine ⟨hlen'.trans hlen, fun hd => ?_⟩
      simp only [codePoint, hmore hd, bind, Except.bind, if_neg hlow, if_pos hhigh, hmore' hd]
    · cases h
      refine ⟨hlen, fun hd => ?_⟩
      simp only [codePoint, hmore hd, bind, Except.bind, if_neg hlow, if_neg hhigh]

theorem escape_cases {c : Char} (h : escape text = .ok (c, rest)) :
   (∃ t, text = .char 'u' :: t ∧ codePoint t = .ok (c, rest)) ∨
    ∃ g, text = g :: rest ∧ g ≠ .char 'u' ∧ shortEscape? g = some c := by
  unfold escape at h
  split at h
  · cases h
  · exact .inl ⟨_, rfl, h⟩
  · rename_i g t hg
    split at h
    · rename_i c' hc
      cases h
      exact .inr ⟨g, rfl, hg, hc⟩
    · cases h

theorem local_escape : Local escape := by
  intro text rest c h
  rcases escape_cases h with ⟨t, rfl, ht⟩ | ⟨g, rfl, hg, hc⟩
  · obtain ⟨hlen, hmore⟩ := local_codePoint ht
    exact ⟨Nat.le_succ_of_le hlen, fun hd => hmore hd⟩
  · refine ⟨Nat.le_succ _, fun _ => ?_⟩
    rw [List.cons_append]
    unfold escape
    split
    · simp_all
    · simp_all
    · rename_i heq
      obtain ⟨rfl, rfl⟩ := List.cons.inj heq
      rw [hc]

theorem length_lt_of_escape {c : Char} (h : escape text = .ok (c, rest)) :
    rest.length < text.length := by
  rcases escape_cases h with ⟨t, rfl, ht⟩ | ⟨g, rfl, -, -⟩
  · exact Nat.lt_succ_of_le (local_codePoint ht).1
  · exact Nat.lt_succ_self _

/-- An escape is passed over as one, or as two if it spells a pair of surrogates. -/
theorem skipEscape_of_escape {c : Char} (h : escape text = .ok (c, rest)) :
    skipEscape text = .ok rest ∨ ∃ t, t.length < text.length ∧
      skipEscape text = .ok (.char '\\' :: t) ∧ skipEscape t = .ok rest := by
  rcases escape_cases h with ⟨t, rfl, ht⟩ | ⟨g, rfl, hg, hc⟩
  · unfold codePoint at ht
    rcases hu : codeUnit t with f | ⟨unit, u⟩ <;> rw [hu] at ht
    · cases ht
    · have hskip : skipEscape (.char 'u' :: t) = .ok u := by rw [skipEscape, hu]; rfl
      simp only [bind, Except.bind] at ht
      split_ifs at ht with hlow hhigh
      · cases ht
      · unfold trailingUnit at ht
        split at ht
        case h_3 t' =>
          rcases hu' : codeUnit t' with f | ⟨unit', u'⟩ <;> rw [hu'] at ht
          · cases ht
          · simp only [bind, Except.bind] at ht
            split_ifs at ht
            · obtain ⟨-, rfl⟩ := Prod.mk.inj (Except.ok.inj ht)
              have hlen := (local_codeUnit hu).1
              simp only [List.length_cons] at hlen
              refine .inr ⟨.char 'u' :: t', by simp only [List.length_cons]; omega, hskip, ?_⟩
              rw [skipEscape, hu']; rfl
            · cases ht
        all_goals cases ht
      · obtain ⟨-, rfl⟩ := Prod.mk.inj (Except.ok.inj ht)
        exact .inl hskip
  · left
    unfold skipEscape
    split
    · simp_all
    · simp_all
    · rename_i heq
      obtain ⟨rfl, rfl⟩ := List.cons.inj heq
      rw [hc]; rfl

/-- The characters of a string stand at the front of a text, up to the closing quote. -/
inductive Quoted : Text → List Char → Text → Prop
  | close (rest : Text) : Quoted (.char '"' :: rest) [] rest
  | escape {text after rest : Text} {c : Char} {cs : List Char}
      (h : escape text = .ok (c, after)) (more : Quoted after cs rest) :
      Quoted (.char '\\' :: text) (c :: cs) rest
  | char {text rest : Text} {c : Char} {cs : List Char} (hquote : c ≠ '"') (hescape : c ≠ '\\')
      (hcontrol : isControl (.char c) = false) (more : Quoted text cs rest) :
      Quoted (.char c :: text) (c :: cs) rest

theorem stringFrom_cons (steps : Nat) (done : List Char) (c : Char) (text : Text) :
    stringFrom (steps + 1) done none (.char c :: text) =
      if c = '"' then .ok (String.ofList done.reverse, text)
      else if c = '\\' then
        match Json.escape text with
        | .ok (c, rest) => stringFrom steps (c :: done) none rest
        | .error f => .error f
      else if isControl (.char c) then failOn .controlCharacter (.char c :: text)
      else stringFrom steps (c :: done) none text := by
  simp only [stringFrom, Glyph.char.injEq]
  rfl

theorem stringFrom_of_quoted {cs : List Char} (h : Quoted text cs rest) :
    ∀ {steps : Nat} (done : List Char), text.length < steps →
      stringFrom steps done none text = .ok (String.ofList (done.reverse ++ cs), rest) := by
  induction h with
  | close rest =>
    intro steps done hsteps
    obtain ⟨n, rfl⟩ := Nat.exists_eq_add_one_of_ne_zero (Nat.ne_zero_of_lt hsteps)
    rw [stringFrom_cons, if_pos rfl, List.append_nil]
  | @escape text after rest c cs h more ih =>
    intro steps done hsteps
    obtain ⟨n, rfl⟩ := Nat.exists_eq_add_one_of_ne_zero (Nat.ne_zero_of_lt hsteps)
    have hlen := length_lt_of_escape h
    rw [stringFrom_cons, if_neg (by decide), if_pos rfl, h]
    rw [List.length_cons] at hsteps
    show stringFrom n (c :: done) none after = _
    rw [ih (c :: done) (by omega), List.reverse_cons, List.append_assoc]; rfl
  | @char text rest c cs hquote hescape hcontrol more ih =>
    intro steps done hsteps
    obtain ⟨n, rfl⟩ := Nat.exists_eq_add_one_of_ne_zero (Nat.ne_zero_of_lt hsteps)
    rw [stringFrom_cons, if_neg hquote, if_neg hescape, if_neg (by rw [hcontrol]; decide),
      ih (c :: done) (Nat.lt_of_succ_lt_succ hsteps), List.reverse_cons, List.append_assoc]; rfl

/-- Once there was a byte that belongs to no character, the string is refused. -/
theorem stringFrom_some_ne_ok :
    ∀ {steps : Nat} {done : List Char} {n : Nat} {text rest : Text} {s : String},
      stringFrom steps done (some n) text ≠ .ok (s, rest)
  | 0, _, _, _, _, _, h => by cases h
  | _ + 1, _, _, [], _, _, h => by cases h
  | steps + 1, done, n, g :: text, rest, s, h => by
    have ih := @stringFrom_some_ne_ok steps
    simp only [stringFrom, Option.map_some, Option.getD_some] at h
    split_ifs at h
    · split at h
      · exact ih h
      · cases h
    · cases h
    · split at h
      · exact ih h
      · exact ih h

theorem quoted_of_stringFrom : ∀ {steps : Nat} {done : List Char} {text rest : Text} {s : String},
    stringFrom steps done none text = .ok (s, rest) →
      ∃ cs, Quoted text cs rest ∧ s = String.ofList (done.reverse ++ cs)
  | 0, _, _, _, _, h => by cases h
  | _ + 1, _, [], _, _, h => by cases h
  | steps + 1, done, .stray b :: text, rest, s, h => absurd h stringFrom_some_ne_ok
  | steps + 1, done, .char c :: text, rest, s, h => by
    rw [stringFrom_cons] at h
    split_ifs at h with hquote hescape hcontrol
    · obtain ⟨rfl, rfl⟩ := Prod.mk.inj (Except.ok.inj h)
      subst hquote
      exact ⟨[], .close _, by rw [List.append_nil]⟩
    · subst hescape
      rcases he : escape text with f | ⟨d, after⟩ <;> rw [he] at h
      · cases h
      · obtain ⟨cs, hcs, rfl⟩ := quoted_of_stringFrom h
        exact ⟨d :: cs, .escape he hcs, by rw [List.reverse_cons, List.append_assoc]; rfl⟩
    · cases h
    · obtain ⟨cs, hcs, rfl⟩ := quoted_of_stringFrom h
      exact ⟨c :: cs, .char hquote hescape (by simpa using hcontrol) hcs,
        by rw [List.reverse_cons, List.append_assoc]; rfl⟩

/-- **A string is read up to its closing quote.** -/
theorem stringBody_eq_ok {s : String} : stringBody text = .ok (s, rest) ↔
    ∃ cs, Quoted text cs rest ∧ s = String.ofList cs := by
  constructor
  · exact quoted_of_stringFrom
  · rintro ⟨cs, hcs, rfl⟩
    exact stringFrom_of_quoted hcs [] (Nat.lt_succ_self _)

namespace Quoted
variable {cs : List Char}

theorem length_lt (h : Quoted text cs rest) : cs.length + rest.length < text.length := by
  induction h with
  | close rest => simp
  | escape h more ih =>
    have := length_lt_of_escape h
    simp only [List.length_cons]; omega
  | char _ _ _ more ih => simp only [List.length_cons]; omega

theorem append (h : Quoted text cs rest) {more : Text} (hmore : Delimited more) :
   Quoted (text ++ more) cs (rest ++ more) := by
  induction h with
  | close rest => exact .close _
  | escape h _ ih => exact .escape ((local_escape h).2 hmore) ih
  | char hquote hescape hcontrol _ ih => exact .char hquote hescape hcontrol ih

theorem skipStringFrom (h : Quoted text cs rest) : ∀ {steps : Nat}, text.length < steps →
     Json.skipStringFrom steps text = .ok rest := by
  induction h with
  | close rest =>
    intro steps hsteps
    obtain ⟨n, rfl⟩ := Nat.exists_eq_add_one_of_ne_zero (Nat.ne_zero_of_lt hsteps)
    rfl
  | @escape text after rest c cs h more ih =>
    intro steps hsteps
    rw [List.length_cons] at hsteps
    obtain ⟨n, rfl⟩ := Nat.exists_eq_add_one_of_ne_zero (Nat.ne_zero_of_lt hsteps)
    have hlen := length_lt_of_escape h
    rw [Json.skipStringFrom, if_neg (by decide), if_pos rfl]
    rcases skipEscape_of_escape h with hskip | ⟨t, ht, hskip, hskip'⟩
    · rw [hskip]
      exact ih (by omega)
    · obtain ⟨m, rfl⟩ := Nat.exists_eq_add_one_of_ne_zero (n := n) (by omega)
      rw [hskip]
      show Json.skipStringFrom (m + 1) (.char '\\' :: t) = _
      rw [Json.skipStringFrom, if_neg (by decide), if_pos rfl, hskip']
      exact ih (by omega)
  | @char text rest c cs hquote hescape hcontrol more ih =>
    intro steps hsteps
    obtain ⟨n, rfl⟩ := Nat.exists_eq_add_one_of_ne_zero (Nat.ne_zero_of_lt hsteps)
    rw [Json.skipStringFrom, if_neg (by simpa using hquote), if_neg (by simpa using hescape),
      if_neg (by rw [hcontrol]; decide)]
    exact ih (Nat.lt_of_succ_lt_succ hsteps)
end Quoted

end Strings

end Artboard.Json
