import Artboard.Proofs.Json.Strings

/-! # Numbers in a text

A number is read up to the first glyph that does not belong to it, and is passed over up to the same
place. -/

namespace Artboard.Json

section Numbers
variable {text rest more : Text}

theorem digits_of_digitAt? (h : digitAt? text = none) : digits text = ([], text) := by
  match text with
  | [] => rfl
  | .stray b :: text => rfl
  | .char c :: text =>
    have hc : ¬ Number.isDigit c = true := fun hc => by simp [digitAt?, hc] at h
    rw [digits, if_neg hc]

theorem digitAt?_of_delimited (h : Delimited text) : digitAt? text = none := by
  match text with
  | [] => rfl
  | .stray b :: text => rfl
  | .char c :: text =>
    rw [digitAt?, if_neg (by rw [(h c text rfl).1]; decide)]

theorem length_digits : ∀ text : Text, (digits text).1.length + (digits text).2.length = text.length
  | [] => rfl
  | .stray b :: text => Nat.zero_add _
  | .char c :: text => by
    rw [digits]
    split_ifs
    · have := length_digits text
      simp only [List.length_cons]; omega
    · exact Nat.zero_add _

theorem digits_append (h : Delimited more) : ∀ text : Text,
    digits (text ++ more) = ((digits text).1, (digits text).2 ++ more)
  | [] => digits_of_digitAt? (digitAt?_of_delimited h)
  | .stray b :: text => rfl
  | .char c :: text => by
    rw [List.cons_append, digits, digits, digits_append h text]
    split_ifs <;> rfl

theorem digitAt?_append (h : Delimited more) :
    ∀ text : Text, digitAt? (text ++ more) = digitAt? text
  | [] => digitAt?_of_delimited h
  | .stray _ :: _ => rfl
  | .char _ :: _ => rfl

theorem pastLimit_append (h : Delimited more) : ∀ (text : Text) (n : Nat),
    pastLimit n (text ++ more) = (pastLimit n text).map (· ++ more)
  | [], n => by
    match more, h with
    | [], _ => rfl
    | .stray b :: more, _ => rfl
    | .char c :: more, h =>
      have hc : Number.digit? c = none := by simpa [Number.isDigit] using (h c more rfl).1
      rw [List.nil_append, pastLimit, hc]; rfl
  | .stray b :: text, n => rfl
  | .char c :: text, n => by
    rw [List.cons_append, pastLimit, pastLimit]
    cases Number.digit? c with
    | none => rfl
    | some d =>
      dsimp only
      split_ifs
      · rfl
      · exact pastLimit_append h text _

/-- The digits before point and exponent are at least one. -/
theorem wholePart_cases {cs : List Char} (h : wholePart text = .ok (cs, rest)) :
    (text = .char '0' :: rest ∧ cs = ['0'] ∧ digitAt? rest = none) ∨
      ((∀ t, text ≠ .char '0' :: t) ∧ cs ≠ [] ∧ digits text = (cs, rest)) := by
  unfold wholePart at h
  split at h
  · cases h
  · split_ifs at h with hd
    · cases h
    · cases h
      exact .inl ⟨rfl, rfl, by simpa using hd⟩
  · rename_i hzero
    split at h
    · cases h
    · rename_i hdigits
      refine .inr ⟨fun t => hzero t, ?_, ?_⟩
      · rintro rfl
        exact hdigits _ (Except.ok.inj h)
      · exact Except.ok.inj h

theorem wholePart_of_digits {cs : List Char} (hzero : ∀ t, text ≠ .char '0' :: t) (hcs : cs ≠ [])
    (h : digits text = (cs, rest)) : wholePart text = .ok (cs, rest) := by
  unfold wholePart
  split
  · cases h; exact absurd rfl hcs
  · exact absurd rfl (hzero _)
  · rw [h]
    split
    · rename_i heq; cases heq; exact absurd rfl hcs
    · rfl

theorem ne_nil_of_digits {cs : List Char} (hcs : cs ≠ []) (h : digits text = (cs, rest)) :
    text ≠ [] := by
  rintro rfl; cases h; exact hcs rfl

theorem local_wholePart : Local wholePart := by
  intro text rest cs h
  rcases wholePart_cases h with ⟨rfl, rfl, hd⟩ | ⟨hzero, hcs, hdigits⟩
  · refine ⟨Nat.le_succ _, fun {more} hmore => ?_⟩
    rw [List.cons_append, wholePart, digitAt?_append hmore, hd]; rfl
  · have hlen := length_digits text
    rw [hdigits] at hlen
    refine ⟨by simp only at hlen; omega, fun {more} hmore => ?_⟩
    have hne := ne_nil_of_digits hcs hdigits
    refine wholePart_of_digits (fun t ht => ?_) hcs (by rw [digits_append hmore, hdigits])
    obtain ⟨g, u, rfl⟩ := List.exists_cons_of_ne_nil hne
    obtain ⟨rfl, -⟩ := List.cons.inj ht
    exact hzero u rfl

theorem length_lt_of_wholePart {cs : List Char} (h : wholePart text = .ok (cs, rest)) :
    rest.length < text.length := by
  rcases wholePart_cases h with ⟨rfl, -, -⟩ | ⟨-, hcs, hdigits⟩
  · exact Nat.lt_succ_self _
  · have hlen := length_digits text
    have hpos := List.length_pos_iff.mpr hcs
    rw [hdigits] at hlen
    simp only at hlen; omega

theorem skipWhole_of_wholePart {cs : List Char} (h : wholePart text = .ok (cs, rest)) :
    skipWhole text = .ok rest := by
  rcases wholePart_cases h with ⟨rfl, -, hd⟩ | ⟨hzero, hcs, hdigits⟩
  · rw [skipWhole, hd]; rfl
  · unfold skipWhole
    split
    · exact absurd rfl (hzero _)
    · rw [hdigits]
      split
      · rename_i heq; cases heq; exact absurd rfl hcs
      · rename_i heq; cases heq; rfl

theorem fractionPart_cases {cs : List Char} (h : fractionPart text = .ok (cs, rest)) :
    (∃ t, text = .char '.' :: t ∧ cs ≠ [] ∧ digits t = (cs, rest)) ∨
      ((∀ t, text ≠ .char '.' :: t) ∧ cs = [] ∧ rest = text) := by
  unfold fractionPart at h
  split at h
  · split at h
    · cases h
    · cases h
    · rename_i t _ _ hdigits
      refine .inl ⟨t, rfl, ?_, Except.ok.inj h⟩
      rintro rfl
      exact hdigits _ (Except.ok.inj h)
  · rename_i hpoint
    cases h
    exact .inr ⟨fun t => hpoint t, rfl, rfl⟩

theorem fractionPart_of_digits {cs : List Char} (hcs : cs ≠ []) (h : digits text = (cs, rest)) :
    fractionPart (.char '.' :: text) = .ok (cs, rest) := by
  simp only [fractionPart]
  rw [h]
  split
  · rename_i heq; cases heq; exact absurd rfl hcs
  · rename_i heq; cases heq; exact absurd rfl hcs
  · rfl

theorem fractionPart_of_ne (h : ∀ t, text ≠ .char '.' :: t) :
    fractionPart text = .ok ([], text) := by
  unfold fractionPart
  split
  · exact absurd rfl (h _)
  · rfl

theorem local_fractionPart : Local fractionPart := by
  intro text rest cs h
  rcases fractionPart_cases h with ⟨t, rfl, hcs, hdigits⟩ | ⟨hpoint, rfl, rfl⟩
  · have hlen := length_digits t
    rw [hdigits] at hlen
    refine ⟨by simp only [List.length_cons] at hlen ⊢; omega, fun {more} hmore => ?_⟩
    show fractionPart (.char '.' :: (t ++ more)) = _
    exact fractionPart_of_digits hcs (by rw [digits_append hmore, hdigits])
  · refine ⟨Nat.le_refl _, fun {more} hmore => fractionPart_of_ne fun t ht => ?_⟩
    cases rest with
    | nil => exact (hmore _ _ ht).2.1 rfl
    | cons g u =>
      obtain ⟨rfl, -⟩ := List.cons.inj ht
      exact hpoint u rfl

theorem skipFraction_of_fractionPart {cs : List Char} (h : fractionPart text = .ok (cs, rest)) :
    skipFraction text = .ok rest := by
  rcases fractionPart_cases h with ⟨t, rfl, hcs, hdigits⟩ | ⟨hpoint, rfl, rfl⟩
  · simp only [skipFraction]
    rw [hdigits]
    split
    · rename_i heq; cases heq; exact absurd rfl hcs
    · rename_i heq; cases heq; rfl
  · unfold skipFraction
    split
    · exact absurd rfl (hpoint _)
    · rfl

theorem exponentDigits_eq_ok {negative zero : Bool} {e : Int} :
    exponentDigits negative zero text = .ok (e, rest) ↔
      (digits text).1 ≠ [] ∧ (digits text).2 = rest ∧
        match pastLimit 0 text with
        | some _ => (zero || negative) = true ∧ e = if negative then -(exponentLimit : Int) else 0
        | none => e = if negative then -(Number.ofDigits 0 (digits text).1 : Int)
            else Number.ofDigits 0 (digits text).1 := by
  unfold exponentDigits
  split
  · simp only [failAt, reduceCtorEq, false_iff]
    exact fun h => h.1 rfl
  · rename_i hdigits
    rw [hdigits]
    simp [failOn]
  · rename_i t _ _ cs rest' hcs hne hdigits
    rw [hdigits]
    cases pastLimit 0 t with
    | none =>
      simp only [Except.ok.injEq, Prod.mk.injEq]
      exact ⟨fun ⟨h, h'⟩ => ⟨hcs, h', h.symm⟩, fun ⟨_, h, h'⟩ => ⟨h'.symm, h⟩⟩
    | some past =>
      have hcs : ¬ cs = [] := hcs
      cases zero <;> cases negative <;> simp [failAt, hcs, eq_comm, and_comm]

theorem local_exponentDigits (negative zero : Bool) : Local (exponentDigits negative zero) := by
  intro text rest e h
  obtain ⟨hcs, rfl, he⟩ := exponentDigits_eq_ok.mp h
  refine ⟨by have := length_digits text; omega, fun {more} hmore => ?_⟩
  rw [exponentDigits_eq_ok, digits_append hmore, pastLimit_append hmore]
  refine ⟨hcs, rfl, ?_⟩
  cases hp : pastLimit 0 text <;> rw [hp] at he <;> exact he

/-- The sign in front of an exponent, if there is one, and the rest. -/
def exponentSign : Text → Bool × Text
  | .char '-' :: rest => (true, rest)
  | .char '+' :: rest => (false, rest)
  | rest => (false, rest)

theorem exponentSign_of_ne (hminus : ∀ t, text ≠ .char '-' :: t)
    (hplus : ∀ t, text ≠ .char '+' :: t) : exponentSign text = (false, text) := by
  unfold exponentSign
  split
  · exact absurd rfl (hminus _)
  · exact absurd rfl (hplus _)
  · rfl

theorem sign_cases (text : Text) : (∃ t, text = .char '-' :: t) ∨ (∃ t, text = .char '+' :: t) ∨
    (∀ t, text ≠ .char '-' :: t) ∧ ∀ t, text ≠ .char '+' :: t := by
  by_cases hminus : ∃ t, text = .char '-' :: t
  · exact .inl hminus
  · by_cases hplus : ∃ t, text = .char '+' :: t
    · exact .inr (.inl hplus)
    · exact .inr (.inr ⟨not_exists.mp hminus, not_exists.mp hplus⟩)

theorem exponentPart_char (zero : Bool) (c : Char) (text : Text) :
    exponentPart zero (.char c :: text) =
      if c = 'e' ∨ c = 'E' then
        (exponentDigits (exponentSign text).1 zero (exponentSign text).2).map
          fun r => (some r.1, r.2)
      else .ok (none, .char c :: text) := by
  have hmap (r : Except Failure (Int × Text)) :
      (r >>= fun r => pure (some r.1, r.2)) = r.map fun r => (some r.1, r.2) := by
    cases r <;> rfl
  unfold exponentPart
  show (if _ then _ else _) = _
  split_ifs
  · rw [← hmap]
    rcases sign_cases text with ⟨t, rfl⟩ | ⟨t, rfl⟩ | ⟨hminus, hplus⟩
    · rfl
    · rfl
    · rw [exponentSign_of_ne hminus hplus]
      split
      rename_i heq
      split at heq
      · exact absurd rfl (hminus _)
      · exact absurd rfl (hplus _)
      · cases heq; rfl
  · rfl

theorem skipExponent_char {c : Char} (hc : c = 'e' ∨ c = 'E') (text : Text)
    (h : (digits (exponentSign text).2).1 ≠ []) :
    skipExponent (.char c :: text) = .ok (digits (exponentSign text).2).2 := by
  obtain ⟨d, ds, hds⟩ := List.exists_cons_of_ne_nil h
  have hdigits : digits (exponentSign text).2 = (d :: ds, (digits (exponentSign text).2).2) :=
    Prod.ext hds rfl
  generalize (digits (exponentSign text).2).2 = rest at hdigits ⊢
  rcases sign_cases text with ⟨t, rfl⟩ | ⟨t, rfl⟩ | ⟨hminus, hplus⟩
  · have hdigits : digits t = (d :: ds, rest) := hdigits
    rw [skipExponent, if_pos hc]
    dsimp only
    rw [hdigits]
  · have hdigits : digits t = (d :: ds, rest) := hdigits
    rw [skipExponent, if_pos hc]
    dsimp only
    rw [hdigits]
  · rw [exponentSign_of_ne hminus hplus] at hdigits
    rw [skipExponent, if_pos hc]
    · dsimp only
      rw [hdigits]
    · exact hminus
    · exact hplus

theorem length_exponentSign_le (text : Text) : (exponentSign text).2.length ≤ text.length := by
  unfold exponentSign
  split <;> simp

theorem exponentSign_append (h : text ≠ []) : exponentSign (text ++ more) =
    ((exponentSign text).1, (exponentSign text).2 ++ more) := by
  obtain ⟨g, u, rfl⟩ := List.exists_cons_of_ne_nil h
  rcases sign_cases (g :: u) with ⟨t, ht⟩ | ⟨t, ht⟩ | ⟨hminus, hplus⟩
  · rw [ht]; rfl
  · rw [ht]; rfl
  · rw [exponentSign_of_ne hminus hplus, exponentSign_of_ne]
    · rintro t ht
      obtain ⟨rfl, -⟩ := List.cons.inj ht
      exact hminus u rfl
    · rintro t ht
      obtain ⟨rfl, -⟩ := List.cons.inj ht
      exact hplus u rfl

/-- A number goes on with an exponent, or not. -/
theorem exponentPart_cases {zero : Bool} {e : Option Int}
    (h : exponentPart zero text = .ok (e, rest)) :
    (∃ c t n, text = .char c :: t ∧ (c = 'e' ∨ c = 'E') ∧ e = some n ∧
      exponentDigits (exponentSign t).1 zero (exponentSign t).2 = .ok (n, rest)) ∨
    ((∀ c t, text = .char c :: t → ¬ (c = 'e' ∨ c = 'E')) ∧ e = none ∧ rest = text) := by
  match text with
  | [] => cases h; exact .inr ⟨fun _ _ h => (by cases h), rfl, rfl⟩
  | .stray b :: text => cases h; exact .inr ⟨fun _ _ h => (by cases h), rfl, rfl⟩
  | .char c :: text =>
    rw [exponentPart_char] at h
    split_ifs at h with hc
    · cases hn : exponentDigits (exponentSign text).1 zero (exponentSign text).2 with
      | error f => rw [hn] at h; cases h
      | ok r => rw [hn] at h; cases h; exact .inl ⟨c, text, r.1, rfl, hc, rfl, hn⟩
    · cases h
      exact .inr ⟨fun _ _ heq => by cases heq; exact hc, rfl, rfl⟩

theorem exponentPart_of_ne (zero : Bool) (h : ∀ c t, text = .char c :: t → ¬ (c = 'e' ∨ c = 'E')) :
    exponentPart zero text = .ok (none, text) := by
  match text with
  | [] => rfl
  | .stray b :: text => rfl
  | .char c :: text => rw [exponentPart_char, if_neg (h c text rfl)]

theorem local_exponentPart (zero : Bool) : Local (exponentPart zero) := by
  intro text rest e h
  rcases exponentPart_cases h with ⟨c, t, n, rfl, hc, rfl, hn⟩ | ⟨hne, rfl, rfl⟩
  · obtain ⟨hlen, happend⟩ := local_exponentDigits _ zero hn
    have hsign := length_exponentSign_le t
    have ht : t ≠ [] := by
      rintro rfl
      exact (exponentDigits_eq_ok.mp hn).1 rfl
    refine ⟨by rw [List.length_cons]; omega, fun {more} hmore => ?_⟩
    rw [List.cons_append, exponentPart_char, if_pos hc, exponentSign_append ht, happend hmore]
    rfl
  · refine ⟨Nat.le_refl _, fun {more} hmore => exponentPart_of_ne zero fun c t ht => ?_⟩
    cases rest with
    | nil => exact fun hc => hc.elim (hmore c t ht).2.2.1 (hmore c t ht).2.2.2
    | cons g u =>
      obtain ⟨rfl, -⟩ := List.cons.inj ht
      exact hne c u rfl

theorem skipExponent_of_exponentPart {zero : Bool} {e : Option Int}
    (h : exponentPart zero text = .ok (e, rest)) : skipExponent text = .ok rest := by
  rcases exponentPart_cases h with ⟨c, t, n, rfl, hc, rfl, hn⟩ | ⟨hne, rfl, rfl⟩
  · obtain ⟨hcs, rfl, -⟩ := exponentDigits_eq_ok.mp hn
    exact skipExponent_char hc t hcs
  · match rest with
    | [] => rfl
    | .stray b :: rest => rfl
    | .char c :: rest =>
      unfold skipExponent
      exact if_neg (hne c rest rfl)

/-- A number that was read up to here, if it is finite. -/
def ifFinite (j : Json) (rest : Text) : Except Failure (Json × Text) :=
  match j with
  | .float x => if x.isFinite then .ok (j, rest) else failAt .numberOutOfRange rest
  | _ => .ok (j, rest)

theorem ifFinite_eq_ok {i j : Json} {u : Text} (h : ifFinite j u = .ok (i, rest)) :
    rest = u ∧ i = j ∧ ∀ t, ifFinite j t = .ok (j, t) := by
  unfold ifFinite at h ⊢
  cases j with
  | float x =>
    dsimp only at h ⊢
    split_ifs at h ⊢ with hx
    · cases h; exact ⟨rfl, rfl, fun _ => rfl⟩
    · cases h
  | _ => cases h; exact ⟨rfl, rfl, fun _ => rfl⟩

/-- The tree of a number with these digits and this exponent. -/
def numeral (negative : Bool) (whole fraction : List Char) (exponent : Option Int) : Json :=
  let d := Number.cut whole fraction
  if fraction = [] ∧ exponent = none then ofWhole negative whole
  else .float (Number.scaled negative ⟨d.digits, d.exponent + exponent.getD 0⟩)

/-- A number is its whole part, its fraction and its exponent. -/
theorem unsignedNumber_eq (negative : Bool) (text : Text) : unsignedNumber negative text =
    (wholePart text).bind fun (whole, t) => (fractionPart t).bind fun (fraction, u) =>
      (exponentPart ((Number.cut whole fraction).digits = 0) u).bind fun (exponent, rest) =>
        ifFinite (numeral negative whole fraction exponent) rest := rfl

theorem unsignedNumber_cases {negative : Bool} {j : Json}
    (h : unsignedNumber negative text = .ok (j, rest)) :
    ∃ whole t fraction u exponent, wholePart text = .ok (whole, t) ∧
      fractionPart t = .ok (fraction, u) ∧
        exponentPart ((Number.cut whole fraction).digits = 0) u = .ok (exponent, rest) ∧
          j = numeral negative whole fraction exponent ∧ ∀ t, ifFinite j t = .ok (j, t) := by
  rw [unsignedNumber_eq] at h
  cases hw : wholePart text with
  | error f => rw [hw] at h; cases h
  | ok r =>
    obtain ⟨whole, t⟩ := r
    cases hf : fractionPart t with
    | error f => simp only [hw, hf, Except.bind] at h; cases h
    | ok r =>
      obtain ⟨fraction, u⟩ := r
      cases he : exponentPart (decide ((Number.cut whole fraction).digits = 0)) u with
      | error f => simp only [hw, hf, he, Except.bind] at h; cases h
      | ok r =>
        obtain ⟨exponent, v⟩ := r
        simp only [hw, hf, he, Except.bind] at h
        obtain ⟨rfl, rfl, hfinite⟩ := ifFinite_eq_ok h
        exact ⟨whole, t, fraction, u, exponent, rfl, hf, he, rfl, hfinite⟩

theorem local_unsignedNumber (negative : Bool) : Local (unsignedNumber negative) := by
  intro text rest j h
  obtain ⟨whole, t, fraction, u, exponent, hw, hf, he, rfl, hfinite⟩ := unsignedNumber_cases h
  obtain ⟨htext, hw⟩ := local_wholePart hw
  obtain ⟨ht, hf⟩ := local_fractionPart hf
  obtain ⟨hu, he⟩ := local_exponentPart _ he
  refine ⟨(hu.trans ht).trans htext, fun {more} hmore => ?_⟩
  simp only [unsignedNumber_eq, hw hmore, hf hmore, he hmore, Except.bind, hfinite]

theorem length_lt_of_unsignedNumber {negative : Bool} {j : Json}
    (h : unsignedNumber negative text = .ok (j, rest)) : rest.length < text.length := by
  obtain ⟨whole, t, fraction, u, exponent, hw, hf, he, -, -⟩ := unsignedNumber_cases h
  exact ((local_exponentPart _ he).1.trans (local_fractionPart hf).1).trans_lt
    (length_lt_of_wholePart hw)

theorem skipNumber_of_unsignedNumber {negative : Bool} {j : Json}
    (h : unsignedNumber negative text = .ok (j, rest)) : skipNumber text = .ok rest := by
  obtain ⟨whole, t, fraction, u, exponent, hw, hf, he, -, -⟩ := unsignedNumber_cases h
  simp only [skipNumber, skipWhole_of_wholePart hw, skipFraction_of_fractionPart hf,
    skipExponent_of_exponentPart he, bind, Except.bind]

theorem numeral_cases (negative : Bool) (whole fraction : List Char) (exponent : Option Int) :
    (∃ n, numeral negative whole fraction exponent = .int n) ∨
      ∃ x, numeral negative whole fraction exponent = .float x := by
  unfold numeral ofWhole
  dsimp only
  split_ifs <;> simp

/-- A number is whole, or a `float`. -/
theorem unsignedNumber_isNumber {negative : Bool} {j : Json}
    (h : unsignedNumber negative text = .ok (j, rest)) : (∃ n, j = .int n) ∨ ∃ x, j = .float x := by
  obtain ⟨_, _, _, _, _, -, -, -, rfl, -⟩ := unsignedNumber_cases h
  exact numeral_cases ..

end Numbers

end Artboard.Json
