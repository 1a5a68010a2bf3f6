import Artboard.Proofs.Json.Compact

/-! # The texts of numbers

* `Binary.exists_ofFloat`: the binary form of a finite number.
* `Figured`: texts of the characters of numbers. `Marked`: texts with a point or an exponent.
* `figured_wire`, `marked_wire`: the texts of finite numbers are both.
* `isScalar_of_parse`: a marked text that is read as a number is read up to its end, and never as a
  whole number. -/

namespace Artboard.Number

/-! ### Finite numbers -/

/-- The exponent field of a finite number is not the one of infinities. -/
theorem exponent_ne_of_isFinite {x : Float} (h : x.isFinite = true) :
    x.toBits.toNat / Nat.pow 2 52 % Nat.pow 2 11 ≠ 2047 := by
  intro hexponent
  have hfield : @Float.Model.UnpackedFloat.unpackExponent Float.Model.Format.binary64
      x.toBits.toBitVec = -1#11 := by
    apply BitVec.eq_of_toNat_eq
    have hbits : x.toBits.toNat >>> 52 % 2048 = 2047 := by
      rw [Nat.shiftRight_eq_div_pow]; exact hexponent
    simpa [Float.Model.UnpackedFloat.unpackExponent] using hbits
  have hunpack : x.isFinite =
      (Float.Model.UnpackedFloat.unpack Float.Model.Format.binary64 x.toBits.toBitVec).isFinite :=
    rfl
  rw [hunpack] at h
  delta Float.Model.UnpackedFloat.unpack at h
  dsimp only at h
  rw [if_pos hfield] at h
  split_ifs at h <;> cases h

theorem Binary.exists_ofFloat {x : Float} (h : x.isFinite = true) :
    ∃ negative mantissa exponent, Binary.ofFloat x = .finite negative mantissa exponent := by
  unfold Binary.ofFloat Binary.ofFields
  dsimp only
  rw [if_neg (exponent_ne_of_isFinite h)]
  split_ifs <;> exact ⟨_, _, _, rfl⟩

/-! ### The characters of numbers -/

/-- The characters that the text of a finite number has. -/
def isFigure (c : Char) : Bool := isDigit c || c = '-' || c = '+' || c = '.' || c = 'e'

/-- A text has no other characters. -/
def Figured (s : String) : Prop := ∀ c ∈ s.toList, isFigure c = true

/-- A text has a point or an exponent. -/
def Marked (s : String) : Prop := '.' ∈ s.toList ∨ 'e' ∈ s.toList

instance (s : String) : Decidable (Figured s) :=
  decidable_of_iff (s.toList.all isFigure = true) List.all_eq_true

instance (s : String) : Decidable (Marked s) :=
  inferInstanceAs (Decidable ('.' ∈ s.toList ∨ 'e' ∈ s.toList))

section Texts
variable {s t : String} {digits : List Char}

theorem Figured.append (hs : Figured s) (ht : Figured t) : Figured (s ++ t) := by
  intro c hc
  rw [String.toList_append, List.mem_append] at hc
  exact hc.elim (hs c) (ht c)

theorem Marked.append_left (h : Marked s) (t : String) : Marked (s ++ t) := by
  unfold Marked
  rw [String.toList_append]
  exact h.imp (List.mem_append_left _) (List.mem_append_left _)

theorem Marked.append_right (h : Marked t) (s : String) : Marked (s ++ t) := by
  unfold Marked
  rw [String.toList_append]
  exact h.imp (List.mem_append_right _) (List.mem_append_right _)

theorem figured_ofList (h : ∀ c ∈ digits, isDigit c = true) : Figured (String.ofList digits) := by
  intro c hc
  rw [String.toList_ofList] at hc
  simp [isFigure, h c hc]

theorem figured_zeros (n : Nat) : Figured (zeros n) :=
  figured_ofList fun c hc => by rw [List.eq_of_mem_replicate hc]; decide

/-- A number by its position has the characters of numbers, and a point. -/
theorem setPoint_wire (h : ∀ c ∈ digits, isDigit c = true) (point : Int) :
    Figured (Style.wire.setPoint digits point) ∧ Marked (Style.wire.setPoint digits point) := by
  have hpoint : Figured "0." ∧ Figured "." ∧ Figured Style.wire.whole := by decide
  have hmark : Marked "0." ∧ Marked "." ∧ Marked Style.wire.whole := by decide
  have htake : Figured (String.ofList (digits.take point.toNat)) :=
    figured_ofList fun c hc => h c (List.mem_of_mem_take hc)
  have hdrop : Figured (String.ofList (digits.drop point.toNat)) :=
    figured_ofList fun c hc => h c (List.mem_of_mem_drop hc)
  unfold Style.setPoint
  split_ifs
  · exact ⟨(hpoint.1.append (figured_zeros _)).append (figured_ofList h),
      (hmark.1.append_left _).append_left _⟩
  · exact ⟨((figured_ofList h).append (figured_zeros _)).append hpoint.2.2,
      hmark.2.2.append_right _⟩
  · exact ⟨(htake.append hpoint.2.1).append hdrop, (hmark.2.1.append_right _).append_left _⟩

theorem figured_toString (n : Nat) : Figured (toString n) := by
  have hrepr : toString n = String.ofList (Nat.toDigits 10 n) := Nat.repr_eq_ofList_toDigits
  rw [hrepr]
  exact figured_ofList fun _ => Json.isDigit_of_mem_toDigits

/-- A number with an exponent has the characters of numbers, and the `e`. -/
theorem setExponent_wire (h : ∀ c ∈ digits, isDigit c = true) (exponent : Int) :
    Figured (setExponent digits exponent) ∧ Marked (setExponent digits exponent) := by
  have htake : Figured (String.ofList (digits.take 1)) :=
    figured_ofList fun c hc => h c (List.mem_of_mem_take hc)
  have hdrop : ∀ c ∈ digits.drop 1, isDigit c = true :=
    fun c hc => h c (List.mem_of_mem_drop hc)
  have he : Figured "e" ∧ Marked "e" := by decide
  have hsign : Figured (if exponent < 0 then "-" else "+") := by split_ifs <;> decide
  unfold setExponent
  dsimp only
  generalize digits.drop 1 = more at hdrop ⊢
  refine ⟨((Figured.append (htake.append ?_) he.1).append hsign).append (figured_toString _),
    ((he.2.append_right _).append_left _).append_left _⟩
  cases more with
  | nil => decide
  | cons c cs =>
    have hpoint : Figured "." := by decide
    exact hpoint.append (figured_ofList hdrop)

/-- **The text of a finite number** has the characters of numbers, and a point or an exponent. -/
theorem text_wire {x : Float} (hx : x.isFinite = true) :
    Figured (Style.wire.text x) ∧ Marked (Style.wire.text x) := by
  obtain ⟨negative, mantissa, exponent, hform⟩ := Binary.exists_ofFloat hx
  have hsign : Figured (if negative then "-" else "") := by split_ifs <;> decide
  have hzero : Figured "0" ∧ Figured Style.wire.whole ∧ Marked Style.wire.whole := by decide
  unfold Style.text
  rw [hform]
  dsimp only
  generalize (if negative = true then "-" else "") = sign at hsign ⊢
  split_ifs
  · exact ⟨(hsign.append hzero.1).append hzero.2.1, hzero.2.2.append_right _⟩
  · have hdigits (d : Decimal) : ∀ c ∈ Nat.toDigits 10 d.digits, isDigit c = true :=
      fun _ => Json.isDigit_of_mem_toDigits
    have hdecimal (d : Decimal) :
        Figured (Style.wire.decimal d) ∧ Marked (Style.wire.decimal d) := by
      show Figured (if _ then _ else _) ∧ Marked (if _ then _ else _)
      split_ifs
      · exact setPoint_wire (hdigits d) _
      · exact setExponent_wire (hdigits d) _
    exact ⟨hsign.append (hdecimal _).1, (hdecimal _).2.append_right _⟩

end Texts

end Artboard.Number

namespace Artboard.Json

open Number (isFigure Figured Marked)

/-! ### Texts that are read as numbers -/

section Reading
variable {text rest : Text} {s : String} {x : Float}

theorem digits_eq : ∀ (text : Text) {rest : Text} {cs : List Char}, digits text = (cs, rest) →
    text = cs.map .char ++ rest ∧ ∀ c ∈ cs, Number.isDigit c = true
  | [], _, _, h => by cases h; exact ⟨rfl, List.forall_mem_nil _⟩
  | .stray _ :: _, _, _, h => by cases h; exact ⟨rfl, List.forall_mem_nil _⟩
  | .char c :: text, _, cs, h => by
    rw [digits] at h
    split_ifs at h with hc
    · cases h
      obtain ⟨htext, hcs⟩ := digits_eq text rfl
      exact ⟨congrArg (Glyph.char c :: ·) htext, List.forall_mem_cons.mpr ⟨hc, hcs⟩⟩
    · cases h
      exact ⟨rfl, List.forall_mem_nil _⟩

/-- A number is taken from the front of a text; a whole number has digits only. -/
theorem taken_of_unsignedNumber {negative : Bool} {j : Json}
    (h : unsignedNumber negative text = .ok (j, rest)) : ∃ taken, text = taken ++ rest ∧
      ((∃ n, j = .int n) → ∀ g ∈ taken, ∃ c, g = .char c ∧ Number.isDigit c = true) := by
  obtain ⟨whole, t, fraction, u, exponent, hwhole, hfraction, hexponent, hj, -⟩ :=
    unsignedNumber_cases h
  obtain ⟨htext, hdigits⟩ : text = whole.map .char ++ t ∧ ∀ c ∈ whole, Number.isDigit c = true := by
    rcases wholePart_cases hwhole with ⟨rfl, rfl, -⟩ | ⟨-, -, hdigits⟩
    · exact ⟨rfl, List.forall_mem_singleton.mpr rfl⟩
    · exact digits_eq text hdigits
  obtain ⟨point, ht⟩ : ∃ point, t = point ++ u ∧ (fraction = [] → point = []) := by
    rcases fractionPart_cases hfraction with ⟨t, rfl, hne, hdigits⟩ | ⟨-, -, rfl⟩
    · exact ⟨.char '.' :: fraction.map .char,
        congrArg (Glyph.char '.' :: ·) (digits_eq t hdigits).1, fun h => absurd h hne⟩
    · exact ⟨[], rfl, fun _ => rfl⟩
  obtain ⟨power, hu⟩ : ∃ power, u = power ++ rest ∧ (exponent = none → power = []) := by
    rcases exponentPart_cases hexponent with ⟨c, t, n, rfl, -, rfl, hn⟩ | ⟨-, -, rfl⟩
    · obtain ⟨-, hrest, -⟩ := exponentDigits_eq_ok.mp hn
      obtain ⟨sign, hsign⟩ : ∃ sign, t = sign ++ (exponentSign t).2 := by
        rcases sign_cases t with ⟨t, rfl⟩ | ⟨t, rfl⟩ | ⟨hminus, hplus⟩
        · exact ⟨[.char '-'], rfl⟩
        · exact ⟨[.char '+'], rfl⟩
        · rw [exponentSign_of_ne hminus hplus]
          exact ⟨[], rfl⟩
      have hdigits := (digits_eq (exponentSign t).2 rfl).1
      refine ⟨.char c :: (sign ++ (digits (exponentSign t).2).1.map .char), ?_,
        fun h => absurd h (Option.some_ne_none n)⟩
      rw [List.cons_append, List.append_assoc, ← hrest, ← hdigits, ← hsign]
    · exact ⟨[], rfl, fun _ => rfl⟩
  refine ⟨whole.map .char ++ (point ++ power), ?_, ?_⟩
  · rw [htext, ht.1, hu.1, List.append_assoc, List.append_assoc]
  · rintro ⟨n, hn⟩ g hg
    rw [hn, numeral] at hj
    split_ifs at hj with hwhole
    · rw [ht.2 hwhole.1, hu.2 hwhole.2, List.append_nil, List.append_nil] at hg
      obtain ⟨c, hc, rfl⟩ := List.mem_map.mp hg
      exact ⟨c, rfl, hdigits c hc⟩

/-- A number is taken from the front of a text, behind its sign. -/
theorem IsScalar.taken {j : Json} (h : IsScalar text j rest)
    (hj : (∃ n, j = .int n) ∨ j = .float x) : ∃ taken, text = taken ++ rest ∧
      ((∃ n, j = .int n) → ∀ g ∈ taken, g = .char '-' ∨ ∃ c, g = .char c ∧ Number.isDigit c) := by
  cases h with
  | minus h =>
    obtain ⟨taken, rfl, hdigits⟩ := taken_of_unsignedNumber h
    exact ⟨.char '-' :: taken, rfl, fun hn => List.forall_mem_cons.mpr
      ⟨.inl rfl, fun g hg => .inr (hdigits hn g hg)⟩⟩
  | number _ h =>
    obtain ⟨taken, htext, hdigits⟩ := taken_of_unsignedNumber h
    exact ⟨taken, htext, fun hn g hg => .inr (hdigits hn g hg)⟩
  | _ => rcases hj with ⟨_, hj⟩ | hj <;> cases hj

theorem mem_ofString {g : Glyph} : g ∈ Text.ofString s ↔ ∃ c ∈ s.toList, g = .char c := by
  rw [Text.ofString, List.mem_map]
  exact exists_congr fun c => and_congr_right fun _ => eq_comm

/-- The characters of numbers are no blanks. -/
theorem isBlank_of_isFigure {c : Char} (h : isFigure c = true) :
    Text.isBlank (.char c) = false := by
  have hne {d : Char} (hd : isFigure d = false) : c ≠ d := by
    rintro rfl
    rw [hd] at h
    cases h
  have hblank : c ≠ ' ' ∧ c ≠ '\n' ∧ c ≠ '\t' ∧ c ≠ '\r' :=
    ⟨hne (by decide), hne (by decide), hne (by decide), hne (by decide)⟩
  simp [Text.isBlank, hblank]

theorem skipBlank_of_figures (h : ∀ g ∈ text, Text.isBlank g = false) : text.skipBlank = text := by
  cases text with
  | nil => rfl
  | cons g text => exact List.dropWhile_cons_of_neg (by simp [h g List.mem_cons_self])

theorem exists_of_scalarAs {α : Type} {expected : String} {accept : Json → Except Mismatch α}
    {a : α} (h : scalarAs expected accept text = .ok (a, rest)) :
    ∃ j, IsScalar text.skipBlank j rest ∧ accept j = .ok a := by
  unfold scalarAs at h
  split at h
  · cases h
  · cases h
  · cases hj : Json.scalar text.skipBlank with
    | error f => rw [hj] at h; cases h
    | ok r =>
      obtain ⟨j, t⟩ := r
      simp only [hj] at h
      cases ha : accept j with
      | error m => rw [ha] at h; cases h
      | ok b =>
        rw [ha] at h
        cases h
        exact ⟨j, scalar_eq_ok.mp hj, ha⟩

/-- **A text that is no whole number and is read as a number** is read up to its end. -/
theorem isScalar_of_parse (hs : Figured s) (hm : Marked s)
    (h : Decoder.number.parse (Text.ofString s) = .ok x) :
    IsScalar (Text.ofString s) (.float x) [] := by
  have hblank : ∀ g ∈ Text.ofString s, Text.isBlank g = false := fun g hg => by
    obtain ⟨c, hc, rfl⟩ := mem_ofString.mp hg
    exact isBlank_of_isFigure (hs c hc)
  obtain ⟨rest, hread, hrest⟩ := complete_eq_ok.mp h
  obtain ⟨j, hj, haccept⟩ := exists_of_scalarAs hread
  rw [skipBlank_of_figures hblank] at hj
  have hnumber : (∃ n, j = .int n) ∨ j = .float x := by
    cases j with
    | int n => exact .inl ⟨n, rfl⟩
    | float y => cases haccept; exact .inr rfl
    | _ => cases haccept
  obtain ⟨taken, htext, hwhole⟩ := hj.taken hnumber
  have hnil : rest = [] := by
    rw [skipBlank_of_figures fun g hg => hblank g (by rw [htext]; simp [hg])] at hrest
    exact hrest
  rw [hnil, List.append_nil] at htext
  rw [hnil] at hj
  refine hnumber.elim (fun hn => ?_) fun heq => heq ▸ hj
  -- a point or an exponent stands in the text, and a whole number has neither
  have hmark (c : Char) (hc : c ∈ s.toList) (hdigit : Number.isDigit c = false) (hne : c ≠ '-') :
      False := by
    rcases hwhole hn (.char c) (htext ▸ mem_ofString.mpr ⟨c, hc, rfl⟩) with heq | ⟨d, heq, hd⟩
    · cases heq; exact hne rfl
    · cases heq; rw [hdigit] at hd; cases hd
  rcases hm with hc | hc
  · exact (hmark '.' hc (by decide) (by decide)).elim
  · exact (hmark 'e' hc (by decide) (by decide)).elim

end Reading

end Artboard.Json

namespace Artboard.Number

/-- **A finite number that is read from its text.** -/
structure Restored (x : Float) : Prop where
  finite : x.isFinite = true
  read : Json.Decoder.number.parse (Json.Text.ofString (Style.wire.text x)) = .ok x

instance (x : Float) : Decidable (Restored x) :=
  decidable_of_iff (x.isFinite = true ∧
    Json.Decoder.number.parse (Json.Text.ofString (Style.wire.text x)) = .ok x)
    ⟨fun ⟨hfinite, hread⟩ => ⟨hfinite, hread⟩, fun ⟨hfinite, hread⟩ => ⟨hfinite, hread⟩⟩

theorem Restored.isScalar {x : Float} (h : Restored x) :
    Json.IsScalar (Json.Text.ofString (Style.wire.text x)) (.float x) [] :=
  Json.isScalar_of_parse (text_wire h.finite).1 (text_wire h.finite).2 h.read

end Artboard.Number
