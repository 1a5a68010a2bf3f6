import Artboard.Json.Writer
import Artboard.Proofs.Json.Reading

/-! # Reading what was written

The compact text of a tree is read as this tree.

* `quoted_escaped`: escaped characters stand for the characters.
* `unsignedNumber_toDigits`: the decimal digits of a number are read as the number.
* `Json.Legible`: trees whose numbers are read as they were written, with few enough brackets inside
  one another.
* `written_compact`: the text of a legible tree is read as the tree, whatever follows it.
* `complete_written_compact`: the same for a whole text. -/

namespace Artboard.Json

theorem Text.ofString_singleton (c : Char) : Text.ofString c.toString = [.char c] := by
  simp [Text.ofString]

/-! ### Strings -/

section Strings
variable {text rest more : Text} {cs : List Char}

theorem fourDigits?_hex4 : ∀ n < 0x20, fourDigits? (Text.ofString (hex4 n)) = some (n, []) := by
  decide +kernel

/-- The four digits of a control character stand for it. -/
theorem escape_hex4 {c : Char} (hc : c.toNat < 0x20) (more : Text) :
    escape (.char 'u' :: (Text.ofString (hex4 c.toNat) ++ more)) = .ok (c, more) := by
  obtain ⟨a, b, d, e, htext, hmore⟩ := fourDigits?_eq_some (fourDigits?_hex4 c.toNat hc)
  have hunit : codeUnit (Text.ofString (hex4 c.toNat) ++ more) = .ok (c.toNat, more) := by
    rw [htext]
    exact codeUnit_eq_ok.mpr (hmore more)
  show codePoint _ = _
  rw [codePoint, hunit]
  simp only [bind, Except.bind]
  rw [if_neg (by omega), if_neg (by omega), Char.ofNat_toNat]

/-- A character is read from what was written for it. -/
theorem quoted_escapeChar (c : Char) (h : Quoted text cs rest) :
    Quoted (Text.ofString (escapeChar c) ++ text) (c :: cs) rest := by
  have hescape {g c : Char} (hg : escape (.char g :: text) = .ok (c, text)) :
      Quoted (.char '\\' :: .char g :: text) (c :: cs) rest := .escape hg h
  unfold escapeChar
  split_ifs with h1 h2 h3 h4 h5 h6 h7 hcontrol
  · subst h1; exact hescape rfl
  · subst h2; exact hescape rfl
  · subst h3; exact hescape rfl
  · subst h4; exact hescape rfl
  · subst h5; exact hescape rfl
  · subst h6; exact hescape rfl
  · subst h7; exact hescape rfl
  · have hu : Text.ofString "\\u" = [.char '\\', .char 'u'] := rfl
    rw [Text.ofString_append, List.append_assoc, hu, List.cons_append, List.cons_append,
      List.nil_append]
    exact .escape (escape_hex4 hcontrol text) h
  · rw [Text.ofString_singleton]
    exact .char h1 h2 (by simpa [isControl] using hcontrol) h

/-- **Escaped characters stand for the characters.** -/
theorem quoted_escaped (more : Text) : ∀ cs : List Char,
    Quoted (Text.ofString (String.join (cs.map escapeChar)) ++ .char '"' :: more) cs more
  | [] => .close more
  | c :: cs => by
    rw [List.map_cons, String.join_cons, Text.ofString_append, List.append_assoc]
    exact quoted_escapeChar c (quoted_escaped more cs)

/-- What follows the opening quote of a string that was written. -/
def afterQuote (s : String) (more : Text) : Text :=
  Text.ofString (String.join (s.toList.map escapeChar)) ++ .char '"' :: more

theorem ofString_writeString (s : String) (more : Text) :
    Text.ofString (writeString s) ++ more = .char '"' :: afterQuote s more := by
  rw [writeString, Text.ofString_append, Text.ofString_append, List.append_assoc, List.append_assoc]
  rfl

theorem stringBody_afterQuote (s : String) (more : Text) :
    stringBody (afterQuote s more) = .ok (s, more) :=
  stringBody_eq_ok.mpr ⟨s.toList, quoted_escaped more _, String.ofList_toList.symm⟩

theorem isScalar_writeString (s : String) (more : Text) :
    IsScalar (Text.ofString (writeString s) ++ more) (.string s) more := by
  have h : IsScalar (.char '"' :: afterQuote s more) (.string (String.ofList s.toList)) more :=
    .string (quoted_escaped more _)
  rwa [← ofString_writeString, String.ofList_toList] at h

end Strings

/-! ### Whole numbers -/

section Numbers
variable {more : Text} {n : Nat} {cs : List Char} {c : Char}

theorem isDigit_eq (c : Char) : Number.isDigit c = c.isDigit := by
  unfold Number.isDigit Number.digit? Char.isDigit
  split_ifs with h
  · simpa [Char.le_def] using h
  · simpa [Char.le_def] using h

theorem digits_ofDigits : ∀ {cs : List Char}, (∀ c ∈ cs, Number.isDigit c = true) →
    digits (cs.map .char) = (cs, [])
  | [], _ => rfl
  | c :: cs, h => by
    obtain ⟨hc, hcs⟩ := List.forall_mem_cons.mp h
    rw [List.map_cons, digits, if_pos hc, digits_ofDigits hcs]

theorem ofDigits_eq (h : ∀ c ∈ cs, Number.isDigit c = true) (n : Nat) :
    Number.ofDigits n cs = Nat.ofDigitChars 10 cs n := by
  rw [Nat.ofDigitChars_eq_foldl, Number.ofDigits]
  refine List.foldl_ext _ _ _ fun m c hc => ?_
  have hdigit := h c hc
  unfold Number.isDigit at hdigit
  unfold Number.digit? at hdigit ⊢
  split_ifs at hdigit ⊢
  · rfl
  · cases hdigit

theorem isDigit_of_mem_toDigits (hc : c ∈ Nat.toDigits 10 n) : Number.isDigit c = true := by
  rw [isDigit_eq]; exact Nat.isDigit_of_mem_toDigits (by decide) (by decide) hc

theorem ofDigits_toDigits (n : Nat) : Number.ofDigits 0 (Nat.toDigits 10 n) = n := by
  rw [ofDigits_eq fun _ => isDigit_of_mem_toDigits, Nat.ofDigitChars_ten_toDigits]

/-- Only zero begins with a zero. -/
theorem head_toDigits : ∀ {n : Nat}, 0 < n → ∀ {cs : List Char}, Nat.toDigits 10 n ≠ '0' :: cs
  | n, hn, cs, h => by
    rw [Nat.toDigits_eq_if (by decide)] at h
    split_ifs at h with hlt
    · have hdigit : ∀ n < 10, 0 < n → n.digitChar ≠ '0' := by decide
      exact hdigit n hlt hn (List.cons.inj h).1
    · cases hcs : Nat.toDigits 10 (n / 10) with
      | nil => exact Nat.toDigits_ne_nil hcs
      | cons d ds =>
        rw [hcs] at h
        cases (List.cons.inj h).1
        exact head_toDigits (Nat.div_pos (by omega) (by decide)) hcs

theorem wholePart_toDigits (n : Nat) (hmore : Delimited more) :
    wholePart ((Nat.toDigits 10 n).map .char ++ more) = .ok (Nat.toDigits 10 n, more) := by
  rcases Nat.eq_zero_or_pos n with rfl | hn
  · rw [Nat.toDigits_zero]
    show wholePart (.char '0' :: more) = _
    rw [wholePart, digitAt?_of_delimited hmore]; rfl
  · refine wholePart_of_digits (fun t ht => ?_) Nat.toDigits_ne_nil ?_
    · cases hcs : Nat.toDigits 10 n with
      | nil => exact Nat.toDigits_ne_nil hcs
      | cons c cs =>
        rw [hcs] at ht
        cases (List.cons.inj ht).1
        exact head_toDigits hn hcs
    · rw [digits_append hmore, digits_ofDigits fun _ => isDigit_of_mem_toDigits]; rfl

/-- **The digits of a number are read as a whole number.** -/
theorem unsignedNumber_toDigits (negative : Bool) (n : Nat) (hmore : Delimited more) :
    unsignedNumber negative ((Nat.toDigits 10 n).map .char ++ more) =
      ifFinite (ofWhole negative (Nat.toDigits 10 n)) more := by
  have hpoint : fractionPart more = .ok ([], more) :=
    fractionPart_of_ne fun t ht => (hmore _ t ht).2.1 rfl
  have hexponent (zero : Bool) : exponentPart zero more = .ok (none, more) :=
    exponentPart_of_ne zero fun c t ht hc =>
      hc.elim (hmore c t ht).2.2.1 (hmore c t ht).2.2.2
  rw [unsignedNumber_eq, wholePart_toDigits n hmore]
  simp only [Except.bind, hpoint, hexponent]
  rw [numeral, if_pos ⟨rfl, rfl⟩]

theorem ofString_repr (n : Nat) : Text.ofString n.repr = (Nat.toDigits 10 n).map .char := by
  rw [Nat.repr_eq_ofList_toDigits]; simp [Text.ofString]

theorem isScalar_int {n : Int} (hlow : -(Nat.pow 2 63 : Int) ≤ n) (hhigh : n < Nat.pow 2 64)
    (hmore : Delimited more) : IsScalar (Text.ofString (toString n) ++ more) (.int n) more := by
  cases n with
  | ofNat n =>
    show IsScalar (Text.ofString n.repr ++ more) _ _
    rw [ofString_repr]
    refine .number ?_ ?_
    · cases hcs : Nat.toDigits 10 n with
      | nil => exact absurd hcs Nat.toDigits_ne_nil
      | cons c cs =>
        have hc : Number.isDigit c = true := isDigit_of_mem_toDigits (hcs ▸ List.mem_cons_self ..)
        rw [List.map_cons, List.cons_append, digitAt?, if_pos hc]; rfl
    · rw [unsignedNumber_toDigits _ _ hmore, ofWhole, ofDigits_toDigits, if_neg Bool.false_ne_true,
        if_pos (Int.ofNat_lt.mp hhigh)]; rfl
  | negSucc n =>
    show IsScalar (Text.ofString ("-" ++ n.succ.repr) ++ more) _ _
    have hminus : Text.ofString "-" = [.char '-'] := rfl
    rw [Text.ofString_append, List.append_assoc, ofString_repr, hminus, List.cons_append,
      List.nil_append]
    refine .minus ?_
    have hn : 0 < n.succ ∧ n.succ ≤ Nat.pow 2 63 := ⟨n.succ_pos, by omega⟩
    rw [unsignedNumber_toDigits _ _ hmore, ofWhole, ofDigits_toDigits, if_pos rfl, if_pos hn]; rfl

end Numbers

/-! ### Trees -/

mutual

/-- **A tree whose numbers are read as they were written**, with at most so many brackets inside one
another. -/
def Legible : Json → Nat → Prop
  | .int n, _ => -(Nat.pow 2 63 : Int) ≤ n ∧ n < Nat.pow 2 64
  | .float x, _ => IsScalar (Text.ofString (Number.Style.wire.text x)) (.float x) []
  | .array js, depth => 0 < depth ∧ LegibleItems js (depth - 1)
  | .object ms, depth => 0 < depth ∧ LegibleMembers ms (depth - 1)
  | _, _ => True

/-- The items of a list are legible. -/
def LegibleItems : List Json → Nat → Prop
  | [], _ => True
  | j :: js, depth => j.Legible depth ∧ LegibleItems js depth

/-- The values of members are legible. -/
def LegibleMembers : List (String × Json) → Nat → Prop
  | [], _ => True
  | (_, j) :: ms, depth => j.Legible depth ∧ LegibleMembers ms depth

end

/-- Texts that each follow a comma, in front of more. -/
def afterCommas (texts : List String) (more : Text) : Text :=
  texts.foldr (fun s more => .char ',' :: (Text.ofString s ++ more)) more

section Brackets
variable {text more t rest : Text} {depth : Nat} {j : Json}

theorem ofString_commas (s : String) : ∀ (texts : List String) (more : Text),
    Text.ofString (commas (s :: texts)) ++ more = Text.ofString s ++ afterCommas texts more
  | [], _ => rfl
  | s' :: texts, more => by
    have hcommas : commas (s :: s' :: texts) = s ++ "," ++ commas (s' :: texts) := rfl
    rw [hcommas, Text.ofString_append, Text.ofString_append, List.append_assoc, List.append_assoc,
      ofString_commas s' texts]
    rfl

theorem exists_of_digitAt? (h : (digitAt? text).isSome) :
    ∃ c t, text = .char c :: t ∧ Number.isDigit c = true := by
  match text, h with
  | .char c :: t, h =>
    refine ⟨c, t, rfl, ?_⟩
    by_contra hc
    simp [digitAt?, hc] at h

/-- No scalar begins with a blank. -/
theorem IsScalar.skipBlank_eq (h : IsScalar text j rest) : text.skipBlank = text := by
  cases h with
  | number hdigit _ =>
    obtain ⟨c, t, rfl, hc⟩ := exists_of_digitAt? hdigit
    refine List.dropWhile_cons_of_neg ?_
    rintro hblank
    simp only [Text.isBlank, Glyph.char.injEq, Bool.or_eq_true, decide_eq_true_eq] at hblank
    rcases hblank with ((rfl | rfl) | rfl) | rfl <;> cases hc
  | _ => rfl

theorem IsScalar.written (h : IsScalar text j rest) : Written depth text j rest := by
  rw [← h.skipBlank_eq] at h
  exact .scalar h

/-- A value begins with a glyph that closes no list. -/
theorem Written.first_glyph (h : Written depth text j rest) :
    ∃ g t, text.skipBlank = g :: t ∧ g ≠ .char ']' := by
  cases h with
  | scalar h =>
    generalize text.skipBlank = u at h ⊢
    cases h with
    | number hdigit _ =>
      obtain ⟨c, t, rfl, hc⟩ := exists_of_digitAt? hdigit
      refine ⟨_, t, rfl, ?_⟩
      rintro h
      cases h
      cases hc
    | _ => exact ⟨_, _, rfl, by decide⟩
  | array hopen _ _ => exact ⟨_, _, hopen, by decide⟩
  | object hopen _ _ => exact ⟨_, _, hopen, by decide⟩

theorem delimited_char {c : Char} (text : Text) (hdigit : Number.isDigit c = false)
    (hc : c ≠ '.' ∧ c ≠ 'e' ∧ c ≠ 'E') : Delimited (.char c :: text) := by
  rintro d rest h
  cases h
  exact ⟨hdigit, hc⟩

theorem delimited_afterCommas (h : Delimited more) (texts : List String) :
    Delimited (afterCommas texts more) := by
  cases texts with
  | nil => exact h
  | cons s texts => exact delimited_char _ (by decide) (by decide)

/-- A list goes on with a value that is read. -/
theorem itemsFrom_of_written {js : List Json} {steps index : Nat}
    (hnext : NextItem (index = 0) text .entry t.skipBlank) (hj : Written depth t j rest)
    (hjs : itemsFrom .keep (written depth) steps (index + 1) rest = .ok (js, more)) :
    itemsFrom .keep (written depth) (steps + 1) index text = .ok (j :: js, more) := by
  rw [← toOption_eq_some, toOption_itemsFrom_of_entry hnext, written_eq_ok.mpr hj.skipBlank]
  show (itemsFrom .keep (written depth) steps (index + 1) rest).toOption.map _ = _
  rw [hjs]; rfl

theorem itemsFrom_afterCommas (hclose : Delimited (.char ']' :: more)) :
    ∀ {js : List Json} {steps index : Nat},
      (∀ j ∈ js, ∀ {more : Text}, Delimited more →
        Written depth (Text.ofString j.compact ++ more) j more) → 0 < index →
      (afterCommas (js.map compact) (.char ']' :: more)).length < steps →
        itemsFrom .keep (written depth) steps index
          (afterCommas (js.map compact) (.char ']' :: more)) = .ok (js, .char ']' :: more)
  | _, 0, _, _, _, hsteps => absurd hsteps (Nat.not_lt_zero _)
  | [], steps + 1, _, _, _, _ => itemsFrom_of_close (.close rfl)
  | j :: js, steps + 1, index, hjs, hindex, hsteps => by
    obtain ⟨hj, hjs⟩ := List.forall_mem_cons.mp hjs
    have hj := hj (delimited_afterCommas hclose (js.map compact))
    have hlen := hj.length_lt
    obtain ⟨g, t, ht, hg⟩ := hj.first_glyph
    have hfirst : decide (index = 0) = false := decide_eq_false (by omega)
    refine itemsFrom_of_written ?_ hj (itemsFrom_afterCommas hclose hjs (by omega) ?_)
    · rw [hfirst, ht]
      exact .comma rfl ht hg
    · rw [List.map_cons, afterCommas, List.foldr_cons, List.length_cons] at hsteps
      exact hlen.trans (Nat.lt_of_succ_lt_succ hsteps)

/-- Items that are written one after another, with commas between them, are read as a list. -/
theorem items_compact {js : List Json} (hclose : Delimited (.char ']' :: more))
    (hjs : ∀ j ∈ js, ∀ {more : Text}, Delimited more →
      Written depth (Text.ofString j.compact ++ more) j more) :
    items .keep (written depth) (Text.ofString (commas (js.map compact)) ++ .char ']' :: more) =
      .ok (js, .char ']' :: more) := by
  cases js with
  | nil => exact itemsFrom_of_close (.close rfl)
  | cons j js =>
    obtain ⟨hj, hjs⟩ := List.forall_mem_cons.mp hjs
    have hj := hj (delimited_afterCommas hclose (js.map compact))
    obtain ⟨g, t, ht, hg⟩ := hj.first_glyph
    rw [List.map_cons, ofString_commas]
    refine itemsFrom_of_written ?_ hj (itemsFrom_afterCommas hclose hjs Nat.one_pos hj.length_lt)
    rw [ht]
    exact .first ht hg

/-- How a member is written. -/
def compactMember (m : String × Json) : String := writeString m.1 ++ ":" ++ m.2.compact

/-- What follows the opening quote of a member that was written. -/
def afterKey (m : String × Json) (more : Text) : Text :=
  afterQuote m.1 (.char ':' :: (Text.ofString m.2.compact ++ more))

theorem ofString_compactMember (m : String × Json) (more : Text) :
    Text.ofString (compactMember m) ++ more = .char '"' :: afterKey m more := by
  have hcolon : Text.ofString ":" = [.char ':'] := rfl
  rw [compactMember, Text.ofString_append, Text.ofString_append, List.append_assoc,
    List.append_assoc, hcolon, ofString_writeString]
  rfl

/-- An object goes on with a member whose value is read. -/
theorem membersFrom_of_written {m : String × Json} {done all : List (String × Json)} {steps : Nat}
    {first : Bool} (hnext : NextMember first text .entry (afterKey m t))
    (hj : Written depth (Text.ofString m.2.compact ++ t) m.2 t)
    (hms : membersFrom .keep stringBody .key (keepMember (written depth)) steps false (m :: done)
      t = .ok (all, more)) :
    membersFrom .keep stringBody .key (keepMember (written depth)) (steps + 1) first done text =
      .ok (all, more) := by
  rw [← toOption_eq_some, toOption_membersFrom_of_entry hnext (stringBody_afterQuote _ _)
    (colon_eq_ok.mpr rfl)]
  show ((written depth _).map _).toOption.bind _ = _
  rw [written_eq_ok.mpr hj]
  exact toOption_eq_some.mpr hms

theorem membersFrom_afterCommas (hclose : Delimited (.char '\x7d' :: more)) :
    ∀ {ms done : List (String × Json)} {steps : Nat},
      (∀ m ∈ ms, ∀ {more : Text}, Delimited more →
        Written depth (Text.ofString m.2.compact ++ more) m.2 more) →
      (afterCommas (ms.map compactMember) (.char '\x7d' :: more)).length < steps →
        membersFrom .keep stringBody .key (keepMember (written depth)) steps false done
          (afterCommas (ms.map compactMember) (.char '\x7d' :: more)) =
            .ok (ms.reverse ++ done, .char '\x7d' :: more)
  | _, _, 0, _, hsteps => absurd hsteps (Nat.not_lt_zero _)
  | [], _, steps + 1, _, _ => membersFrom_of_close (.close rfl)
  | m :: ms, done, steps + 1, hms, hsteps => by
    obtain ⟨hm, hms⟩ := List.forall_mem_cons.mp hms
    have hm := hm (delimited_afterCommas hclose (ms.map compactMember))
    have htext : afterCommas ((m :: ms).map compactMember) (.char '\x7d' :: more) =
        .char ',' :: .char '"' :: afterKey m
          (afterCommas (ms.map compactMember) (.char '\x7d' :: more)) := by
      rw [← ofString_compactMember]; rfl
    have hlen : (afterCommas (ms.map compactMember) (.char '\x7d' :: more)).length <
        (afterKey m (afterCommas (ms.map compactMember) (.char '\x7d' :: more))).length := by
      rw [afterKey, afterQuote, List.length_append, List.length_cons, List.length_cons]
      have := hm.length_lt
      omega
    rw [htext] at hsteps ⊢
    rw [List.length_cons, List.length_cons] at hsteps
    rw [List.reverse_cons, List.append_assoc]
    exact membersFrom_of_written (.comma rfl rfl) hm
      (membersFrom_afterCommas hclose hms (by omega))

/-- Members that are written one after another, with commas between them, are read as members. -/
theorem members_compact {ms : List (String × Json)} (hclose : Delimited (.char '\x7d' :: more))
    (hms : ∀ m ∈ ms, ∀ {more : Text}, Delimited more →
      Written depth (Text.ofString m.2.compact ++ more) m.2 more) :
    members (keepMember (written depth)) []
      (Text.ofString (commas (ms.map compactMember)) ++ .char '\x7d' :: more) =
        .ok (ms.reverse, .char '\x7d' :: more) := by
  cases ms with
  | nil => exact membersFrom_of_close (.close rfl)
  | cons m ms =>
    obtain ⟨hm, hms⟩ := List.forall_mem_cons.mp hms
    have hm := hm (delimited_afterCommas hclose (ms.map compactMember))
    have hlen := hm.length_lt
    rw [List.map_cons, ofString_commas, ofString_compactMember, List.reverse_cons]
    refine membersFrom_of_written (.first rfl) hm (membersFrom_afterCommas hclose hms ?_)
    rw [List.length_cons, afterKey, afterQuote, List.length_append, List.length_cons,
      List.length_cons]
    omega

theorem compactItems_eq_map : ∀ js : List Json, compactItems js = js.map compact
  | [] => rfl
  | j :: js => by rw [compactItems, compactItems_eq_map js]; rfl

theorem compactMembers_eq_map : ∀ ms : List (String × Json),
    compactMembers ms = ms.map compactMember
  | [] => rfl
  | (key, j) :: ms => by rw [compactMembers, compactMembers_eq_map ms]; rfl

mutual

/-- **The text of a legible tree is read as the tree**, whatever follows it. -/
theorem written_compact : ∀ {j : Json} {depth : Nat} {more : Text}, j.Legible depth →
    Delimited more → Written depth (Text.ofString j.compact ++ more) j more
  | .null, _, _, _, _ => .scalar (.null (keyword_eq_ok.mpr rfl))
  | .bool true, _, _, _, _ => .scalar (.isTrue (keyword_eq_ok.mpr rfl))
  | .bool false, _, _, _, _ => .scalar (.isFalse (keyword_eq_ok.mpr rfl))
  | .int _, _, _, h, hmore => (isScalar_int h.1 h.2 hmore).written
  | .float _, _, _, h, hmore => (IsScalar.append h hmore).written
  | .string s, _, more, _, _ => (isScalar_writeString s more).written
  | .array js, depth + 1, more, h, _ => by
    have hclose : Delimited (.char ']' :: more) := delimited_char _ (by decide) (by decide)
    have hitems := items_compact hclose (written_compact_items h.2)
    have htext : Text.ofString (compact (.array js)) ++ more =
        .char '[' :: (Text.ofString (commas (js.map compact)) ++ .char ']' :: more) := by
      rw [compact, compactItems_eq_map, Text.ofString_append, Text.ofString_append,
        List.append_assoc, List.append_assoc]
      rfl
    rw [htext]
    exact .array rfl hitems (closeList_eq_ok.mpr rfl)
  | .object ms, depth + 1, more, h, _ => by
    have hclose : Delimited (.char '\x7d' :: more) := delimited_char _ (by decide) (by decide)
    have hmembers := members_compact hclose (written_compact_members h.2)
    have htext : Text.ofString (compact (.object ms)) ++ more = .char '\x7b' ::
        (Text.ofString (commas (ms.map compactMember)) ++ .char '\x7d' :: more) := by
      rw [compact, compactMembers_eq_map, Text.ofString_append, Text.ofString_append,
        List.append_assoc, List.append_assoc]
      rfl
    rw [htext]
    exact .object rfl hmembers (closeObject_eq_ok.mpr rfl)

theorem written_compact_items : ∀ {js : List Json} {depth : Nat}, LegibleItems js depth →
    ∀ j ∈ js, ∀ {more : Text}, Delimited more →
      Written depth (Text.ofString j.compact ++ more) j more
  | [], _, _ => List.forall_mem_nil _
  | j :: _, _, h => List.forall_mem_cons.mpr
    ⟨fun hmore => written_compact (j := j) h.1 hmore, written_compact_items h.2⟩

theorem written_compact_members : ∀ {ms : List (String × Json)} {depth : Nat},
    LegibleMembers ms depth → ∀ m ∈ ms, ∀ {more : Text}, Delimited more →
      Written depth (Text.ofString m.2.compact ++ more) m.2 more
  | [], _, _ => List.forall_mem_nil _
  | (_, j) :: _, _, h => List.forall_mem_cons.mpr
    ⟨fun hmore => written_compact (j := j) h.1 hmore, written_compact_members h.2⟩

end

/-- **The whole text of a legible tree is read as the tree.** -/
theorem complete_written_compact (h : j.Legible depthLimit) :
    complete written (Text.ofString j.compact) = .ok j := by
  have hnil : Delimited [] := fun _ _ h => by cases h
  have hj : Written depthLimit (Text.ofString j.compact) j [] := by
    have := written_compact h hnil
    rwa [List.append_nil] at this
  exact complete_eq_ok.mpr ⟨[], written_eq_ok.mpr hj, rfl⟩

end Brackets

end Artboard.Json
