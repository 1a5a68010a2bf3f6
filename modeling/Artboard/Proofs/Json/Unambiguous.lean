import Artboard.Proofs.Number.Figures
import Mathlib.Logic.Relation

/-! # One tree for each text

Compact texts are told apart without being read, so however deep their trees are and whatever
numbers are in them.

* `Everywhere`: a property of a tree, of its parts, of their parts and so on.
* `Form`: the form of a tree, by the first character of its text (`fronted_compact`).
* `Apart`: texts that say where they end and what they stand for; `commas_apart`: lists of such
  entries.
* `Told`: numbers that are told apart by their texts. `apart_compact`: trees with such numbers.
* `eq_of_compact`: two trees with one text are the same. -/

namespace Artboard.Json

open Number (isFigure Figured Marked)

/-! ### Trees and their parts -/

/-- A property of a tree, of its parts, of their parts and so on. -/
def Everywhere (p : Json → Prop) (j : Json) : Prop := ∀ i, Relation.ReflTransGen IsPart i j → p i

section Everywhere
variable {p q : Json → Prop} {j : Json}

theorem everywhere_iff : j.Everywhere p ↔ p j ∧ ∀ i, IsPart i j → i.Everywhere p := by
  refine ⟨fun h => ⟨h j .refl, fun i hi k hk => h k (hk.tail hi)⟩, fun ⟨hj, hparts⟩ k hk => ?_⟩
  rcases hk.cases_tail with rfl | ⟨i, hk, hi⟩
  · exact hj
  · exact hparts i hi k hk

theorem everywhere_array {js : List Json} : (Json.array js).Everywhere p ↔
    p (.array js) ∧ ∀ j ∈ js, j.Everywhere p := everywhere_iff

theorem everywhere_object {ms : List (String × Json)} : (Json.object ms).Everywhere p ↔
    p (.object ms) ∧ ∀ m ∈ ms, m.2.Everywhere p := by
  rw [everywhere_iff]
  exact and_congr_right fun _ => ⟨fun h m hm => h m.2 ⟨m.1, hm⟩, fun h i ⟨key, hi⟩ => h (key, i) hi⟩

theorem Everywhere.imp (h : j.Everywhere p) (hpq : ∀ i, p i → q i) : j.Everywhere q :=
  fun i hi => hpq i (h i hi)

theorem sizeOf_lt_of_isPart {i : Json} (h : IsPart i j) : sizeOf i < sizeOf j := by
  cases j with
  | array js =>
    have hmem := List.sizeOf_lt_of_mem (show i ∈ js from h)
    rw [array.sizeOf_spec]
    omega
  | object ms =>
    obtain ⟨key, hmem⟩ := h
    have hmem := List.sizeOf_lt_of_mem hmem
    rw [Prod.mk.sizeOf_spec] at hmem
    rw [object.sizeOf_spec]
    omega
  | _ => cases h

/-- Induction from the parts of a tree to the tree. -/
theorem part_induction (step : ∀ j, (∀ i, IsPart i j → p i) → p j) (j : Json) : p j :=
  step j fun i _ => part_induction step i
termination_by sizeOf j
decreasing_by exact sizeOf_lt_of_isPart ‹_›

end Everywhere

/-! ### The first character -/

/-- What the first character of a text tells about its tree. -/
inductive Form
  | null
  | bool (value : Bool)
  | number
  | string
  | array
  | object
  deriving DecidableEq

/-- The form of a tree. -/
def form : Json → Form
  | .null => .null
  | .bool b => .bool b
  | .int _ => .number
  | .float _ => .number
  | .string _ => .string
  | .array _ => .array
  | .object _ => .object

/-- The form of a tree whose text begins with a character. -/
def formOf? (c : Char) : Option Form :=
  if isFigure c then some .number
  else if c = 'n' then some .null
  else if c = 't' then some (.bool true)
  else if c = 'f' then some (.bool false)
  else if c = '"' then some .string
  else if c = '[' then some .array
  else if c = '\x7b' then some .object
  else none

/-- The floats of a tree itself have a property. -/
def FloatsIn (F : Float → Prop) (j : Json) : Prop := ∀ x, j = .float x → F x

/-- A text begins with a character that tells the form. -/
def Fronted (f : Form) (s : String) : Prop := ∃ c cs, s.toList = c :: cs ∧ formOf? c = some f

section Front
variable {s t : String} {u v : Text} {f g : Form} {i j : Json}

theorem Fronted.append (h : Fronted f s) (t : String) : Fronted f (s ++ t) := by
  obtain ⟨c, cs, hs, hc⟩ := h
  exact ⟨c, cs ++ t.toList, by rw [String.toList_append, hs, List.cons_append], hc⟩

/-- Texts of different forms do not begin alike. -/
theorem Fronted.eq (hs : Fronted f s) (ht : Fronted g t)
    (h : Text.ofString s ++ u = Text.ofString t ++ v) : f = g := by
  obtain ⟨c, cs, hs, hc⟩ := hs
  obtain ⟨d, ds, ht, hd⟩ := ht
  rw [Text.ofString, hs, Text.ofString, ht] at h
  cases (List.cons.inj h).1
  exact Option.some.inj (hc.symm.trans hd)

theorem fronted_of_figured (hs : Figured s) (hne : s.toList ≠ []) : Fronted .number s := by
  obtain ⟨c, cs, hcs⟩ := List.exists_cons_of_ne_nil hne
  refine ⟨c, cs, hcs, if_pos ?_⟩
  exact hs c (hcs ▸ List.mem_cons_self)

theorem ne_nil_of_marked (h : Marked s) : s.toList ≠ [] := by
  rcases h with h | h
  · exact List.ne_nil_of_mem h
  · exact List.ne_nil_of_mem h

theorem toList_repr (n : Nat) : n.repr.toList = Nat.toDigits 10 n := by
  rw [Nat.repr_eq_ofList_toDigits, String.toList_ofList]

theorem toList_ofNat (n : Nat) : (toString (Int.ofNat n)).toList = Nat.toDigits 10 n :=
  toList_repr n

theorem toList_negSucc (n : Nat) :
    (toString (Int.negSucc n)).toList = '-' :: Nat.toDigits 10 n.succ := by
  have hrepr : toString (Int.negSucc n) = "-" ++ n.succ.repr := rfl
  rw [hrepr, String.toList_append, toList_repr]
  rfl

/-- The first character of a whole number is its sign or a digit, all others are digits. -/
theorem toList_int (n : Int) : ∃ c cs, (toString n).toList = c :: cs ∧
    (c = '-' ∨ Number.isDigit c = true) ∧ ∀ d ∈ cs, Number.isDigit d = true := by
  cases n with
  | ofNat n =>
    obtain ⟨c, cs, hcs⟩ := List.exists_cons_of_ne_nil (Nat.toDigits_ne_nil (n := n) (b := 10))
    have hdigits : ∀ d ∈ c :: cs, Number.isDigit d = true :=
      fun d hd => isDigit_of_mem_toDigits (hcs ▸ hd)
    exact ⟨c, cs, (toList_ofNat n).trans hcs, .inr (hdigits c List.mem_cons_self),
      fun d hd => hdigits d (List.mem_cons_of_mem c hd)⟩
  | negSucc n =>
    exact ⟨'-', _, toList_negSucc n, .inl rfl, fun d hd => isDigit_of_mem_toDigits hd⟩

theorem figured_int (n : Int) : Figured (toString n) := by
  obtain ⟨c, cs, hn, hc, hcs⟩ := toList_int n
  rw [Figured, hn, List.forall_mem_cons]
  refine ⟨?_, fun d hd => ?_⟩
  · rcases hc with rfl | hc
    · rfl
    · simp [isFigure, hc]
  · simp [isFigure, hcs d hd]

theorem ne_nil_int (n : Int) : (toString n).toList ≠ [] := by
  obtain ⟨c, cs, hn, -⟩ := toList_int n
  rw [hn]
  exact List.cons_ne_nil c cs

/-- **The first character of a text tells the form of its tree.** -/
theorem fronted_compact (hj : j.FloatsIn fun x => x.isFinite = true) :
    Fronted j.form j.compact := by
  cases j with
  | null => exact ⟨'n', _, rfl, rfl⟩
  | bool b => cases b <;> exact ⟨_, _, rfl, rfl⟩
  | int n => exact fronted_of_figured (figured_int n) (ne_nil_int n)
  | float x =>
    have htext := Number.text_wire (hj x rfl)
    exact fronted_of_figured htext.1 (ne_nil_of_marked htext.2)
  | string s => exact (Fronted.append ⟨'"', [], rfl, rfl⟩ _).append _
  | array js => exact (Fronted.append ⟨'[', [], rfl, rfl⟩ _).append _
  | object ms => exact (Fronted.append ⟨'\x7b', [], rfl, rfl⟩ _).append _

end Front

/-! ### Numbers -/

/-- A text begins with no character of numbers. -/
def Ended (text : Text) : Prop := ∀ c rest, text = .char c :: rest → isFigure c = false

section Numbers
variable {u v : Text}

theorem ended_char {c : Char} (hc : isFigure c = false) (text : Text) :
    Ended (.char c :: text) := by
  rintro d rest h
  cases h
  exact hc

/-- A number ends where its characters do. -/
theorem eq_of_figures (hu : Ended u) (hv : Ended v) : ∀ {cs ds : List Char},
    (∀ c ∈ cs, isFigure c = true) → (∀ d ∈ ds, isFigure d = true) →
      cs.map Glyph.char ++ u = ds.map .char ++ v → cs = ds ∧ u = v
  | [], [], _, _, h => ⟨rfl, h⟩
  | [], d :: ds, _, hds, h => by
    have hd := hu d _ h
    rw [hds d List.mem_cons_self] at hd
    cases hd
  | c :: cs, [], hcs, _, h => by
    have hc := hv c _ h.symm
    rw [hcs c List.mem_cons_self] at hc
    cases hc
  | c :: cs, d :: ds, hcs, hds, h => by
    have hfirst : c = d := Glyph.char.inj (List.cons.inj h).1
    obtain ⟨hrest, htext⟩ := eq_of_figures hu hv (List.forall_mem_cons.mp hcs).2
      (List.forall_mem_cons.mp hds).2 (List.cons.inj h).2
    exact ⟨by rw [hfirst, hrest], htext⟩

theorem eq_of_figured {s t : String} (hs : Figured s) (ht : Figured t) (hu : Ended u)
    (hv : Ended v) (h : Text.ofString s ++ u = Text.ofString t ++ v) : s = t ∧ u = v := by
  obtain ⟨heq, hrest⟩ := eq_of_figures hu hv hs ht h
  exact ⟨String.toList_inj.mp heq, hrest⟩

/-- A whole number has no point and no exponent. -/
theorem not_marked_int (n : Int) : ¬ Marked (toString n) := by
  obtain ⟨c, cs, hn, hc, hcs⟩ := toList_int n
  have hmark {m : Char} (hminus : m ≠ '-') (hdigit : Number.isDigit m = false) :
      m ∉ (toString n).toList := by
    rw [hn, List.mem_cons]
    rintro (rfl | hm)
    · rcases hc with hc | hc
      · exact hminus hc
      · rw [hdigit] at hc; cases hc
    · rw [hcs m hm] at hdigit; cases hdigit
  rintro (h | h)
  · exact hmark (by decide) rfl h
  · exact hmark (by decide) rfl h

/-- **Different whole numbers are different texts.** -/
theorem int_of_toString {m n : Int} (h : toString m = toString n) : m = n := by
  have hchars := congrArg String.toList h
  have hminus (n : Nat) (cs : List Char) : Nat.toDigits 10 n ≠ '-' :: cs := by
    intro hn
    have hdigit : Number.isDigit '-' = true := isDigit_of_mem_toDigits (hn ▸ List.mem_cons_self)
    cases hdigit
  have hnat {m n : Nat} (h : Nat.toDigits 10 m = Nat.toDigits 10 n) : m = n := by
    rw [← ofDigits_toDigits m, h, ofDigits_toDigits]
  cases m with
  | ofNat m =>
    rw [toList_ofNat] at hchars
    cases n with
    | ofNat n => rw [toList_ofNat] at hchars; rw [hnat hchars]
    | negSucc n => rw [toList_negSucc] at hchars; exact absurd hchars (hminus m _)
  | negSucc m =>
    rw [toList_negSucc] at hchars
    cases n with
    | ofNat n => rw [toList_ofNat] at hchars; exact absurd hchars.symm (hminus n _)
    | negSucc n =>
      rw [toList_negSucc] at hchars
      rw [Nat.succ.inj (hnat (List.cons.inj hchars).2)]

end Numbers

/-! ### Entries -/

/-- If two texts begin alike, in front of what is no number, a fact about them holds and they end
at one place. -/
def Apart (P : Prop) (s t : String) : Prop := ∀ ⦃u v : Text⦄, Ended u → Ended v →
  Text.ofString s ++ u = Text.ofString t ++ v → P ∧ u = v

/-- A character that closes a list begins no tree. -/
structure Closing (c : Char) : Prop where
  begins_none : formOf? c = none
  not_comma : c ≠ ','

section Entries
variable {P Q : Prop} {s t : String} {u v : Text} {c : Char} {f g : Form}

theorem Apart.imp (h : Apart P s t) (hPQ : P → Q) : Apart Q s t :=
  fun _ _ hu hv heq => ⟨hPQ (h hu hv heq).1, (h hu hv heq).2⟩

/-- Texts of different forms are apart. -/
theorem Apart.of_forms (hs : Fronted f s) (ht : Fronted g t) (hne : f ≠ g) : Apart P s t :=
  fun _ _ _ _ h => absurd (hs.eq ht h) hne

theorem apart_same (s : String) : Apart True s s :=
  fun _ _ _ _ h => ⟨trivial, List.append_cancel_left h⟩

/-- Numbers are apart if they are different texts. -/
theorem apart_of_figured (hs : Figured s) (ht : Figured t) (h : s = t → P) : Apart P s t :=
  fun _ _ hu hv heq =>
    have hsame := eq_of_figured hs ht hu hv heq
    ⟨h hsame.1, hsame.2⟩

/-- **A string says where it ends.** -/
theorem eq_of_writeString (h : Text.ofString (writeString s) ++ u =
    Text.ofString (writeString t) ++ v) : s = t ∧ u = v := by
  rw [ofString_writeString, ofString_writeString] at h
  -- both sides are read as the string behind the quote, and leave what follows
  have hread := stringBody_afterQuote s u
  rw [(List.cons.inj h).2, stringBody_afterQuote] at hread
  cases hread
  exact ⟨rfl, rfl⟩

theorem isFigure_of_formOf? (h : formOf? c = none) : isFigure c = false := by
  cases hc : isFigure c with
  | false => rfl
  | true => rw [formOf?, if_pos hc] at h; cases h

theorem Closing.ended (hc : Closing c) (text : Text) : Ended (.char c :: text) :=
  ended_char (isFigure_of_formOf? hc.begins_none) text

theorem ended_afterCommas (hc : Closing c) (texts : List String) (u : Text) :
    Ended (afterCommas texts (.char c :: u)) := by
  cases texts with
  | nil => exact hc.ended u
  | cons s texts => exact ended_char (by decide) _

theorem Fronted.ne_closing (hs : Fronted f s) (hc : Closing c) :
    Text.ofString s ++ u ≠ .char c :: v := by
  obtain ⟨d, ds, hs, hd⟩ := hs
  rw [Text.ofString, hs]
  intro h
  cases (List.cons.inj h).1
  rw [hc.begins_none] at hd
  cases hd

section Lists
variable {α : Type} {text : α → String} (hc : Closing c)
include hc

/-- What follows the first entry of a list says which entries it has and where it ends. -/
theorem afterCommas_apart : ∀ {as bs : List α},
    (∀ a ∈ as, ∀ b ∈ bs, Apart (a = b) (text a) (text b)) →
      afterCommas (as.map text) (.char c :: u) = afterCommas (bs.map text) (.char c :: v) →
        as = bs ∧ u = v
  | [], [], _, h => ⟨rfl, (List.cons.inj h).2⟩
  | [], _ :: _, _, h => absurd (Glyph.char.inj (List.cons.inj h).1) hc.not_comma
  | _ :: _, [], _, h => absurd (Glyph.char.inj (List.cons.inj h).1).symm hc.not_comma
  | a :: as, b :: bs, hentries, h => by
    obtain ⟨hfirst, hafter⟩ := hentries a List.mem_cons_self b List.mem_cons_self
      (ended_afterCommas hc _ u) (ended_afterCommas hc _ v) (List.cons.inj h).2
    obtain ⟨hrest, htext⟩ := afterCommas_apart (fun a ha b hb =>
      hentries a (List.mem_cons_of_mem _ ha) b (List.mem_cons_of_mem _ hb)) hafter
    exact ⟨by rw [hfirst, hrest], htext⟩

/-- **A list says which entries it has and where it ends**, if each of its entries does. -/
theorem commas_apart {as bs : List α} (has : ∀ a ∈ as, ∃ f, Fronted f (text a))
    (hbs : ∀ b ∈ bs, ∃ f, Fronted f (text b))
    (hentries : ∀ a ∈ as, ∀ b ∈ bs, Apart (a = b) (text a) (text b))
    (h : Text.ofString (commas (as.map text)) ++ .char c :: u =
      Text.ofString (commas (bs.map text)) ++ .char c :: v) : as = bs ∧ u = v := by
  cases as with
  | nil =>
    cases bs with
    | nil => exact ⟨rfl, (List.cons.inj h).2⟩
    | cons b bs =>
      obtain ⟨f, hb⟩ := hbs b List.mem_cons_self
      rw [List.map_cons, ofString_commas] at h
      exact absurd h.symm (hb.ne_closing hc)
  | cons a as =>
    obtain ⟨f, ha⟩ := has a List.mem_cons_self
    rw [List.map_cons, ofString_commas] at h
    cases bs with
    | nil => exact absurd h (ha.ne_closing hc)
    | cons b bs =>
      -- the first entries may have commas in front of them, too
      rw [List.map_cons, ofString_commas] at h
      exact afterCommas_apart hc hentries (congrArg (Glyph.char ',' :: ·) h)

end Lists

end Entries

/-! ### Trees -/

/-- The finite numbers of two kinds are told apart by their texts. -/
structure Told (F G : Float → Prop) : Prop where
  finite_left : ∀ x, F x → x.isFinite = true
  finite_right : ∀ y, G y → y.isFinite = true
  eq_of_text : ∀ x y, F x → G y → Number.Style.wire.text x = Number.Style.wire.text y → x = y

section Trees
variable {F G : Float → Prop} {i j : Json} {is js : List Json} {ms ns : List (String × Json)}

theorem ofString_enclosed (s t r : String) (u : Text) : Text.ofString (s ++ t ++ r) ++ u =
    Text.ofString s ++ (Text.ofString t ++ (Text.ofString r ++ u)) := by
  rw [Text.ofString_append, Text.ofString_append, List.append_assoc, List.append_assoc]

theorem apart_int (m n : Int) : Apart (Json.int m = .int n) (Json.int m).compact
    (Json.int n).compact :=
  apart_of_figured (figured_int m) (figured_int n) fun h => congrArg Json.int (int_of_toString h)

/-- A whole number is written unlike any other number. -/
theorem int_ne_float (n : Int) {x : Float} (hx : x.isFinite = true) :
    toString n ≠ Number.Style.wire.text x :=
  fun h => not_marked_int n (h ▸ (Number.text_wire hx).2)

theorem apart_float (told : Told F G) {x y : Float} (hx : F x) (hy : G y) :
    Apart (Json.float x = .float y) (Json.float x).compact (Json.float y).compact :=
  apart_of_figured (Number.text_wire (told.finite_left x hx)).1
    (Number.text_wire (told.finite_right y hy)).1
    fun h => congrArg Json.float (told.eq_of_text x y hx hy h)

theorem apart_string (s t : String) : Apart (Json.string s = .string t) (Json.string s).compact
    (Json.string t).compact := fun _ _ _ _ h =>
  have hsame := eq_of_writeString h
  ⟨congrArg Json.string hsame.1, hsame.2⟩

theorem apart_array (his : ∀ i ∈ is, ∃ f, Fronted f i.compact)
    (hjs : ∀ j ∈ js, ∃ f, Fronted f j.compact)
    (h : ∀ i ∈ is, ∀ j ∈ js, Apart (i = j) i.compact j.compact) :
    Apart (Json.array is = .array js) (Json.array is).compact (Json.array js).compact := by
  intro u v _ _ heq
  rw [compact, compact, compactItems_eq_map, compactItems_eq_map, ofString_enclosed,
    ofString_enclosed] at heq
  have hclosing : Closing ']' := ⟨by decide, by decide⟩
  obtain ⟨hsame, htext⟩ := commas_apart hclosing his hjs h (List.cons.inj heq).2
  exact ⟨congrArg Json.array hsame, htext⟩

theorem fronted_compactMember (m : String × Json) : Fronted .string (compactMember m) :=
  ((Fronted.append ⟨'"', [], rfl, rfl⟩ _).append _).append _ |>.append _

theorem apart_member {m n : String × Json} (h : Apart (m.2 = n.2) m.2.compact n.2.compact) :
    Apart (m = n) (compactMember m) (compactMember n) := by
  intro u v hu hv heq
  rw [compactMember, compactMember, ofString_enclosed, ofString_enclosed] at heq
  obtain ⟨hkey, hafter⟩ := eq_of_writeString heq
  obtain ⟨hvalue, htext⟩ := h hu hv (List.cons.inj hafter).2
  exact ⟨Prod.ext hkey hvalue, htext⟩

theorem apart_object (h : ∀ m ∈ ms, ∀ n ∈ ns, Apart (m.2 = n.2) m.2.compact n.2.compact) :
    Apart (Json.object ms = .object ns) (Json.object ms).compact (Json.object ns).compact := by
  intro u v _ _ heq
  rw [compact, compact, compactMembers_eq_map, compactMembers_eq_map, ofString_enclosed,
    ofString_enclosed] at heq
  have hclosing : Closing '\x7d' := ⟨by decide, by decide⟩
  obtain ⟨hsame, htext⟩ := commas_apart hclosing (fun m _ => ⟨_, fronted_compactMember m⟩)
    (fun n _ => ⟨_, fronted_compactMember n⟩) (fun m hm n hn => apart_member (h m hm n hn))
    (List.cons.inj heq).2
  exact ⟨congrArg Json.object hsame, htext⟩

/-- **Trees are told apart by their texts** as far as their numbers are. -/
theorem apart_compact (told : Told F G) (hi : i.Everywhere (FloatsIn F))
    (hj : j.Everywhere (FloatsIn G)) : Apart (i = j) i.compact j.compact := by
  -- on the parts of one tree; the texts say which parts the other has
  induction i using part_induction generalizing j with
  | step i ih =>
    have hfront {j : Json} {H : Float → Prop} (hH : ∀ x, H x → x.isFinite = true)
        (hj : j.Everywhere (FloatsIn H)) : Fronted j.form j.compact :=
      fronted_compact fun x hx => hH x (hj j .refl x hx)
    by_cases hform : i.form = j.form
    · cases i with
      | null => cases j with
        | null => exact (apart_same _).imp fun _ => rfl
        | _ => cases hform
      | bool b => cases j with
        | bool c => cases hform; exact (apart_same _).imp fun _ => rfl
        | _ => cases hform
      | int m => cases j with
        | int n => exact apart_int m n
        | float y =>
          have hy := told.finite_right y (hj _ .refl y rfl)
          exact apart_of_figured (figured_int m) (Number.text_wire hy).1
            fun h => absurd h (int_ne_float m hy)
        | _ => cases hform
      | float x => cases j with
        | int n =>
          have hx := told.finite_left x (hi _ .refl x rfl)
          exact apart_of_figured (Number.text_wire hx).1 (figured_int n)
            fun h => absurd h.symm (int_ne_float n hx)
        | float y => exact apart_float told (hi _ .refl x rfl) (hj _ .refl y rfl)
        | _ => cases hform
      | string s => cases j with
        | string t => exact apart_string s t
        | _ => cases hform
      | array is => cases j with
        | array js =>
          have his := (everywhere_array.mp hi).2
          have hjs := (everywhere_array.mp hj).2
          exact apart_array (fun i hmem => ⟨_, hfront told.finite_left (his i hmem)⟩)
            (fun j hmem => ⟨_, hfront told.finite_right (hjs j hmem)⟩)
            fun i hmem j hmem' => ih i hmem (his i hmem) (hjs j hmem')
        | _ => cases hform
      | object ms => cases j with
        | object ns =>
          have hms := (everywhere_object.mp hi).2
          have hns := (everywhere_object.mp hj).2
          exact apart_object fun m hmem n hmem' =>
            ih m.2 ⟨m.1, hmem⟩ (hms m hmem) (hns n hmem')
        | _ => cases hform
    · exact .of_forms (hfront told.finite_left hi) (hfront told.finite_right hj) hform

/-- **Two trees with one text are the same.** -/
theorem eq_of_compact (told : Told F G) (hi : i.Everywhere (FloatsIn F))
    (hj : j.Everywhere (FloatsIn G)) (h : i.compact = j.compact) : i = j := by
  have hended : Ended [] := fun _ _ h => by cases h
  exact (apart_compact told hi hj hended hended (by rw [h])).1

end Trees

end Artboard.Json
