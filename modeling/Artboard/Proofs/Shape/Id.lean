import Artboard.Shape.Id
import Mathlib.Data.List.Nodup
import Mathlib.Data.String.Basic

/-! # Ids and their texts

* `ofHex_hexDigits`: the digits of an id are read as its number.
* `filter_grouped`: the text of an id without its hyphens is the digits, so different ids have
  different texts (`text_injective`).
* `parse?_text`: an id of 128 bits is read from its text. -/

namespace Artboard.ShapeId

section Digits
variable {cs : List Char} {c : Char} {id : ShapeId}

theorem hexValue?_digitChar : ∀ n < 16, hexValue? n.digitChar = some n := by decide

theorem ofHex_concat (cs : List Char) (c : Char) :
    ofHex (cs ++ [c]) = 16 * ofHex cs + (hexValue? c).getD 0 := by
  rw [ofHex, List.foldl_append]; rfl

/-- Hexadecimal digits are read as the number that they were written for. -/
theorem ofHex_toDigits (n : Nat) : ofHex (Nat.toDigits 16 n) = n := by
  induction n using Nat.strongRecOn with
  | _ n ih =>
    rw [Nat.toDigits_eq_if (by decide)]
    split_ifs with hn
    · have hnil : ofHex [] = 0 := rfl
      rw [← List.nil_append [n.digitChar], ofHex_concat, hnil, hexValue?_digitChar n hn]
      exact Nat.zero_add n
    · rw [ofHex_concat, ih (n / 16) (by omega), hexValue?_digitChar _ (Nat.mod_lt _ (by decide))]
      exact Nat.div_add_mod n 16

theorem isHex_digitChar : ∀ n < 16, isHex n.digitChar = true := by decide

theorem isHex_of_mem_toDigits (n : Nat) : ∀ c ∈ Nat.toDigits 16 n, isHex c = true := by
  induction n using Nat.strongRecOn with
  | _ n ih =>
    rw [Nat.toDigits_eq_if (by decide)]
    split_ifs with hn
    · rintro c hc
      rw [List.mem_singleton.mp hc]
      exact isHex_digitChar n hn
    · rintro c hc
      rcases List.mem_append.mp hc with hc | hc
      · exact ih (n / 16) (by omega) c hc
      · rw [List.mem_singleton.mp hc]
        exact isHex_digitChar _ (Nat.mod_lt _ (by decide))

theorem isHex_of_mem_hexDigits (hc : c ∈ id.hexDigits) : isHex c = true := by
  rcases List.mem_append.mp hc with hc | hc
  · rw [List.eq_of_mem_replicate hc]; decide
  · exact isHex_of_mem_toDigits _ c hc

/-- **The digits of an id are read as its number.** -/
theorem ofHex_hexDigits (id : ShapeId) : ofHex id.hexDigits = id.number := by
  have hzeros (n : Nat) : ofHex (List.replicate n '0' ++ Nat.toDigits 16 id.number) =
      ofHex (Nat.toDigits 16 id.number) := by
    induction n with
    | zero => rfl
    | succ n ih => rw [List.replicate_succ, List.cons_append, ← ih]; rfl
  rw [hexDigits]
  exact (hzeros _).trans (ofHex_toDigits id.number)

theorem length_hexDigits (h : id.number < Nat.pow 2 128) : id.hexDigits.length = 32 := by
  have hpow : Nat.pow 2 128 = 16 ^ 32 := by decide
  have hlength : (Nat.toDigits 16 id.number).length ≤ 32 :=
    (Nat.length_toDigits_le_iff (by decide) (by decide)).mpr (hpow ▸ h)
  rw [hexDigits, List.length_append, List.length_replicate]
  omega

end Digits

/-! ### The written form -/

section Grouped
variable {ds : List Char} {id : ShapeId}

/-- The groups of digits are the digits. -/
theorem append_groups (ds : List Char) : ds.take 8 ++ ((ds.drop 8).take 4 ++
    ((ds.drop 12).take 4 ++ ((ds.drop 16).take 4 ++ ds.drop 20))) = ds := by
  have hjoin (m n : Nat) : (ds.drop m).take n ++ ds.drop (m + n) = ds.drop m := by
    rw [← List.drop_drop, List.take_append_drop]
  rw [hjoin 16 4, hjoin 12 4, hjoin 8 4, List.take_append_drop]

/-- The written form without its hyphens is the digits. -/
theorem filter_grouped (h : ∀ c ∈ ds, isHex c = true) : (grouped ds).filter (· ≠ '-') = ds := by
  have hkeep {cs : List Char} (hcs : ∀ c ∈ cs, c ∈ ds) : cs.filter (· ≠ '-') = cs := by
    refine List.filter_eq_self.mpr fun c hc => ?_
    have hhex := h c (hcs c hc)
    refine decide_eq_true ?_
    rintro rfl
    cases hhex
  have hgroup (m n : Nat) : ((ds.drop m).take n).filter (· ≠ '-') = (ds.drop m).take n :=
    hkeep fun c hc => List.mem_of_mem_drop (List.mem_of_mem_take hc)
  have hhyphen (cs : List Char) : ('-' :: cs).filter (· ≠ '-') = cs.filter (· ≠ '-') := rfl
  have hfirst : (ds.take 8).filter (· ≠ '-') = ds.take 8 := hkeep fun c => List.mem_of_mem_take
  have hlast : (ds.drop 20).filter (· ≠ '-') = ds.drop 20 := hkeep fun c => List.mem_of_mem_drop
  rw [grouped]
  simp only [List.append_assoc, List.cons_append]
  rw [List.filter_append, hhyphen, List.filter_append, hhyphen, List.filter_append, hhyphen,
    List.filter_append, hhyphen, hfirst, hgroup, hgroup, hgroup, hlast, append_groups]

/-- Whether a character fits the place in the form at which it stands. -/
def fitsPlace (p : Char × Nat) : Bool := if p.2 + 1 ∈ groupStarts then p.1 = '-' else isHex p.1

/-- Digits fit everywhere but between the groups. -/
theorem all_fitsPlace {cs : List Char} {start n : Nat} (h : ∀ c ∈ cs, isHex c = true)
    (hn : cs.length = n) (hstart : ∀ i < n, start + i + 1 ∉ groupStarts) :
    (cs.zipIdx start).all fitsPlace = true := by
  rw [List.all_eq_true]
  rintro ⟨c, i⟩ hmem
  obtain ⟨hle, hlt, hc⟩ := List.mem_zipIdx hmem
  obtain ⟨k, rfl⟩ := Nat.exists_eq_add_of_le hle
  rw [fitsPlace, if_neg (hstart k (by omega))]
  exact h c (hc ▸ List.getElem_mem _)

/-- A group fits with the hyphen behind it. -/
theorem all_fitsPlace_append {cs more : List Char} {start n : Nat} (h : ∀ c ∈ cs, isHex c = true)
    (hn : cs.length = n) (hstart : ∀ i < n, start + i + 1 ∉ groupStarts)
    (hend : start + n + 1 ∈ groupStarts)
    (hmore : (more.zipIdx (start + n + 1)).all fitsPlace = true) :
    ((cs ++ '-' :: more).zipIdx start).all fitsPlace = true := by
  rw [List.zipIdx_append, List.all_append, all_fitsPlace h hn hstart, Bool.true_and, hn,
    List.zipIdx_cons, List.all_cons, hmore, fitsPlace, if_pos hend]
  rfl

theorem isGrouped_grouped (h : ∀ c ∈ ds, isHex c = true) (hlength : ds.length = 32) :
    isGrouped (grouped ds) = true := by
  have hform (cs : List Char) :
    isGrouped cs = (decide (cs.length = formSize) && cs.zipIdx.all fitsPlace) := rfl
  have hgroup (m n : Nat) : ∀ c ∈ (ds.drop m).take n, isHex c = true :=
    fun c hc => h c (List.mem_of_mem_drop (List.mem_of_mem_take hc))
  have hlen (m n : Nat) (hmn : m + n ≤ 32) : ((ds.drop m).take n).length = n := by
    rw [List.length_take, List.length_drop]; omega
  have hlast : (ds.drop 20).take 12 = ds.drop 20 :=
    List.take_of_length_le (by rw [List.length_drop]; omega)
  have hgrouped : grouped ds = (ds.drop 0).take 8 ++ '-' :: ((ds.drop 8).take 4 ++ '-' ::
      ((ds.drop 12).take 4 ++ '-' :: ((ds.drop 16).take 4 ++ '-' :: (ds.drop 20).take 12))) := by
    rw [hlast, List.drop_zero, grouped]
    simp only [List.append_assoc, List.cons_append]
  rw [hform, hgrouped, Bool.and_eq_true, decide_eq_true_eq]
  constructor
  · simp only [List.length_append, List.length_cons, List.length_take, List.length_drop, hlength]
    rfl
  · refine all_fitsPlace_append (hgroup 0 8) (hlen 0 8 (by decide)) (by decide) (by decide) ?_
    refine all_fitsPlace_append (hgroup 8 4) (hlen 8 4 (by decide)) (by decide) (by decide) ?_
    refine all_fitsPlace_append (hgroup 12 4) (hlen 12 4 (by decide)) (by decide) (by decide) ?_
    refine all_fitsPlace_append (hgroup 16 4) (hlen 16 4 (by decide)) (by decide) (by decide) ?_
    exact all_fitsPlace (hgroup 20 12) (hlen 20 12 (by decide)) (by decide)

/-! ### Reading the written form -/

theorem filter_text (id : ShapeId) : id.text.toList.filter (· ≠ '-') = id.hexDigits := by
  rw [text, String.toList_ofList]
  exact filter_grouped fun c => isHex_of_mem_hexDigits

/-- **Different ids have different texts.** -/
theorem text_injective {id id' : ShapeId} (h : id.text = id'.text) : id = id' := by
  have hdigits : id.hexDigits = id'.hexDigits := by rw [← filter_text, h, filter_text]
  have hnumber : id.number = id'.number := by rw [← ofHex_hexDigits, hdigits, ofHex_hexDigits]
  exact congrArg ShapeId.mk hnumber

/-- A hexadecimal digit is one byte. -/
theorem utf8Size_of_isHex {c : Char} (h : isHex c = true) : c.utf8Size = 1 := by
  have hle {d : Char} (hc : c ≤ d) (hd : d.val ≤ 127) : c.utf8Size = 1 :=
    Char.utf8Size_eq_one_iff.mpr (UInt32.le_trans hc hd)
  unfold isHex hexValue? Json.hexDigit? at h
  dsimp only at h
  split_ifs at h with h1 h2 h3
  · exact hle h1.2 (by decide)
  · exact hle h2.2 (by decide)
  · exact hle h3.2 (by decide)
  · cases h

theorem utf8Len_eq_length : ∀ {cs : List Char}, (∀ c ∈ cs, c.utf8Size = 1) →
    String.utf8Len cs = cs.length
  | [], _ => rfl
  | c :: cs, h => by
    obtain ⟨hc, hcs⟩ := List.forall_mem_cons.mp h
    rw [String.utf8Len_cons, utf8Len_eq_length hcs, hc, List.length_cons]

theorem utf8ByteSize_text (h : id.number < Nat.pow 2 128) : id.text.utf8ByteSize = formSize := by
  have hgrouped := isGrouped_grouped (fun c => isHex_of_mem_hexDigits) (length_hexDigits h)
  have hlength : (grouped id.hexDigits).length = formSize :=
    of_decide_eq_true (Bool.and_eq_true_iff.mp hgrouped).1
  rw [text, String.utf8ByteSize_ofList, utf8Len_eq_length, hlength]
  intro c hc
  by_cases hhyphen : c = '-'
  · rw [hhyphen]; decide
  · have hmem : c ∈ (grouped id.hexDigits).filter (· ≠ '-') :=
      List.mem_filter.mpr ⟨hc, decide_eq_true hhyphen⟩
    rw [filter_grouped fun c => isHex_of_mem_hexDigits] at hmem
    exact utf8Size_of_isHex (isHex_of_mem_hexDigits hmem)

/-- **An id of 128 bits is read from its text.** -/
theorem parse?_text (h : id.number < Nat.pow 2 128) : parse? id.text = some id := by
  have hhex : ∀ c ∈ id.hexDigits, isHex c = true := fun c => isHex_of_mem_hexDigits
  have hgrouped := isGrouped_grouped hhex (length_hexDigits h)
  have hspelling : spelling id.text = .grouped (grouped id.hexDigits) 0 := by
    rw [spelling, if_pos (utf8ByteSize_text h), text, String.toList_ofList]
  rw [parse?, hspelling]
  dsimp only
  rw [if_pos hgrouped, filter_grouped hhex, ofHex_hexDigits]

end Grouped

end Artboard.ShapeId
