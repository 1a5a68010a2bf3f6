import Artboard.Json.Tagged
import Artboard.Proofs.Json.Reading

/-! # Decoding tagged variants from texts

A tagged variant is split into its tag and the rest in a text just as in the tree as it is written,
and the rest is a tree on both routes.

* `Tagged.toOption_inList`, `Tagged.toOption_inObject`: the two forms of tagged values.
* `faithful_tagged`: the decoder of variants is faithful. -/

namespace Artboard.Json

/-- More steps than a list is long are enough to read it. -/
theorem itemsFrom_of_length_lt {depth : Nat} :
    ∀ {steps steps' index : Nat} {text rest : Text} {js : List Json}, text.length < steps' →
      itemsFrom .keep (written depth) steps index text = .ok (js, rest) →
        itemsFrom .keep (written depth) steps' index text = .ok (js, rest)
  | 0, _, _, _, _, _, _, h => by cases h
  | _ + 1, 0, _, _, _, _, hsteps, _ => absurd hsteps (Nat.not_lt_zero _)
  | steps + 1, steps' + 1, index, text, rest, js, hsteps, h => by
    rcases itemsFrom_cases h with ⟨hnext, rfl⟩ | ⟨t, j, u, js', hnext, hj, hjs, rfl⟩
    · exact itemsFrom_of_close hnext
    · have hlen := (written_eq_ok.mp hj).length_lt
      have hnextlen := hnext.length_le
      have hmore : itemsFrom .keep (written depth) steps' (index + 1) u = .ok (js', rest) :=
        itemsFrom_of_length_lt (by omega) hjs
      rw [← toOption_eq_some, toOption_itemsFrom_of_entry hnext, hj]
      show (itemsFrom .keep (written depth) steps' (index + 1) u).toOption.map _ = _
      rw [hmore]; rfl

namespace Tagged

variable {α : Type} {variants : List (Variant α)} {depth : Nat} {text t u rest : Text} {w : Json}

theorem faithful_tag : (tag variants).Faithful := faithful_scalar (fun _ => rfl) fun _ => rfl

/-- An array is read into what it is split into. -/
theorem toOption_readItems {js : List Json} (type : String)
    (h : items .keep (written depth) text = .ok (js, t)) :
    (readItems variants depth text).toOption =
      (split type variants (.array js)).toOption.map fun read => (read, t) := by
  unfold readItems
  rcases itemsFrom_cases h with ⟨hnext, rfl⟩ | ⟨u, w, u', js', hnext, hw, hjs, rfl⟩
  · have hnext : nextItem .keep true text = .ok (.close, t) := nextItem_eq_ok.mpr hnext
    rw [hnext]; rfl
  · have hnext : nextItem .keep true text = .ok (.entry, u) := nextItem_eq_ok.mpr hnext
    have hitems := itemsFrom_of_length_lt (Nat.lt_succ_self _) hjs
    rw [hnext]
    dsimp only
    have hw : ((tag variants).read depth u).toOption =
        (variant variants w).toOption.map fun v => (v, u') := faithful_tag (written_eq_ok.mp hw)
    rcases toOption_cases hw with ⟨e, m, hread, hv⟩ | ⟨v, hread, hv⟩
    · rw [hread, split, hv]; rfl
    · rw [hread, split, hv]
      dsimp only
      rw [hitems]; rfl

/-- A member is read into the draft into which it is decoded. -/
theorem toOption_readMember {k : String} {draft : Draft α} (h : Written depth text w rest) :
    ((readMember variants depth k draft).toOption.bind fun reader => (reader text).toOption) =
      (ofMember variants draft (k, w)).toOption.map fun draft => (draft, rest) := by
  rw [readMember, ofMember]
  obtain ⟨_ | v, ms⟩ := draft
  · split_ifs with hk
    · show (((tag variants).read depth text).map _).toOption =
        ((variant variants w).map _).toOption.map _
      rw [toOption_map, toOption_map, faithful_tag h, Option.map_map, Option.map_map]; rfl
    · show ((written depth text).map _).toOption = _
      rw [written_eq_ok.mpr h]; rfl
  · split_ifs with hk
    · rfl
    · show ((written depth text).map _).toOption = _
      rw [written_eq_ok.mpr h]; rfl

/-- An object is read into what it is split into. -/
theorem toOption_readMembers {ms : List (String × Json)} (type : String)
    (h : members (keepMember (written depth)) [] text = .ok (ms.reverse, t)) :
    (readMembers variants depth text).toOption =
      (split type variants (.object ms)).toOption.map fun read => (read, t) := by
  obtain ⟨ns, hns, hread⟩ : ∃ ns : List (String × Json), ms.reverse = ns.reverse ++ [] ∧
      (members (readMember variants depth) (none, []) text).toOption =
        (ns.foldlM (fun draft m => (ofMember variants draft m).toOption) (none, [])).map
          fun draft => (draft, t) :=
    toOption_membersFrom (fun h => (written_eq_ok.mp h).length_lt.le) id
      (fun _ h => toOption_readMember (written_eq_ok.mp h)) le_rfl h
  obtain rfl : ms = ns := List.reverse_injective (by rw [hns, List.append_nil])
  rw [← Fields.toOption_foldlM] at hread
  rw [readMembers, split]
  rcases toOption_cases hread with ⟨e, m, hread, hdraft⟩ | ⟨draft, hread, hdraft⟩
  · rw [hread, hdraft]; rfl
  · rw [hread, hdraft]
    dsimp only
    cases finish draft <;> rfl

/-- A closed array is read into what it is split into. -/
theorem toOption_inList {js : List Json} (type : String) (variants : List (Variant α)) (g : Glyph)
    (hitems : items .keep (written depth) text = .ok (js, t)) (hclose : closeList t = .ok rest) :
    (inList (within (readItems variants) (depth + 1)) (g :: text)).toOption =
      (split type variants (.array js)).toOption.map fun read => (read, rest) := by
  show (inList (some (readItems variants depth)) (g :: text)).toOption = _
  rw [inList, toOption_enclosed, toOption_readItems type hitems, bind_closed, hclose]; rfl

/-- A closed object is read into what it is split into. -/
theorem toOption_inObject {ms : List (String × Json)} (type : String)
    (variants : List (Variant α)) (g : Glyph)
    (hmembers : members (keepMember (written depth)) [] text = .ok (ms.reverse, t))
    (hclose : closeObject t = .ok rest) :
    (inObject (within (readMembers variants) (depth + 1)) (g :: text)).toOption =
      (split type variants (.object ms)).toOption.map fun read => (read, rest) := by
  show (inObject (some (readMembers variants depth)) (g :: text)).toOption = _
  rw [inObject, toOption_enclosed, toOption_readMembers type hmembers, bind_closed, hclose]; rfl

end Tagged

/-- **A variant is read from a text as it is decoded from the tree as it is written.** -/
theorem faithful_tagged {α : Type} {name : String} {variants : List (Variant α)} :
    (Decoder.tagged name variants).Faithful := by
  intro depth text rest w h
  unfold Decoder.tagged
  dsimp only
  cases h with
  | scalar h =>
    have hw : ((Decoder.tagged name variants).ofJson .value w).toOption = none := by
      cases w with
      | array js => exact absurd rfl (h.ne_array js)
      | object ms => exact absurd rfl (h.ne_object ms)
      | _ => rfl
    refine Eq.trans ?_ (congrArg (Option.map _) hw).symm
    split
    · rfl
    · -- no scalar has a tag
      rename_i hread
      split at hread
      · rename_i hblank; exact absurd hblank (h.ne_bracket _).1
      · rename_i hblank; exact absurd hblank (h.ne_bracket _).2
      · have hnone : (Decoder.refuse ("internally tagged enum " ++ name) text.skipBlank :
            Except Failure ((Variant α × Json) × Text)).toOption = none := toOption_refuse ..
        rw [hread] at hnone
        cases hnone
  | array hopen hitems hclose =>
    have hlist := Tagged.toOption_inList ("internally tagged enum " ++ name) variants (.char '[')
      hitems hclose
    simp only [hopen]
    rcases toOption_cases hlist with ⟨e, m, hr, hw⟩ | ⟨⟨v, j⟩, hr, hw⟩
    · rw [hr, hw]; rfl
    · rw [hr, hw]
      dsimp only
      cases v.ofRest j <;> rfl
  | object hopen hmembers hclose =>
    have hobject := Tagged.toOption_inObject ("internally tagged enum " ++ name) variants
      (.char '\x7b') hmembers hclose
    simp only [hopen]
    rcases toOption_cases hobject with ⟨e, m, hr, hw⟩ | ⟨⟨v, j⟩, hr, hw⟩
    · rw [hr, hw]; rfl
    · rw [hr, hw]
      dsimp only
      cases v.ofRest j <;> rfl

end Artboard.Json
