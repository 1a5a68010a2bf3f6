import Artboard.Proofs.Json.Unambiguous
import Artboard.Proofs.Shape.Wire

/-! # What the members of shapes tell

Members that stand for absent values or empty lists are left out, and the members of a kind stand
among those of its shape. What was left out and where a kind ends is seen from the keys.

* `Json.Tidy`: in a tree no key of an object occurs twice and all numbers are among given ones.
* `Json.append_inj_of_keys`: members are told from those behind them by their keys.
* `eq_of_toJson`, `eq_of_members`: parts with finite numbers and the same tree are the same.
* `tidy_toJson`, `tidy_members`: trees of parts are tidy. -/

namespace Artboard

/-- All numbers of a list are finite. -/
def Number.AllFinite (xs : List Float) : Prop := ∀ x ∈ xs, x.isFinite = true

instance (xs : List Float) : Decidable (Number.AllFinite xs) :=
  inferInstanceAs (Decidable (∀ x ∈ xs, x.isFinite = true))

open Number (AllFinite)

namespace Json

/-! ### Tidy trees -/

/-- No key of an object in the tree occurs twice, and the numbers in it are among those given. -/
def Tidy (xs : List Float) (j : Json) : Prop :=
  j.Everywhere fun i => i.Distinct ∧ i.FloatsIn (· ∈ xs)

section Tidy
variable {α : Type} {xs : List Float} {j : Json} {js : List Json} {ms : List (String × Json)}
  {key : String} {toJson : α → Json}

theorem Tidy.distinct (h : j.Tidy xs) : j.Everywhere Distinct := h.imp fun _ hi => hi.1

theorem Tidy.floatsIn (h : j.Tidy xs) : j.Everywhere (FloatsIn (· ∈ xs)) := h.imp fun _ hi => hi.2

theorem tidy_string (s : String) : (Json.string s).Tidy xs :=
  everywhere_iff.mpr ⟨⟨trivial, fun _ h => by cases h⟩, fun _ h => h.elim⟩

theorem tidy_int (n : Int) : (Json.int n).Tidy xs :=
  everywhere_iff.mpr ⟨⟨trivial, fun _ h => by cases h⟩, fun _ h => h.elim⟩

theorem tidy_ofFloat {x : Float} (hx : x ∈ xs) : (ofFloat x).Tidy xs := by
  unfold ofFloat
  split_ifs
  · exact everywhere_iff.mpr ⟨⟨trivial, fun _ h => by cases h; exact hx⟩, fun _ h => h.elim⟩
  · exact everywhere_iff.mpr ⟨⟨trivial, fun _ h => by cases h⟩, fun _ h => h.elim⟩

theorem tidy_array (h : ∀ j ∈ js, j.Tidy xs) : (Json.array js).Tidy xs :=
  everywhere_array.mpr ⟨⟨trivial, fun _ h => by cases h⟩, h⟩

theorem tidy_object (hkeys : (keys ms).Nodup) (h : ∀ m ∈ ms, m.2.Tidy xs) :
    (Json.object ms).Tidy xs :=
  everywhere_object.mpr ⟨⟨hkeys, fun _ h => by cases h⟩, h⟩

theorem tidy_ifPresent {o : Option α} (h : ∀ a ∈ o, (toJson a).Tidy xs) :
    ∀ m ∈ ifPresent key toJson o, m.2.Tidy xs := by
  cases o with
  | none => exact List.forall_mem_nil _
  | some a => exact List.forall_mem_singleton.mpr (h a rfl)

theorem tidy_ifNonempty {as : List α} (h : ∀ a ∈ as, (toJson a).Tidy xs) :
    ∀ m ∈ ifNonempty key toJson as, m.2.Tidy xs := by
  cases as with
  | nil => exact List.forall_mem_nil _
  | cons a as =>
    refine List.forall_mem_singleton.mpr (tidy_array ?_)
    exact List.forall_mem_map.mpr h

end Tidy

/-! ### Members that may be left out -/

section Members
variable {α : Type} {ms ns rest rest' : List (String × Json)} {names others : List String}
  {key : String} {toJson : α → Json}

theorem keys_ifPresent (key : String) (toJson : α → Json) (o : Option α) :
    (keys (ifPresent key toJson o)).Sublist [key] := by
  cases o with
  | none => exact List.nil_sublist _
  | some a => exact List.Sublist.refl _

theorem keys_ifNonempty (key : String) (toJson : α → Json) (as : List α) :
    (keys (ifNonempty key toJson as)).Sublist [key] := by
  cases as with
  | nil => exact List.nil_sublist _
  | cons a as => exact List.Sublist.refl _

theorem keys_append (hms : (keys ms).Sublist names) (hns : (keys ns).Sublist others) :
    (keys (ms ++ ns)).Sublist (names ++ others) := by
  rw [keys, List.map_append]
  exact hms.append hns

/-- **Members are told from those behind them by their keys.** -/
theorem append_inj_of_keys (hms : (keys ms).Sublist names) (hns : (keys ns).Sublist names)
    (hrest : (keys rest).Sublist others) (hrest' : (keys rest').Sublist others)
    (hapart : ∀ name ∈ names, name ∉ others) (h : ms ++ rest = ns ++ rest') :
    ms = ns ∧ rest = rest' := by
  have hkept {ms rest : List (String × Json)} (hms : (keys ms).Sublist names)
      (hrest : (keys rest).Sublist others) :
      (ms ++ rest).filter (fun m => m.1 ∈ names) = ms := by
    have hfirst : ms.filter (fun m => m.1 ∈ names) = ms := List.filter_eq_self.mpr
      fun m hm => decide_eq_true (hms.subset (List.mem_map_of_mem hm))
    have hothers : rest.filter (fun m => m.1 ∈ names) = [] := List.filter_eq_nil_iff.mpr
      fun m hm hname => hapart m.1 (of_decide_eq_true hname) (hrest.subset (List.mem_map_of_mem hm))
    rw [List.filter_append, hfirst, hothers, List.append_nil]
  have hsame : ms = ns := by rw [← hkept hms hrest, h, hkept hns hrest']
  rw [hsame] at h
  exact ⟨hsame, List.append_cancel_left h⟩

theorem eq_of_ofFloat {x y : Float} (hx : x.isFinite = true) (hy : y.isFinite = true)
    (h : ofFloat x = ofFloat y) : x = y := by
  rw [ofFloat_of_isFinite hx, ofFloat_of_isFinite hy] at h
  exact Json.float.inj h

theorem eq_of_map : ∀ {as bs : List α}, (∀ a ∈ as, ∀ b ∈ bs, toJson a = toJson b → a = b) →
    as.map toJson = bs.map toJson → as = bs
  | [], [], _, _ => rfl
  | a :: as, b :: bs, hinj, h => by
    obtain ⟨hfirst, hrest⟩ := List.cons.inj h
    rw [hinj a List.mem_cons_self b List.mem_cons_self hfirst,
      eq_of_map (fun a ha b hb => hinj a (List.mem_cons_of_mem _ ha) b (List.mem_cons_of_mem _ hb))
        hrest]

theorem eq_of_ifPresent {o o' : Option α} (hinj : ∀ a ∈ o, ∀ b ∈ o', toJson a = toJson b → a = b)
    (h : ifPresent key toJson o = ifPresent key toJson o') : o = o' := by
  cases o with
  | none => cases o' with
    | none => rfl
    | some b => cases h
  | some a => cases o' with
    | none => cases h
    | some b => rw [hinj a rfl b rfl (Prod.mk.inj (List.cons.inj h).1).2]

theorem eq_of_ifNonempty {as bs : List α} (hinj : ∀ a ∈ as, ∀ b ∈ bs, toJson a = toJson b → a = b)
    (h : ifNonempty key toJson as = ifNonempty key toJson bs) : as = bs := by
  cases as with
  | nil => cases bs with
    | nil => rfl
    | cons b bs => cases h
  | cons a as => cases bs with
    | nil => cases h
    | cons b bs => exact eq_of_map hinj (Json.array.inj (Prod.mk.inj (List.cons.inj h).1).2)

end Members

end Json

open Json (Tidy)

/-! ### Parts of shapes -/

variable {xs : List Float}

namespace ShapeId

theorem eq_of_toJson {id id' : ShapeId} (h : id.toJson = id'.toJson) : id = id' :=
  text_injective (Json.string.inj h)

theorem tidy_toJson (id : ShapeId) : id.toJson.Tidy xs := Json.tidy_string _

end ShapeId

namespace Fill

theorem eq_of_toJson {f g : Fill} (h : f.toJson = g.toJson) : f = g := by
  obtain ⟨color⟩ := f
  obtain ⟨color'⟩ := g
  simpa [toJson] using h

theorem tidy_toJson (f : Fill) : f.toJson.Tidy xs := by
  refine Json.tidy_object (List.nodup_singleton _) ?_
  exact List.forall_mem_singleton.mpr (Json.tidy_string f.color)

end Fill

namespace Stroke
variable {r s : Stroke}

theorem eq_of_toJson (hr : r.width.isFinite = true) (hs : s.width.isFinite = true)
    (h : r.toJson = s.toJson) : r = s := by
  simp only [toJson, Json.object.injEq, List.cons.injEq, Prod.mk.injEq, Json.string.injEq,
    true_and, and_true] at h
  cases r
  cases s
  exact Stroke.mk.injEq .. |>.mpr ⟨h.1, Json.eq_of_ofFloat hr hs h.2⟩

theorem tidy_toJson (h : s.width ∈ xs) : s.toJson.Tidy xs := by
  have hkeys : ["strokeColor", "strokeWidth"].Nodup := by decide
  refine Json.tidy_object hkeys ?_
  simp only [List.forall_mem_cons]
  exact ⟨Json.tidy_string s.color, Json.tidy_ofFloat h, List.forall_mem_nil _⟩

end Stroke

namespace Geometry
variable {g g' : Geometry}

theorem eq_of_toJson (hg : AllFinite g.numbers) (hg' : AllFinite g'.numbers)
    (h : g.toJson = g'.toJson) : g = g' := by
  simp only [AllFinite, numbers, List.forall_mem_cons] at hg hg'
  obtain ⟨hx, hy, hwidth, hheight, -⟩ := hg
  obtain ⟨hx', hy', hwidth', hheight', -⟩ := hg'
  simp only [toJson, Json.object.injEq, List.cons.injEq, Prod.mk.injEq, true_and, and_true] at h
  cases g
  cases g'
  exact Geometry.mk.injEq .. |>.mpr ⟨Json.eq_of_ofFloat hx hx' h.1,
    Json.eq_of_ofFloat hy hy' h.2.1, Json.eq_of_ofFloat hwidth hwidth' h.2.2.1,
    Json.eq_of_ofFloat hheight hheight' h.2.2.2⟩

theorem tidy_toJson (h : g.numbers ⊆ xs) : g.toJson.Tidy xs := by
  have hkeys : ["x", "y", "width", "height"].Nodup := by decide
  simp only [numbers, List.cons_subset] at h
  obtain ⟨hx, hy, hwidth, hheight, -⟩ := h
  refine Json.tidy_object hkeys ?_
  simp only [List.forall_mem_cons]
  exact ⟨Json.tidy_ofFloat hx, Json.tidy_ofFloat hy, Json.tidy_ofFloat hwidth,
    Json.tidy_ofFloat hheight, List.forall_mem_nil _⟩

end Geometry

namespace ShapeKind
variable {k k' : ShapeKind}

/-- The keys among which those of kinds are. -/
def keys : List String := ["type", "content", "fontSize", "fontWeight"]

theorem keys_textMembers (content : String) (fontSize : Option Float) (fontWeight : Option String) :
    (Json.keys (textMembers content fontSize fontWeight)).Sublist
      ["content", "fontSize", "fontWeight"] := by
  rw [textMembers, List.append_nil]
  exact .cons_cons "content" (Json.keys_append (Json.keys_ifPresent ..) (Json.keys_ifPresent ..))

theorem keys_members (k : ShapeKind) : (Json.keys k.members).Sublist keys := by
  cases k with
  | board => exact .cons_cons "type" (List.nil_sublist _)
  | rectangle => exact .cons_cons "type" (List.nil_sublist _)
  | text content fontSize fontWeight =>
    rw [members_text]
    exact .cons_cons "type" (keys_textMembers content fontSize fontWeight)

/-- The tag in the members of a kind. -/
def tag : ShapeKind → String
  | .board => "board"
  | .rectangle => "rectangle"
  | .text .. => "text"

theorem head?_members (k : ShapeKind) : k.members.head? = some ("type", .string k.tag) := by
  cases k <;> rfl

theorem eq_of_textMembers {content content' : String} {fontSize fontSize' : Option Float}
    {fontWeight fontWeight' : Option String} (hsize : AllFinite fontSize.toList)
    (hsize' : AllFinite fontSize'.toList)
    (h : textMembers content fontSize fontWeight = textMembers content' fontSize' fontWeight') :
    content = content' ∧ fontSize = fontSize' ∧ fontWeight = fontWeight' := by
  obtain ⟨hcontent, hfont⟩ := List.cons.inj h
  rw [List.append_nil, List.append_nil] at hfont
  obtain ⟨hfontSize, hfontWeight⟩ := Json.append_inj_of_keys (Json.keys_ifPresent ..)
    (Json.keys_ifPresent ..) (Json.keys_ifPresent ..) (Json.keys_ifPresent ..) (by decide) hfont
  refine ⟨Json.string.inj (Prod.mk.inj hcontent).2, ?_, ?_⟩
  · refine Json.eq_of_ifPresent (fun x hx y hy heq => ?_) hfontSize
    exact Json.eq_of_ofFloat (hsize x (Option.mem_toList.mpr hx))
      (hsize' y (Option.mem_toList.mpr hy)) heq
  · exact Json.eq_of_ifPresent (fun _ _ _ _ heq => Json.string.inj heq) hfontWeight

/-- **A kind is what its members tell.** -/
theorem eq_of_members (hk : AllFinite k.numbers) (hk' : AllFinite k'.numbers)
    (h : k.members = k'.members) : k = k' := by
  have htag : k.tag = k'.tag := by
    have hhead := congrArg List.head? h
    rw [head?_members, head?_members] at hhead
    exact Json.string.inj (Prod.mk.inj (Option.some.inj hhead)).2
  cases k with
  | board => cases k' with
    | board => rfl
    | _ => exact absurd htag (by simp [tag])
  | rectangle => cases k' with
    | rectangle => rfl
    | _ => exact absurd htag (by simp [tag])
  | text content fontSize fontWeight => cases k' with
    | text content' fontSize' fontWeight' =>
      rw [members_text, members_text] at h
      obtain ⟨rfl, rfl, rfl⟩ := eq_of_textMembers hk hk' (List.cons.inj h).2
      rfl
    | _ => exact absurd htag (by simp [tag])

theorem tidy_members (h : k.numbers ⊆ xs) : ∀ m ∈ k.members, m.2.Tidy xs := by
  cases k with
  | board => exact List.forall_mem_singleton.mpr (Json.tidy_string _)
  | rectangle => exact List.forall_mem_singleton.mpr (Json.tidy_string _)
  | text content fontSize fontWeight =>
    rw [members_text]
    simp only [textMembers, List.append_nil, List.forall_mem_cons, List.forall_mem_append]
    refine ⟨Json.tidy_string _, Json.tidy_string _, Json.tidy_ifPresent fun x hx => ?_,
      Json.tidy_ifPresent fun s _ => Json.tidy_string s⟩
    exact Json.tidy_ofFloat (h (Option.mem_toList.mpr hx))

end ShapeKind

end Artboard
