import Artboard.Proofs.Drawing.Discipline
import Artboard.Proofs.Service.Exclusion

/-! # Whose shapes are whose

* `Plan.KeepsTo`: a plan is about shapes that are known or that it creates itself.
* `Did`: what an action does to the document.
* `Spent`, `Keeping`, `Families`, `Stacked`: no id is given twice, a drawing is only about shapes of
  its own, a child and its board come from one request, and the shapes of one request stand together
  in the order of creation. Each of these is so in all runs. -/

namespace Artboard

/-! ### Plans about shapes of their own -/

namespace Plan

variable {α : Type} {known : List ShapeId}

/-- Each call of a plan is about shapes that are known or that the plan has created. -/
def KeepsTo (known : List ShapeId) (p : Plan α) : Prop :=
  ∀ log a, p.Transcript log (.ok a) → Sourced known log

theorem KeepsTo.created {p : Primitive} {next : ShapeId → Plan α}
    (h : KeepsTo known (.create p next)) (id : ShapeId) : KeepsTo (known ++ [id]) (next id) :=
  fun _ a hlog => (h _ a (.created id hlog)).2

theorem KeepsTo.changed {c : Edit} {next : Plan α} (h : KeepsTo known (.edit c next)) :
    KeepsTo known next := fun _ a hlog => by
  have hrest : Sourced (known ++ []) _ := (h _ a (.changed hlog)).2
  rwa [List.append_nil] at hrest

theorem KeepsTo.mentions {c : Edit} {next : Plan α} (h : KeepsTo known (.edit c next)) :
    ∀ id ∈ (Entry.changed c).mentions, id ∈ known := by
  obtain ⟨log, a, hlog, -⟩ := exists_transcript next []
  exact (h _ a (.changed hlog)).1

theorem KeepsTo.looked {next : Point → Plan α} (h : KeepsTo known (.center next)) (c : Point) :
    KeepsTo known (next c) := fun _ a hlog => h _ a (.looked c hlog)

end Plan

theorem Screen.keepsTo_draw (s : Screen) : s.draw.KeepsTo [] := fun _ _ hlog => by
  obtain ⟨parts, rfl, -⟩ := transcript_screen hlog
  exact sourced_script _ parts

namespace Service

open Document (WellFormed)

/-! ### What is done to the document -/

/-- What an action does to the document. -/
inductive Did (d : Document) : Action → Document → Prop
  | created (p : Primitive) : Did d (.call (.created p d.nextId)) (d.create p).2
  | changed {c : Edit} {e : Document} (ok : d.edit c = .ok e) : Did d (.call (.changed c)) e
  | cleared : Did d .clear d.clear
  | left {a : Action} (made : a.made = []) : Did d a d

variable {ι : Type} [DecidableEq ι] {asked : ι → Writer} {es : Trace ι} {f g : Traffic ι} {i j : ι}
  {a : Action} {s t : State} {d e : Document}

theorem did_of_turn {p q : Phase} (h : Turn p s a q t) : Did s.canvas a t.canvas := by
  cases h with
  | create call => cases call; exact .created _
  | @edit c next s answer d call =>
    simp only [Document.canvas] at call
    cases hc : s.canvas.edit c with
    | ok e => rw [hc] at call; cases call; exact .changed hc
    | error e => rw [hc] at call; cases call; exact .left rfl
  | clear => exact .cleared
  | _ => exact .left rfl

theorem did_wellFormed (h : Did d a e) (hd : WellFormed d) : WellFormed e := by
  cases h with
  | created p => exact hd.create p
  | changed ok => exact hd.change (Document.change_edit ok)
  | cleared => exact hd.change .clear
  | left => exact hd

theorem made_concat_of_nil (es : Trace ι) (i j : ι) (h : a.made = []) :
    made (es ++ [(i, a)]) j = made es j := by rw [made_concat, h, ite_self, List.append_nil]

theorem mem_made_created {p : Primitive} {new id : ShapeId} :
    id ∈ made (es ++ [(i, .call (.created p new))]) j ↔ id ∈ made es j ∨ (j = i ∧ id = new) := by
  rw [made_concat, List.mem_append]
  split_ifs with h <;> simp [Action.made, Entry.made, h, eq_comm]

theorem made_sublist (es : Trace ι) (e : ι × Action) (i : ι) :
    (made es i).Sublist (made (es ++ [e]) i) := by
  obtain ⟨j, a⟩ := e
  rw [made_concat]
  exact List.sublist_append_left ..

/-! ### No id is given twice -/

/-- **The ids of created shapes are not given again**, and no two clients have one in common. -/
structure Spent (es : Trace ι) (d : Document) : Prop where
  wellFormed : WellFormed d
  spent : ∀ i, ∀ id ∈ made es i, ∃ n < d.created, id = d.ids.id n
  apart : ∀ i j id, id ∈ made es i → id ∈ made es j → i = j

theorem Spent.fresh (h : Spent es d) (i : ι) : d.nextId ∉ made es i := fun hid => by
  obtain ⟨n, hn, heq⟩ := h.spent i _ hid
  have := d.ids.distinct _ _ heq
  omega

theorem Spent.step (h : Spent es d) (hdid : Did d a e) (i : ι) : Spent (es ++ [(i, a)]) e := by
  have hwell := did_wellFormed hdid h.wellFormed
  have hsame {e : Document} (hmade : a.made = []) (hids : e.ids = d.ids)
      (hcreated : e.created = d.created) (hwell : WellFormed e) : Spent (es ++ [(i, a)]) e := by
    refine ⟨hwell, fun j => ?_, fun j k => ?_⟩
    · rw [made_concat_of_nil es i j hmade, hids, hcreated]
      exact h.spent j
    · rw [made_concat_of_nil es i j hmade, made_concat_of_nil es i k hmade]
      exact h.apart j k
  cases hdid with
  | created p =>
    refine ⟨hwell, fun j id hid => ?_, fun j k id hj hk => ?_⟩
    · rcases mem_made_created.mp hid with hid | ⟨-, rfl⟩
      · obtain ⟨n, hn, rfl⟩ := h.spent j id hid
        exact ⟨n, Nat.lt_succ_of_lt hn, rfl⟩
      · exact ⟨d.created, Nat.lt_succ_self _, rfl⟩
    · rcases mem_made_created.mp hj with hj | ⟨hji, hj⟩ <;>
        rcases mem_made_created.mp hk with hk | ⟨hki, hk⟩
      · exact h.apart j k id hj hk
      · exact absurd (hk ▸ hj) (h.fresh j)
      · exact absurd (hj ▸ hk) (h.fresh k)
      · exact hji.trans hki.symm
  | changed ok =>
    obtain ⟨hids, hcreated, -⟩ := Document.order_edit ok
    exact hsame rfl hids hcreated hwell
  | cleared => exact hsame rfl rfl rfl hwell
  | left made => exact hsame made rfl rfl hwell

/-! ### Drawings keep to their own shapes -/

/-- **What is left of a drawing is about its own shapes**, and a reset makes none. -/
structure Keeping (es : Trace ι) (f : Traffic ι) : Prop where
  drawing : ∀ i plan, f.phase i = .drawing (.ok plan) → plan.KeepsTo (made es i)
  clearing : ∀ i, f.phase i = .clearing → made es i = []

theorem keepsTo_of_turn {p q : Phase} {known : List ShapeId} (h : Turn p s a q t)
    (hp : ∀ plan, p = .drawing (.ok plan) → plan.KeepsTo known)
    (hnew : a = .acquire → known = []) {plan : Plan Drawing} (hq : q = .drawing (.ok plan)) :
    plan.KeepsTo (known ++ a.made) := by
  cases h with
  | acquire job =>
    obtain rfl := hnew rfl
    cases job <;> cases hq
    exact Screen.keepsTo_draw _
  | @create _ _ _ answer _ call =>
    cases answer <;> cases hq
    exact (hp _ rfl).created _
  | @edit _ _ _ answer _ call =>
    cases answer <;> cases hq
    simpa [Canvas.change, Action.made, Entry.made] using (hp _ rfl).changed
  | look next =>
    cases hq
    simpa [Action.made] using (hp _ rfl).looked _
  | _ => cases hq

theorem acquire_of_turn {p q : Phase} (h : Turn p s a q t) (hq : q = .clearing) :
    a = .acquire := by
  cases h with
  | acquire job => rfl
  | _ => cases hq

theorem clearing_of_turn {p q : Phase} (h : Turn p s .clear q t) : p = .clearing := by
  cases h; rfl

/-- **A step keeps it.** -/
theorem Keeping.step (h : Keeping es f) (hstep : Step f (i, a) g)
    (hnew : a = .acquire → made es i = []) : Keeping (es ++ [(i, a)]) g := by
  have hmade (j : ι) (hj : j ≠ i) : made (es ++ [(i, a)]) j = made es j := by
    rw [made_concat, if_neg (Ne.symm hj), List.append_nil]
  refine ⟨fun j plan hj => ?_, fun j hj => ?_⟩ <;> by_cases hne : j = i
  · subst hne
    rw [made_concat, if_pos rfl]
    exact keepsTo_of_turn hstep.turn (h.drawing j) hnew hj
  · rw [hmade j hne]
    exact h.drawing j plan (hstep.others j hne ▸ hj)
  · subst hne
    have hacquire : a = .acquire := acquire_of_turn hstep.turn hj
    rw [made_concat, hnew hacquire, hacquire]
    simp [Action.made]
  · rw [hmade j hne]
    exact h.clearing j (hstep.others j hne ▸ hj)

/-- A call of a drawing is about its own shapes. -/
theorem mentions_of_turn {p q : Phase} {known : List ShapeId} {entry : Entry}
    (h : Turn p s (.call entry) q t) (hp : ∀ plan, p = .drawing (.ok plan) → plan.KeepsTo known) :
    ∀ id ∈ entry.mentions, id ∈ known := by
  cases h with
  | @create _ _ _ answer _ call => cases answer <;> exact List.forall_mem_nil _
  | @edit _ _ _ answer _ call => cases answer <;> exact (hp _ rfl).mentions

/-! ### A child and its board -/

/-- **A child and its board come from one request**, or both were there before. -/
def Families (es : Trace ι) (d : Document) : Prop :=
  ∀ child parent, d.parent? child = some parent → ∀ i, child ∈ made es i ↔ parent ∈ made es i

theorem Families.step (h : Families es d) (hspent : Spent es d) (hdid : Did d a e)
    (hmentions : ∀ entry, a = .call entry → ∀ id ∈ entry.mentions, id ∈ made es i) :
    Families (es ++ [(i, a)]) e := by
  have hd := hspent.wellFormed
  intro child parent hparent j
  cases hdid with
  | created p =>
    -- the new shape has no parent, and it is nobody's parent
    rw [Document.parent?_create hd.get?_nextId] at hparent
    obtain ⟨-, b, hb, -⟩ := hd.parent_board child parent hparent
    have hp : parent ≠ d.nextId := fun heq => by rw [heq, hd.get?_nextId] at hb; cases hb
    have hc : child ≠ d.nextId := fun heq => by
      rw [heq, Document.parent?, hd.get?_nextId] at hparent; cases hparent
    rw [mem_made_created, mem_made_created]
    simp [hp, hc, h child parent hparent j]
  | changed ok =>
    rw [made_concat_of_nil es i j rfl]
    rcases Document.parent?_edit ok child with hsame | ⟨p, rfl, hnew⟩
    · exact h child parent (hsame ▸ hparent) j
    · obtain rfl : p = parent := Option.some.inj (hnew.symm.trans hparent)
      have hown := hmentions _ rfl
      have hp : p ∈ made es i := hown p (by simp [Entry.mentions, Entry.call])
      have hc : child ∈ made es i := hown child (by simp [Entry.mentions, Entry.call])
      exact ⟨fun hj => hspent.apart i j child hc hj ▸ hp, fun hj => hspent.apart i j p hp hj ▸ hc⟩
  | cleared => cases hparent
  | left hmade =>
    rw [made_concat_of_nil es i j hmade]
    exact h child parent hparent j

/-! ### The order of creation -/

/-- **The shapes that are there**, in the order of creation: those that were there before, and then
those of one request after another. After a reset only those of later requests are there. -/
def Stacked (es : Trace ι) (f : Traffic ι) : Prop :=
  ∃ old gone here, acquired es = gone ++ here ∧
    (∀ i, f.holder = some i → ∃ before, here = before ++ [i]) ∧
    f.state.canvas.order = old ++ here.flatMap (made es) ∧ (gone = [] ∨ old = [])

/-- Who works on the document has it. -/
theorem holder_of_onHost (hheld : Held es f) (hstep : Step f (i, a) g) (ha : a.onHost = true) :
    f.holder = some i := by
  cases hstep.kind with
  | works _ inside => exact (hheld.holder i).mpr inside
  | enters acquire => exact absurd acquire (Action.ne_acquire ha)
  | leaves release => rw [release] at ha; cases ha
  | ends _ host => rw [ha] at host; cases host

/-- **A step keeps it.** -/
theorem Stacked.step (h : Stacked es f) (hqueued : Queued asked es f) (hheld : Held es f)
    (hkeeping : Keeping es f) (hstep : Step f (i, a) g) (hnew : a = .acquire → made es i = []) :
    Stacked (es ++ [(i, a)]) g := by
  obtain ⟨old, gone, here, hacquired, hlast, horder, hfirst⟩ := h
  have hsame (ha : a ≠ .acquire) : acquired (es ++ [(i, a)]) = acquired es :=
    (acquired_concat ..).trans (if_neg ha)
  -- nothing is created or removed
  have hquiet (hnone : a.made = []) (hcanvas : g.state.canvas.order = f.state.canvas.order) :
      Stacked (es ++ [(i, a)]) g := by
    have hmade : made (es ++ [(i, a)]) = made es :=
      funext fun j => made_concat_of_nil es i j hnone
    by_cases ha : a = .acquire
    · refine ⟨old, gone, here ++ [i], ?_, fun j hj => ?_, ?_, hfirst⟩
      · rw [acquired_concat, if_pos ha, hacquired, List.append_assoc]
      · rw [hstep.holder, ha] at hj
        cases hj
        exact ⟨here, rfl⟩
      · rw [hcanvas, horder, hmade, List.flatMap_append]
        simp [hnew ha]
    · refine ⟨old, gone, here, by rw [hsame ha, hacquired], fun j hj => hlast j ?_,
        by rw [hcanvas, horder, hmade], hfirst⟩
      rw [hstep.holder] at hj
      cases a with
      | acquire => exact absurd rfl ha
      | release => cases hj
      | _ => exact hj
  have hholder (host : a.onHost = true) : g.holder = some i := by
    have hhas := holder_of_onHost hheld hstep host
    cases hstep.kind with
    | enters _ _ _ _ _ holder => exact holder
    | works _ _ _ holder | ends _ _ _ _ _ holder => exact holder.trans hhas
    | leaves release => rw [release] at host; cases host
  have hdid := did_of_turn hstep.turn
  generalize hd : f.state.canvas = d at hdid hquiet horder
  generalize he : g.state.canvas = e at hdid hquiet
  cases hdid with
  | created p =>
    obtain ⟨before, rfl⟩ := hlast i (holder_of_onHost hheld hstep rfl)
    have hothers : before.flatMap (made (es ++ [(i, .call (.created p d.nextId))])) =
        before.flatMap (made es) := by
      refine List.flatMap_congr fun j hj => ?_
      have hne : i ≠ j := fun heq => by
        have hnodup := hqueued.nodup
        rw [hacquired] at hnodup
        grind
      rw [made_concat, if_neg hne, List.append_nil]
    refine ⟨old, gone, before ++ [i], (hsame (by simp)).trans hacquired, fun j hj => ?_, ?_, hfirst⟩
    · rw [hholder rfl] at hj
      cases hj
      exact ⟨before, rfl⟩
    · rw [he, Document.order_create, horder, List.flatMap_append, List.flatMap_append, hothers]
      simp [made_concat, Action.made, Entry.made]
  | changed ok => exact hquiet rfl (Document.order_edit ok).2.2
  | cleared =>
    obtain ⟨before, rfl⟩ := hlast i (holder_of_onHost hheld hstep rfl)
    have hnone : made (es ++ [(i, .clear)]) i = [] := by
      rw [made_concat_of_nil es i i rfl]
      exact hkeeping.clearing i (clearing_of_turn hstep.turn)
    refine ⟨[], gone ++ before, [i], ?_, fun j hj => ?_, ?_, .inr rfl⟩
    · rw [hsame (by simp), hacquired, List.append_assoc]
    · rw [hholder rfl] at hj
      cases hj
      exact ⟨[], rfl⟩
    · rw [he, List.flatMap_singleton, hnone]; rfl
  | left hmade => exact hquiet hmade rfl

/-! ### Runs -/

/-- Only who got the document has created shapes. -/
theorem mem_acquired_of_made (hheld : Held es f) {id : ShapeId} (hid : id ∈ made es i) :
    i ∈ acquired es := by
  obtain ⟨e, he, hmade⟩ := List.mem_flatMap.mp hid
  split_ifs at hmade with hi
  · subst hi
    refine hheld.batched.mem (List.mem_filter.mpr ⟨he, ?_⟩)
    generalize e.2 = a at hmade
    cases a with
    | call entry => rfl
    | _ => cases hmade
  · cases hmade

/-- Who gets the document has not created any shapes. -/
theorem made_of_acquire (hqueued : Queued asked es f) (hheld : Held es f)
    (hstep : Step f (i, a) g) (ha : a = .acquire) : made es i = [] := by
  rw [List.eq_nil_iff_forall_not_mem]
  intro id hid
  have hbegun := ((hqueued.mem_acquired i).mp (mem_acquired_of_made hheld hid)).2
  exact hbegun (hstep.turn.acquire_iff.mp ha)

/-- **Whose shapes are whose**, at any time. -/
structure Owned (es : Trace ι) (f : Traffic ι) : Prop where
  spent : Spent es f.state.canvas
  keeping : Keeping es f
  families : Families es f.state.canvas
  stacked : Stacked es f
  own : ∀ i entry, (i, .call entry) ∈ es → ∀ id ∈ entry.mentions, id ∈ made es i

theorem owned_run (hs : WellFormed s.canvas) (hrun : Run (.opening asked s) es f) :
    Owned es f := by
  induction hrun with
  | still =>
    refine ⟨⟨hs, by simp [made], by simp [made]⟩, ⟨fun i plan hi => ?_, fun _ _ => rfl⟩,
      fun _ _ _ _ => by simp [made],
      ⟨s.canvas.order, [], [], rfl, by simp [Traffic.opening], by simp [Traffic.opening], .inl rfl⟩,
      by simp⟩
    have hphase : (asked i).phase = .drawing (.ok plan) := hi
    obtain ⟨_, h⟩ | ⟨_, h⟩ | ⟨_, h⟩ := (asked i).phase_cases <;> rw [h] at hphase <;> cases hphase
  | @step es e f g hrun hstep ih =>
    obtain ⟨i, a⟩ := e
    have hqueued := queued_run hrun
    have hheld := held_run hrun
    have hnew := made_of_acquire hqueued hheld hstep
    have hdid := did_of_turn hstep.turn
    have hmentions (entry : Entry) (ha : a = .call entry) : ∀ id ∈ entry.mentions, id ∈ made es i :=
      mentions_of_turn (ha ▸ hstep.turn) (ih.keeping.drawing i)
    refine ⟨ih.spent.step hdid i, ih.keeping.step hstep hnew,
      ih.families.step ih.spent hdid hmentions,
      ih.stacked.step hqueued hheld ih.keeping hstep hnew, fun j entry hj id hid => ?_⟩
    refine (made_sublist es (i, a) j).subset ?_
    rcases List.mem_append.mp hj with hj | hj
    · exact ih.own j entry hj id hid
    · cases List.mem_singleton.mp hj
      exact hmentions entry rfl id hid

/-- **The shapes of one request stand together in the order of creation**, or all of them were
removed. -/
theorem Owned.together (h : Owned es f) (hheld : Held es f) (i : ι) :
    made es i <:+: f.state.canvas.order ∨ ∀ id ∈ made es i, id ∉ f.state.canvas.order := by
  obtain ⟨old, gone, here, hacquired, -, horder, hfirst⟩ := h.stacked
  by_cases hi : i ∈ here
  · obtain ⟨before, later, rfl⟩ := List.append_of_mem hi
    refine .inl ⟨old ++ before.flatMap (made es), later.flatMap (made es), ?_⟩
    simp [horder]
  · refine .inr fun id hid hmem => ?_
    have hgone : i ∈ gone := by
      have hmem := mem_acquired_of_made hheld hid
      rw [hacquired, List.mem_append] at hmem
      exact hmem.resolve_right hi
    rcases hfirst with rfl | rfl
    · cases hgone
    · rw [horder, List.nil_append, List.mem_flatMap] at hmem
      obtain ⟨j, hj, hjd⟩ := hmem
      exact hi (h.spent.apart i j id hid hjd ▸ hj)

end Service

end Artboard
