import Artboard.Proofs.Service.Clients

/-! # One request after another has the document

* `Batched`: what several clients did is what one did, then what another did, and so on.
* `Queued`, `Held`: who got the document so far, who has it, and what was done with it.
  `queued_run`, `held_run`: this is so in all runs.
* `frees_of_inside`: who has the document can go on alone until it is given back, also where a call
  is refused.
* `answerable`: so each request can be answered. -/

namespace Artboard.Service

variable {ι : Type} {asked : ι → Writer} {es : Trace ι} {f g h : Traffic ι} {i : ι} {a : Action}
  {e : ι × Action} {s : State}

/-! ### Runs -/

theorem Run.trans {ds : Trace ι} (hrun : Run f es g) (hmore : Run g ds h) :
    Run f (es ++ ds) h := by
  induction hmore with
  | still => rw [List.append_nil]; exact hrun
  | step _ hstep ih => rw [← List.append_assoc]; exact .step ih hstep

theorem Run.cons (hstep : Step f e g) (hrun : Run g es h) : Run f (e :: es) h :=
  (Run.still.step hstep).trans hrun

/-! ### Batches -/

section Exclusion
variable [DecidableEq ι]

/-- What is left tells how often a request is still going to do things of some kind. -/
def Foretells (left : Phase → ℕ) (does : Action → Bool) : Prop :=
  ∀ p s a q t, Turn p s a q t → (if does a then 1 else 0) + left q = left p

/-- **How often a client did something** is how often it was going to, less how often it still
is. -/
theorem count_run {left : Phase → ℕ} {does : Action → Bool} (hleft : Foretells left does)
    (hrun : Run (.opening asked s) es f) (i : ι) :
    (who does es).count i + left (f.phase i) = left (asked i).phase := by
  induction hrun with
  | still => rw [who]; exact Nat.zero_add _
  | @step es e g h hrun hstep ih =>
    obtain ⟨j, a⟩ := e
    by_cases hj : i = j
    · subst hj
      have hturn := hleft _ _ _ _ _ hstep.turn
      rw [who_concat, ← ih]
      simp only at hturn
      split_ifs at hturn ⊢ <;> simp <;> omega
    · rw [hstep.others i hj, ← ih, who_concat]
      split_ifs <;> simp [Ne.symm hj]

/-- What was done stands together client by client, in some order of the clients. -/
def Batched (order : List ι) (es : Trace ι) : Prop :=
  es = order.flatMap fun i => es.filter fun e => e.1 = i

theorem Batched.mem {order : List ι} (h : Batched order es) (he : e ∈ es) : e.1 ∈ order := by
  rw [h, List.mem_flatMap] at he
  obtain ⟨i, hi, he⟩ := he
  obtain rfl : e.1 = i := by simpa using (List.mem_filter.mp he).2
  exact hi

/-- The next client has done nothing so far. -/
theorem Batched.enter {order : List ι} (h : Batched order es) (hi : i ∉ order) :
    Batched (order ++ [i]) es := by
  have hnone : (es.filter fun e => e.1 = i) = [] := by
    rw [List.filter_eq_nil_iff]
    intro e he heq
    obtain rfl : e.1 = i := by simpa using heq
    exact hi (h.mem he)
  rw [Batched, List.flatMap_append, ← h]
  simp [hnone]

/-- The last client goes on. -/
theorem Batched.concat {before : List ι} (h : Batched (before ++ [i]) es) (hi : i ∉ before)
    (a : Action) : Batched (before ++ [i]) (es ++ [(i, a)]) := by
  have hothers : (before.flatMap fun j => (es ++ [(i, a)]).filter fun e => e.1 = j) =
      before.flatMap fun j => es.filter fun e => e.1 = j := by
    refine List.flatMap_congr fun j hj => ?_
    have hne : i ≠ j := fun heq => hi (heq ▸ hj)
    simp [hne]
  have hes : es = (before.flatMap fun j => es.filter fun e => e.1 = j) ++
      es.filter fun e => e.1 = i := by
    have h' := h
    rw [Batched, List.flatMap_append] at h'
    simpa using h'
  rw [Batched, List.flatMap_append, hothers]
  have hlast : ([i].flatMap fun j => (es ++ [(i, a)]).filter fun e => e.1 = j) =
      (es.filter fun e => e.1 = i) ++ [(i, a)] := by simp
  rw [hlast, ← List.append_assoc, ← hes]

/-! ### Who has the document -/

/-- **Who got the document so far**: all that had to wait for it and wait no more, each once. -/
structure Queued (asked : ι → Writer) (es : Trace ι) (f : Traffic ι) : Prop where
  /-- Who waits has not begun. -/
  waiting : ∀ i, (f.phase i).stage = .before → f.phase i = (asked i).phase
  mem_acquired : ∀ i, i ∈ acquired es ↔
    (asked i).phase.stage = .before ∧ (f.phase i).stage ≠ .before
  nodup : (acquired es).Nodup

/-- How often a request is still going to get the document. -/
def Phase.waits (p : Phase) : ℕ := if p.stage = .before then 1 else 0

theorem foretells_waits : Foretells Phase.waits fun a => a = .acquire := by
  intro p s a q t h
  simp [Phase.waits, h.acquire_iff, h.stage_ne_before]

omit [DecidableEq ι] in
theorem waiting_run (hrun : Run (.opening asked s) es f) (i : ι) :
    (f.phase i).stage = .before → f.phase i = (asked i).phase := by
  induction hrun with
  | still => exact fun _ => rfl
  | @step _ e _ _ _ hstep ih =>
    intro hi
    have hne : i ≠ e.1 := fun heq => hstep.turn.stage_ne_before (heq ▸ hi)
    rw [hstep.others i hne] at hi ⊢
    exact ih hi

theorem queued_run (hrun : Run (.opening asked s) es f) : Queued asked es f := by
  have hcount (i : ι) : (acquired es).count i + (f.phase i).waits = (asked i).phase.waits :=
    count_run foretells_waits hrun i
  refine ⟨waiting_run hrun, fun i => ?_, List.nodup_iff_count_le_one.mpr fun i => ?_⟩
  · have hi := hcount i
    have hwaiting := waiting_run hrun i
    rw [← List.count_pos_iff]
    unfold Phase.waits at hi
    split_ifs at hi <;> simp_all
  · have hi := hcount i
    unfold Phase.waits at hi
    split_ifs at hi <;> omega

/-- **Who has the document, and what was done with it.** -/
structure Held (es : Trace ι) (f : Traffic ι) : Prop where
  /-- Nobody else is inside. -/
  holder : ∀ i, f.holder = some i ↔ (f.phase i).stage = .inside
  /-- Whoever has the document got it last. -/
  last : ∀ i, f.holder = some i → ∃ before, acquired es = before ++ [i]
  batched : Batched (acquired es) (onHost es)

theorem held_opening (asked : ι → Writer) (s : State) : Held [] (Traffic.opening asked s) where
  holder i := by
    have hstage := (asked i).stage_phase
    constructor
    · intro h; cases h
    · intro hin
      rw [show (asked i).phase.stage = .inside from hin] at hstage
      simp at hstage
  last i h := by cases h
  batched := rfl

omit [DecidableEq ι] in
theorem holder_of_step (h : ∀ j, f.holder = some j ↔ (f.phase j).stage = .inside)
    (hstep : Step f (i, a) g) (j : ι) : g.holder = some j ↔ (g.phase j).stage = .inside := by
  have hi := h i
  by_cases hj : j = i
  · subst hj
    cases hstep.kind with
    | enters _ _ _ inside _ holder => simp [holder, inside]
    | works _ inside still holder => simp [holder, hi, inside, still]
    | leaves _ _ after _ holder => simp [holder, after]
    | ends _ _ past after _ holder => simp [holder, hi, past, after]
  · rw [hstep.others j hj, ← h]
    cases hstep.kind with
    | enters _ free _ _ _ holder => simp [holder, free, Ne.symm hj]
    | leaves _ inside _ _ holder => simp [holder, hi.mpr inside, Ne.symm hj]
    | works _ _ _ holder | ends _ _ _ _ _ holder => rw [holder]

/-- **A step keeps it.** -/
theorem Held.step (h : Held es f) (hqueued : Queued asked es f) (hstep : Step f (i, a) g) :
    Held (es ++ [(i, a)]) g := by
  have hholder := holder_of_step h.holder hstep
  cases hstep.kind with
  | enters acquire _ before _ _ holder =>
    have hnew : i ∉ acquired es := fun hi => ((hqueued.mem_acquired i).mp hi).2 before
    subst acquire
    refine ⟨hholder, fun j hj => ?_, ?_⟩ <;> rw [acquired_concat, if_pos rfl]
    · rw [holder] at hj
      cases hj
      exact ⟨_, rfl⟩
    · rw [onHost_concat, if_neg (by simp [Action.onHost])]
      exact h.batched.enter hnew
  | works host inside _ holder =>
    obtain ⟨before, hbefore⟩ := h.last i ((h.holder i).mpr inside)
    have hnew : i ∉ before := fun hi => by
      have hnodup := hqueued.nodup
      rw [hbefore] at hnodup
      grind
    refine ⟨hholder, fun j hj => ?_, ?_⟩ <;> rw [acquired_concat, if_neg (Action.ne_acquire host)]
    · exact h.last j (holder ▸ hj)
    · have hbatched := h.batched
      rw [hbefore] at hbatched
      rw [hbefore, onHost_concat, if_pos host]
      exact hbatched.concat hnew a
  | leaves release _ _ _ holder =>
    subst release
    refine ⟨hholder, fun j hj => ?_, ?_⟩ <;> rw [acquired_concat, if_neg (by simp)]
    · rw [holder] at hj
      cases hj
    · rw [onHost_concat, if_neg (by simp [Action.onHost])]
      exact h.batched
  | ends acquire host _ _ _ holder =>
    refine ⟨hholder, fun j hj => ?_, ?_⟩ <;> rw [acquired_concat, if_neg acquire]
    · exact h.last j (holder ▸ hj)
    · rw [onHost_concat, if_neg (by simp [host])]
      exact h.batched

theorem held_run (hrun : Run (.opening asked s) es f) : Held es f := by
  induction hrun with
  | still => exact held_opening asked s
  | step hrun hstep ih => exact ih.step (queued_run hrun) hstep

end Exclusion

/-! ### Nobody waits for ever -/

section Progress

/-- A client can go on alone until the document is given back. -/
def Frees (f : Traffic ι) (i : ι) : Prop :=
  ∃ es g, Run f es g ∧ (∀ e ∈ es, e.1 = i) ∧ g.holder = none ∧ (g.phase i).stage = .after ∧
    ∀ j, j ≠ i → g.phase j = f.phase j

theorem Frees.of_step (hstep : Step f (i, a) g) (h : Frees g i) : Frees f i := by
  obtain ⟨es, k, hrun, hown, hfree, hstage, hothers⟩ := h
  exact ⟨_, k, .cons hstep hrun, List.forall_mem_cons.mpr ⟨rfl, hown⟩, hfree, hstage,
    fun j hj => (hothers j hj).trans (hstep.others j hj)⟩

/-- A client can be answered. -/
def Answerable (f : Traffic ι) (i : ι) : Prop :=
  ∃ es g response, Run f es g ∧ g.phase i = .answered response

theorem Answerable.of_run (hrun : Run f es g) (h : Answerable g i) : Answerable f i := by
  obtain ⟨ds, k, response, hmore, hanswered⟩ := h
  exact ⟨_, k, response, hrun.trans hmore, hanswered⟩

theorem Answerable.of_step (hstep : Step f e g) (h : Answerable g i) : Answerable f i :=
  h.of_run (Run.still.step hstep)

variable [DecidableEq ι]

/-- It is given back at the next step. -/
theorem frees_of_release {p q : Phase} (hp : f.phase i = p)
    (turn : Turn p f.state .release q f.state) (hq : q.stage = .after) : Frees f i := by
  have hstep := step_of_turn hp turn (by simp)
  refine ⟨_, _, Run.still.step hstep, by simp, rfl, ?_, hstep.others⟩
  simpa using hq

/-- **A drawing comes to its end or is given up**, and in both cases the document is given back. -/
theorem frees_of_drawing (plan : Plan Drawing) : ∀ {f : Traffic ι},
    f.phase i = .drawing (.ok plan) → Frees f i := by
  induction plan with
  | done drawing => exact fun hp => frees_of_release hp (.finish drawing _) rfl
  | create p next ih =>
    intro f hp
    exact .of_step (step_of_turn hp (.create rfl) (by simp)) (ih _ (by simp [Except.map]; rfl))
  | edit c next ih =>
    intro f hp
    rcases hcall : Document.canvas.edit c f.state.canvas with ⟨e | u, d⟩
    · refine .of_step (step_of_turn hp (.edit hcall) (by simp)) ?_
      exact frees_of_release (by simp; rfl) (.giveUp e _) rfl
    · exact .of_step (step_of_turn hp (.edit hcall) (by simp)) (ih (by simp [Except.map]))
  | center next ih =>
    intro f hp
    exact .of_step (step_of_turn hp (.look next _) (by simp)) (ih _ (by simp; rfl))

/-- **Who has the document can give it back.** -/
theorem frees_of_inside (h : (f.phase i).stage = .inside) : Frees f i := by
  have hleave {g : Traffic ι} (hp : g.phase i = .cleared) : Frees g i :=
    frees_of_release hp (.leave _) rfl
  cases hp : f.phase i with
  | drawing rest =>
    cases rest with
    | error e => exact frees_of_release hp (.giveUp e _) rfl
    | ok plan => exact frees_of_drawing plan hp
  | clearing => exact .of_step (step_of_turn hp (.clear _) (by simp)) (hleave (by simp))
  | cleared => exact hleave hp
  | _ => rw [hp] at h; cases h

theorem answerable_of_after (h : (f.phase i).stage = .after) : Answerable f i := by
  have hanswering {g : Traffic ι} {response : Response} (hp : g.phase i = .answering response) :
      Answerable g i :=
    .of_step (step_of_turn hp (.answer response _) (by simp))
      ⟨[], _, response, .still, by simp⟩
  cases hp : f.phase i with
  | reporting outcome =>
    exact .of_step (step_of_turn hp (.report outcome _) (by simp)) (hanswering (by simp; rfl))
  | answering response => exact hanswering hp
  | answered response => exact ⟨[], f, response, .still, hp⟩
  | _ => rw [hp] at h; cases h

theorem answerable_of_inside (h : (f.phase i).stage = .inside) : Answerable f i := by
  obtain ⟨es, g, hrun, -, -, hstage, -⟩ := frees_of_inside h
  exact (answerable_of_after hstage).of_run hrun

theorem answerable_of_free (hfree : f.holder = none) (h : (f.phase i).stage = .before) :
    Answerable f i := by
  cases hp : f.phase i with
  | waiting job =>
    refine .of_step (step_of_turn hp (.acquire job _) fun _ => hfree) (answerable_of_inside ?_)
    simpa using stage_ofJob job
  | _ => rw [hp] at h; cases h

/-- **Each client can be answered**, whatever was done before. -/
theorem answerable (hheld : Held es f) (i : ι) : Answerable f i := by
  cases hstage : (f.phase i).stage with
  | after => exact answerable_of_after hstage
  | inside => exact answerable_of_inside hstage
  | before =>
    cases hholder : f.holder with
    | none => exact answerable_of_free hholder hstage
    | some j =>
      -- whoever has the document gives it back first
      have hj := (hheld.holder j).mp hholder
      have hne : i ≠ j := fun heq => by subst heq; rw [hj] at hstage; cases hstage
      obtain ⟨ds, g, hrun, -, hfree, -, hothers⟩ := frees_of_inside hj
      refine (answerable_of_free hfree ?_).of_run hrun
      rw [hothers i hne]
      exact hstage

end Progress

end Artboard.Service
