import Artboard.Proofs.Service.Serial

/-! # Reports and answers

* `listener_run`, `answer_run`: what the listener has heard, and who was answered.
* `Arrangement`: an order of all requests in which those that got the document stand as they got it.
* `listener_settled`, `state_settled`, `answers_settled`: when everybody was answered, the listener
  has heard of each design that was asked for, and state and answers are those of the same requests
  one at a time. -/

namespace Artboard.Service

/-- A design is asked for. -/
def Request.asksForDesign (r : Request) : Bool := r.message?.any Message.isForDesign

/-- Whether the listener hears of something. -/
def Action.reports : Action → Bool
  | .report _ => true
  | _ => false

/-- Whether something is an answer. -/
def Action.answers : Action → Bool
  | .answer _ => true
  | _ => false

/-- How many outcomes of a request the listener is still going to hear. -/
def Phase.due : Phase → ℕ
  | .waiting (.draw _) | .drawing _ | .reporting _ => 1
  | _ => 0

/-- How many answers to a request are still to be given. -/
def Phase.unanswered : Phase → ℕ
  | .answered _ => 0
  | _ => 1

variable {ι : Type} {panel : Panel} {asked : ι → Writer} {es : Trace ι} {f g : Traffic ι} {i : ι}
  {s t : State} {p q : Phase} {a : Action} {order : List ι}

/-- Who was answered, in order. -/
def answered : Trace ι → List ι := who Action.answers

/-! ### Turns -/

theorem foretells_due : Foretells Phase.due Action.reports := by
  intro p s a q t h
  cases h with
  | acquire job => cases job <;> rfl
  | _ => rfl

theorem foretells_unanswered : Foretells Phase.unanswered Action.answers := by
  intro p s a q t h
  cases h with
  | acquire job => cases job <;> rfl
  | _ => rfl

theorem listener_of_turn (h : Turn p s a q t) :
    t.listener = s.listener + if a.reports then 1 else 0 := by cases h <;> rfl

theorem answer_of_turn (response : Response) (h : Turn p s a q t) :
    (q = .answered response ↔ a = .answer response) ∧ p ≠ .answered response := by
  cases h with
  | acquire job => cases job <;> simp [Phase.ofJob]
  | _ => simp

/-- The listener is going to hear of each design that is asked for. -/
theorem due_phase (w : Writer) : w.phase.due = if w.request.asksForDesign then 1 else 0 := by
  obtain ⟨r, hwrites⟩ := w
  unfold Writer.phase Request.asksForDesign
  by_cases hmethod : r.method = "POST"
  · have hroute := (hwrites.resolve_right (Request.not_resets_of_post hmethod)).2
    have hbody {m : Message} := decodeBody_eq_ok (m := m) hmethod hroute
    rw [if_pos hmethod]
    cases hdecode : decodeBody r with
    | error response =>
      have hnone : r.message? = none :=
        Option.eq_none_iff_forall_ne_some.mpr fun m hm => by
          rw [← hbody, hdecode] at hm; cases hm
      rw [hnone]; rfl
    | ok m =>
      rw [hbody.mp hdecode]
      simp only [Phase.ofMessage, Option.any_some]
      split_ifs
      · cases m.screen <;> rfl
      · rfl
  · have hnone : r.message? = none := Request.message?_eq_none fun h => hmethod h.1
    rw [if_neg hmethod, hnone]; rfl

theorem listener_respond (panel : Panel) (w : Writer) (s : State) :
    (respond panel w.request s).2.listener =
      s.listener + if w.request.asksForDesign then 1 else 0 := by
  rw [respond_eq_finish, ← due_phase]
  cases w.phase with
  | waiting job => cases job <;> rfl
  | drawing rest => cases rest <;> rfl
  | _ => rfl

theorem unanswered_phase (w : Writer) : w.phase.unanswered = 1 := by
  obtain ⟨_, h⟩ | ⟨_, h⟩ | ⟨_, h⟩ := w.phase_cases <;> rw [h] <;> rfl

/-! ### Runs -/

theorem listener_run (hrun : Run (.opening asked s) es f) :
    f.state.listener = s.listener + (who Action.reports es).length := by
  induction hrun with
  | still => rfl
  | @step es e g h hrun hstep ih =>
    rw [listener_of_turn hstep.turn, ih, who_concat]
    split_ifs <;> simp; omega

/-- Who was answered stays where it is. -/
theorem answer_run (hrun : Run (.opening asked s) es f) (i : ι) (response : Response) :
    (i, .answer response) ∈ es ↔ f.phase i = .answered response := by
  induction hrun with
  | still =>
    show _ ↔ (asked i).phase = _
    obtain ⟨_, h⟩ | ⟨_, h⟩ | ⟨_, h⟩ := (asked i).phase_cases <;> simp [h]
  | @step es e g h hrun hstep ih =>
    obtain ⟨hanswers, hbefore⟩ := answer_of_turn response hstep.turn
    rw [List.mem_append, List.mem_singleton, ih]
    by_cases hi : i = e.1
    · subst hi
      rw [hanswers, or_iff_right hbefore, Prod.ext_iff]
      simp [eq_comm]
    · rw [hstep.others i hi, or_iff_left fun heq => hi (congrArg Prod.fst heq)]

/-- Who did nothing stays where it was. -/
theorem unheard_run (hrun : Run (.opening asked s) es f) (hi : ∀ a, (i, a) ∉ es) :
    f.phase i = (asked i).phase := by
  induction hrun with
  | still => rfl
  | @step es e g h hrun hstep ih =>
    have hne : i ≠ e.1 := fun heq => hi e.2 (by simp [heq])
    rw [hstep.others i hne]
    exact ih fun a ha => hi a (List.mem_append_left _ ha)

/-! ### When everybody was answered -/

theorem Settled.answered (h : Settled es) (hrun : Run (.opening asked s) es f) (ha : (i, a) ∈ es) :
    ∃ response, (i, .answer response) ∈ es ∧ f.phase i = .answered response := by
  obtain ⟨response, hresponse⟩ := h _ ha
  exact ⟨response, hresponse, (answer_run hrun i response).mp hresponse⟩

theorem Settled.holder [DecidableEq ι] (h : Settled es) (hrun : Run (.opening asked s) es f) :
    f.holder = none := by
  have hheld := held_run hrun
  rw [Option.eq_none_iff_forall_ne_some]
  intro i hi
  obtain ⟨before, hacquired⟩ := hheld.last i hi
  have hheard : i ∈ acquired es := by rw [hacquired]; simp
  obtain ⟨e, he, rfl⟩ := List.mem_map.mp hheard
  obtain ⟨response, -, hphase⟩ := h.answered hrun (List.mem_of_mem_filter he)
  have hin := (hheld.holder e.1).mp hi
  rw [hphase] at hin
  cases hin

/-- **The listener has heard of each design that was asked for**, once. -/
theorem listener_settled [DecidableEq ι] (hrun : Run (.opening asked s) es f) (h : Settled es) :
    f.state.listener =
      s.listener + (answered es).countP fun i => (asked i).request.asksForDesign := by
  have hperm : (who Action.reports es).Perm
      ((answered es).filter fun i => (asked i).request.asksForDesign) := by
    rw [List.perm_iff_count]
    intro i
    have hreports := count_run foretells_due hrun i
    have hanswers : (answered es).count i + _ = _ := count_run foretells_unanswered hrun i
    rw [due_phase] at hreports
    rw [unanswered_phase] at hanswers
    have hdue : (f.phase i).due = if (f.phase i).unanswered = 0 then 0 else
        if (asked i).request.asksForDesign then 1 else 0 := by
      by_cases hheard : ∃ a, (i, a) ∈ es
      · obtain ⟨a, ha⟩ := hheard
        obtain ⟨response, -, hphase⟩ := h.answered hrun ha
        rw [hphase]; rfl
      · rw [unheard_run hrun fun a ha => hheard ⟨a, ha⟩, due_phase, unanswered_phase]; rfl
    have hfilter : ((answered es).filter fun i => (asked i).request.asksForDesign).count i =
        if (asked i).request.asksForDesign then (answered es).count i else 0 := by
      split_ifs with hasks
      · exact List.count_filter (by simpa using hasks)
      · exact List.count_eq_zero_of_not_mem fun hi => hasks (List.mem_filter.mp hi).2
    rw [hfilter]
    split_ifs at hdue hreports ⊢ <;> omega
  rw [listener_run hrun, hperm.length_eq, List.countP_eq_length_filter]

/-! ### The requests in order -/

/-- **An order of all requests that were heard of**, in which those that got the document stand as
they got it. -/
structure Arrangement (es : Trace ι) (order : List ι) : Prop where
  nodup : order.Nodup
  heard : ∀ i, i ∈ order ↔ ∃ a, (i, a) ∈ es
  sublist : (acquired es).Sublist order

theorem mem_acquired : i ∈ acquired es ↔ (i, .acquire) ∈ es := by
  simp [acquired, who]

section Order
variable [DecidableEq ι]

theorem exists_arrangement (hrun : Run (.opening asked s) es f) :
    ∃ order, Arrangement es order := by
  refine ⟨acquired es ++ (es.map Prod.fst).dedup.filter (· ∉ acquired es), ?_, fun i => ?_,
    List.sublist_append_left ..⟩
  · refine List.nodup_append.mpr ⟨(queued_run hrun).nodup, (List.nodup_dedup _).filter _, ?_⟩
    rintro i hi _ hj rfl
    simp [hi] at hj
  · by_cases hi : i ∈ acquired es
    · simpa [hi] using ⟨_, mem_acquired.mp hi⟩
    · simp [hi]

/-- Those who waited for the document are those who got it. -/
theorem Arrangement.waiting (h : Arrangement es order) (hsettled : Settled es)
    (hrun : Run (.opening asked s) es f) :
    order.filter (fun i => (asked i).phase.stage = .before) = acquired es := by
  have hqueued := queued_run hrun
  have hall : (acquired es).filter (fun i => (asked i).phase.stage = .before) = acquired es :=
    List.filter_eq_self.mpr fun i hi => by simpa using ((hqueued.mem_acquired i).mp hi).1
  have hsub := h.sublist.filter fun i => decide ((asked i).phase.stage = .before)
  rw [hall] at hsub
  refine (hsub.eq_of_length_le ?_).symm
  refine ((h.nodup.filter _).subperm fun i hi => ?_).length_le
  obtain ⟨hi, hwaits⟩ := List.mem_filter.mp hi
  obtain ⟨a, ha⟩ := (h.heard i).mp hi
  obtain ⟨response, -, hphase⟩ := hsettled.answered hrun ha
  exact (hqueued.mem_acquired i).mpr ⟨by simpa using hwaits, by rw [hphase]; simp [Phase.stage]⟩

/-- All of them were answered. -/
theorem Arrangement.perm (h : Arrangement es order) (hsettled : Settled es)
    (hrun : Run (.opening asked s) es f) : (answered es).Perm order := by
  refine (List.perm_ext_iff_of_nodup ?_ h.nodup).mpr fun i => ?_
  · refine List.nodup_iff_count_le_one.mpr fun i => ?_
    have hcount : (answered es).count i + _ = _ := count_run foretells_unanswered hrun i
    rw [unanswered_phase] at hcount
    omega
  · rw [h.heard, answered, who, List.mem_map]
    constructor
    · rintro ⟨e, he, rfl⟩
      exact ⟨e.2, List.mem_of_mem_filter he⟩
    · rintro ⟨a, ha⟩
      obtain ⟨response, hresponse, -⟩ := hsettled.answered hrun ha
      exact ⟨_, List.mem_filter.mpr ⟨hresponse, rfl⟩, rfl⟩

omit [DecidableEq ι] in
theorem listener_after (panel : Panel) (asked : ι → Writer) : ∀ (order : List ι) (s : State),
    (after panel (requests asked order) s).listener =
      s.listener + order.countP fun i => (asked i).request.asksForDesign
  | [], _ => rfl
  | i :: order, s => by
    have ih := listener_after panel asked order (respond panel (asked i).request s).2
    rw [listener_respond] at ih
    refine ih.trans ?_
    rw [List.countP_cons]
    omega

/-- **The state is that of the same requests one at a time**, in any such order. -/
theorem state_settled (panel : Panel) (hrun : Run (.opening asked s) es f) (hsettled : Settled es)
    (h : Arrangement es order) : f.state = after panel (requests asked order) s := by
  have hcanvas : f.state.canvas = (after panel (requests asked order) s).canvas := by
    rw [canvas_after_waiting panel asked order rfl, h.waiting hsettled hrun,
      ← (serial_run panel hrun).document, upshot_of_free (hsettled.holder hrun)]
  have hlistener : f.state.listener = (after panel (requests asked order) s).listener := by
    rw [listener_settled hrun hsettled, listener_after, (h.perm hsettled hrun).countP_eq]
  calc f.state
      = ⟨f.state.canvas, f.state.listener⟩ := rfl
    _ = after panel (requests asked order) s := by rw [hcanvas, hlistener]

/-- **The answers are those to the same requests one at a time**, in any such order. -/
theorem answers_settled (panel : Panel) (hrun : Run (.opening asked s) es f)
    (hsettled : Settled es) (h : Arrangement es order) {before later : List ι}
    (horder : order = before ++ i :: later) :
    (i, .answer (respond panel (asked i).request (after panel (requests asked before) s)).1)
      ∈ es := by
  have hserial := serial_run panel hrun
  obtain ⟨a, ha⟩ := (h.heard i).mp (by rw [horder]; simp)
  obtain ⟨response, hresponse, hphase⟩ := hsettled.answered hrun ha
  have hanswer : response = f.response i := by rw [Traffic.response, hphase]; rfl
  rw [hanswer] at hresponse
  convert hresponse using 3
  rcases (asked i).stage_phase with hi | hi
  · have hacquired := h.waiting hsettled hrun
    rw [horder, List.filter_append, List.filter_cons_of_pos (by simpa using hi)] at hacquired
    rw [hserial.response _ i _ hacquired.symm, respond_eq_finish, respond_eq_finish]
    exact (finish_congr (canvas_after_waiting panel asked before rfl)).1
  · exact ((hserial.other i hi).2 _).symm

end Order

end Artboard.Service
