import Artboard.Canvas.Plan

/-! # What happens during a run

A run of a plan is looked at moment by moment: each call that it makes and each look at the centre,
with the state of the canvas just before.

* `Plan.moments`: the moments of a run.
* `Plan.Makes`, `Plan.Runs`: a single call of a plan, and whole runs as sequences of calls.
  `runs_moments`: each run is one.
* `Runs.observed`: a canvas that logs its calls logs those of the moments, and nothing else differs.
* `Runs.eq_nil_of_refused`: the call that is refused is the last one.
* `Runs.cutShort`: a run in which some calls are made to fail is the run without that up to the
  first of these calls, and stops there. -/

namespace Artboard

/-- Something that happens during a run. -/
structure Moment (σ : Type) where
  /-- The state of the canvas just before. -/
  state : σ
  /-- The call that is made. If there is none, the canvas is asked for its centre. -/
  call? : Option Call
  /-- Why the call is refused, if it is. -/
  refusal? : Option CanvasError

/-- The calls that are made in some moments. -/
def Moment.calls {σ : Type} (ms : List (Moment σ)) : List Call := ms.filterMap Moment.call?

/-- The canvas that logs its calls and makes all of them. -/
def Canvas.observed {σ : Type} (canvas : Canvas σ) : Canvas (Watched σ) :=
  canvas.watched fun _ _ => none

namespace Plan

open Moment (calls)

variable {α σ : Type} {canvas : Canvas σ} {p q : Plan α} {s t : σ} {call : Call} {e : CanvasError}
  {r : Except CanvasError α} {ms : List (Moment σ)}

/-- The moments of a run, the first refused call being the last. -/
def moments (canvas : Canvas σ) : Plan α → σ → List (Moment σ)
  | .done _, _ => []
  | .create p next, s =>
    match canvas.create p s with
    | (.error e, _) => [⟨s, some (.create p), some e⟩]
    | (.ok id, t) => ⟨s, some (.create p), none⟩ :: (next id).moments canvas t
  | .edit c next, s =>
    match canvas.edit c s with
    | (.error e, _) => [⟨s, some (.edit c), some e⟩]
    | (.ok _, t) => ⟨s, some (.edit c), none⟩ :: next.moments canvas t
  | .center next, s => ⟨s, none, none⟩ :: (next (canvas.center s)).moments canvas s

/-! ### Single calls -/

/-- A plan begins with a call, which leads to what is left of the plan or to a refusal. -/
inductive Makes (canvas : Canvas σ) : Plan α → σ → Call → Except CanvasError (Plan α) → σ → Prop
  | create {p : Primitive} {next : ShapeId → Plan α} {s t : σ} {r : Except CanvasError ShapeId}
      (h : canvas.create p s = (r, t)) :
      Makes canvas (.create p next) s (.create p) (r.map next) t
  | edit {c : Edit} {next : Plan α} {s t : σ} {r : Except CanvasError Unit}
      (h : canvas.edit c s = (r, t)) :
      Makes canvas (.edit c next) s (.edit c) (r.map fun _ => next) t

namespace Makes

variable {rest : Except CanvasError (Plan α)}

theorem run_eq (h : Makes canvas p s call rest t) : p.run canvas s = match rest with
    | .ok q => q.run canvas t
    | .error e => (.error e, t) := by
  cases h with
  | @create _ _ _ _ r h => rw [run, h]; cases r <;> rfl
  | @edit _ _ _ _ r h => rw [run, h]; cases r <;> rfl

variable {refuse : List Call → Call → Option CanvasError} {log : List Call}

/-- A call that is not made to fail goes as it would. -/
theorem watched (h : Makes canvas p s call rest t) (hno : refuse log call = none) :
    Makes (canvas.watched refuse) p ⟨s, log⟩ call rest ⟨t, log ++ [call]⟩ := by
  cases h with
  | create h => exact .create (by simp only [Canvas.watched, Canvas.watch, hno, h])
  | edit h => exact .edit (by simp only [Canvas.watched, Canvas.watch, hno, h])

/-- A call that is made to fail leaves the canvas as it is. -/
theorem watched_refused (h : Makes canvas p s call rest t) (he : refuse log call = some e) :
    Makes (canvas.watched refuse) p ⟨s, log⟩ call (.error e) ⟨s, log ++ [call]⟩ := by
  cases h with
  | create h => exact .create (r := .error e) (by simp only [Canvas.watched, Canvas.watch, he])
  | edit h => exact .edit (r := .error e) (by simp only [Canvas.watched, Canvas.watch, he])

end Makes

/-! ### Runs -/

/-- A run with its moments, its result and the state after it. -/
inductive Runs (canvas : Canvas σ) :
    Plan α → σ → List (Moment σ) → Except CanvasError α → σ → Prop
  | done (a : α) (s : σ) : Runs canvas (.done a) s [] (.ok a) s
  | looked {next : Point → Plan α} {s t : σ} {ms : List (Moment σ)} {r : Except CanvasError α}
      (rest : Runs canvas (next (canvas.center s)) s ms r t) :
      Runs canvas (.center next) s (⟨s, none, none⟩ :: ms) r t
  | refused {p : Plan α} {s t : σ} {call : Call} {e : CanvasError}
      (makes : Makes canvas p s call (.error e) t) :
      Runs canvas p s [⟨s, some call, some e⟩] (.error e) t
  | made {p q : Plan α} {s t u : σ} {call : Call} {ms : List (Moment σ)}
      {r : Except CanvasError α} (makes : Makes canvas p s call (.ok q) t)
      (rest : Runs canvas q t ms r u) : Runs canvas p s (⟨s, some call, none⟩ :: ms) r u

/-- **Each run goes through its moments.** -/
theorem runs_moments (canvas : Canvas σ) : ∀ (p : Plan α) (s : σ),
    Runs canvas p s (p.moments canvas s) (p.run canvas s).1 (p.run canvas s).2
  | .done a, s => .done a s
  | .create p next, s => by
    rw [run, moments]
    rcases h : canvas.create p s with ⟨e | id, t⟩
    · exact .refused (.create h)
    · exact .made (.create h) (runs_moments canvas (next id) t)
  | .edit c next, s => by
    rw [run, moments]
    rcases h : canvas.edit c s with ⟨e | u, t⟩
    · exact .refused (.edit h)
    · exact .made (.edit h) (runs_moments canvas next t)
  | .center next, s => .looked (runs_moments canvas (next (canvas.center s)) s)

namespace Runs

/-- **The call that is refused is the last one**, and the run fails with its error. -/
theorem eq_nil_of_refused (h : Runs canvas p s ms r t) : ∀ {before after : List (Moment σ)}
    {m : Moment σ}, ms = before ++ m :: after → m.refusal? = some e →
      after = [] ∧ r = .error e := by
  induction h with
  | done a s => intro before after m hms; simp at hms
  | @looked _ s t ms r rest ih =>
    intro before after m hms hm
    rcases before with _ | ⟨n, before⟩
    · obtain ⟨rfl, -⟩ := List.cons.inj hms
      cases hm
    · exact ih (List.cons.inj hms).2 hm
  | @refused p s t call e' makes =>
    intro before after m hms hm
    rcases before with _ | ⟨n, before⟩
    · obtain ⟨rfl, rfl⟩ := List.cons.inj hms
      cases hm
      exact ⟨rfl, rfl⟩
    · have := (List.cons.inj hms).2
      simp at this
  | @made p q s t u call ms r makes rest ih =>
    intro before after m hms hm
    rcases before with _ | ⟨n, before⟩
    · obtain ⟨rfl, -⟩ := List.cons.inj hms
      cases hm
    · exact ih (List.cons.inj hms).2 hm

/-- If no call is refused the run succeeds. -/
theorem exists_of_unrefused (h : Runs canvas p s ms r t) (hms : ∀ m ∈ ms, m.refusal? = none) :
    ∃ a, r = .ok a := by
  induction h with
  | done a s => exact ⟨a, rfl⟩
  | looked rest ih => exact ih fun m hm => hms m (List.mem_cons_of_mem _ hm)
  | refused makes => exact absurd (hms _ (List.mem_singleton_self _)) (by simp)
  | made makes rest ih => exact ih fun m hm => hms m (List.mem_cons_of_mem _ hm)

/-- **Logging shows the calls of a run and changes nothing else.** -/
theorem observed (h : Runs canvas p s ms r t) : ∀ log : List Call,
    p.run canvas.observed ⟨s, log⟩ = (r, ⟨t, log ++ calls ms⟩) := by
  induction h with
  | done a s => intro log; simp [run, calls]
  | looked rest ih => exact ih
  | refused makes => intro log; exact (makes.watched rfl).run_eq
  | @made _ _ _ _ _ call ms _ makes rest ih =>
    intro log
    have hrest := ih (log ++ [call])
    rw [List.append_assoc] at hrest
    exact (makes.watched rfl).run_eq.trans hrest

end Runs

/-! ### Calls that are made to fail -/

section Refuse
variable {refuse : List Call → Call → Option CanvasError}

/-- None of the calls is made to fail, after those that were made before. -/
def Unrefused (refuse : List Call → Call → Option CanvasError) (log cs : List Call) : Prop :=
  ∀ earlier call, earlier ++ [call] <+: cs → refuse (log ++ earlier) call = none

theorem unrefused_nil (log : List Call) : Unrefused refuse log [] := by
  intro earlier call h
  have := List.prefix_nil.mp h
  simp at this

theorem unrefused_cons {log cs : List Call} : Unrefused refuse log (call :: cs) ↔
    refuse log call = none ∧ Unrefused refuse (log ++ [call]) cs := by
  constructor
  · intro h
    refine ⟨by simpa using h [] call (by simp), fun earlier c hc => ?_⟩
    have := h (call :: earlier) c (by simpa using hc)
    rwa [List.append_assoc]
  · rintro ⟨hcall, hcs⟩ earlier c hc
    rcases earlier with _ | ⟨d, earlier⟩
    · obtain ⟨rfl, -⟩ := List.cons_prefix_cons.mp hc
      simpa using hcall
    · obtain ⟨rfl, hrest⟩ := List.cons_prefix_cons.mp hc
      have := hcs earlier c hrest
      rwa [List.append_assoc] at this

/-- **How a run goes if some calls are made to fail**, compared with what it is without that: it is
the same, or it stops at the first such call, in the state just before it. -/
def CutShort (refuse : List Call → Call → Option CanvasError) (log : List Call)
    (ms : List (Moment σ)) (whole cut : Except CanvasError α × Watched σ) : Prop :=
  (Unrefused refuse log (calls ms) ∧ cut = whole) ∨
    ∃ before m after call e, ms = before ++ m :: after ∧ m.call? = some call ∧
      Unrefused refuse log (calls before) ∧ refuse (log ++ calls before) call = some e ∧
      cut = (.error e, ⟨m.state, log ++ calls before ++ [call]⟩)

namespace CutShort

variable {log : List Call} {m : Moment σ} {whole cut : Except CanvasError α × Watched σ}

theorem look (hm : m.call? = none) (h : CutShort refuse log ms whole cut) :
    CutShort refuse log (m :: ms) whole cut := by
  have hcalls : ∀ ns : List (Moment σ), calls (m :: ns) = calls ns := fun ns => by
    rw [calls, List.filterMap_cons_none hm]; rfl
  rcases h with ⟨hno, hcut⟩ | ⟨before, n, after, call, e, rfl, hn, hno, he, hcut⟩
  · exact .inl ⟨by rw [hcalls]; exact hno, hcut⟩
  · refine .inr ⟨m :: before, n, after, call, e, rfl, hn, ?_, ?_, ?_⟩ <;> rw [hcalls]
    · exact hno
    · exact he
    · exact hcut

theorem made (hm : m.call? = some call) (hno : refuse log call = none)
    (h : CutShort refuse (log ++ [call]) ms whole cut) :
    CutShort refuse log (m :: ms) whole cut := by
  have hcalls : ∀ ns : List (Moment σ), calls (m :: ns) = call :: calls ns := fun ns => by
    rw [calls, List.filterMap_cons_some hm]; rfl
  have hlog : ∀ cs : List Call, log ++ call :: cs = log ++ [call] ++ cs := fun cs => by simp
  rcases h with ⟨hrest, hcut⟩ | ⟨before, n, after, c, e, rfl, hn, hrest, he, hcut⟩
  · exact .inl ⟨by rw [hcalls]; exact unrefused_cons.mpr ⟨hno, hrest⟩, hcut⟩
  · refine .inr ⟨m :: before, n, after, c, e, rfl, hn, ?_, ?_, ?_⟩ <;> rw [hcalls]
    · exact unrefused_cons.mpr ⟨hno, hrest⟩
    · rw [hlog]; exact he
    · rw [hlog]; exact hcut

/-- A run that stops at its first call. -/
theorem first (hm : m.call? = some call) (he : refuse log call = some e)
    (hcut : cut = (.error e, ⟨m.state, log ++ [call]⟩)) :
    CutShort refuse log (m :: ms) whole cut :=
  .inr ⟨[], m, ms, call, e, rfl, hm, unrefused_nil log, by simpa [calls] using he,
    by simpa [calls] using hcut⟩

end CutShort

/-- **A run in which some calls are made to fail is cut short.** -/
theorem Runs.cutShort (h : Runs canvas p s ms r t)
    (refuse : List Call → Call → Option CanvasError) : ∀ log : List Call,
      CutShort refuse log ms (r, ⟨t, log ++ calls ms⟩)
        (p.run (canvas.watched refuse) ⟨s, log⟩) := by
  induction h with
  | done a s => intro log; exact .inl ⟨unrefused_nil log, by simp [run, calls]⟩
  | looked rest ih => intro log; exact (ih log).look rfl
  | @refused p s t call e makes =>
    intro log
    cases he : refuse log call with
    | some e' => exact .first rfl he (makes.watched_refused he).run_eq
    | none =>
      exact .inl ⟨unrefused_cons.mpr ⟨he, unrefused_nil _⟩, (makes.watched he).run_eq⟩
  | @made p q s t u call ms r makes rest ih =>
    intro log
    cases he : refuse log call with
    | some e => exact .first rfl he (makes.watched_refused he).run_eq
    | none =>
      rw [(makes.watched he).run_eq]
      have hrest := ih (log ++ [call])
      rw [List.append_assoc] at hrest
      exact hrest.made rfl he

end Refuse

end Plan

end Artboard
