import Artboard.Proofs.CommandLine.Lines

/-! # Where settings come from

A setting has the value of its option behind the command, else of its option before it, else of its
environment variable, else its default.

* `Line.text?`: the text that decides on a setting. `Setting.default?`: what it is without one.
* `get?_foldlM`, `exists_foldlM_iff`: what entries give and when they are accepted; the order of the
  entries does not matter (`parse_reordered`).
* `get?_fromEnvironment`: what variables give.
* `value?_of_parse`: the settings of a line that is understood.
* `settings_of_parse`: all of it, for any words that are understood. -/

namespace Artboard.CommandLine

open Json (toOption_eq_some)

/-! ### Settings of a line -/

/-- The value of a setting that was not given one. -/
def Setting.default? : Setting → Option Value
  | .viewportX => some (.number Viewport.standard.x)
  | .viewportY => some (.number Viewport.standard.y)
  | .viewportWidth => some (.number Viewport.standard.width)
  | .viewportHeight => some (.number Viewport.standard.height)
  | .port => some (.port ServerConfig.defaultPort)
  | .panelUrl => some (.text Panel.defaultUrl)
  | .panelTitle => some (.text Panel.defaultTitle)
  | .snapshot => none
  | .input => none

/-- The text of a setting's environment variable. -/
def Environment.text? (env : Environment) (x : Setting) : Option String :=
  x.variableName?.bind env

/-- **The text that decides on a setting**: of the entry behind the command, else of the entry
before it, else of the variable. -/
def Line.text? (l : Line) (env : Environment) (x : Setting) : Option String :=
  (l.pairsBehind.lookup x).or ((l.pairsBefore.lookup x).or (env.text? x))

/-- The name of the command. -/
def Arguments.name (a : Arguments) : CommandName :=
  match a.command with
  | .serve .. => .serve
  | .generate .. => .generate

/-- The value of a setting; a command may not have it. -/
def Arguments.value? (a : Arguments) : Setting → Option Value
  | .viewportX => some (.number a.viewport.x)
  | .viewportY => some (.number a.viewport.y)
  | .viewportWidth => some (.number a.viewport.width)
  | .viewportHeight => some (.number a.viewport.height)
  | .port => match a.command with
    | .serve port _ _ => some (.port port)
    | .generate .. => none
  | .panelUrl => match a.command with
    | .serve _ url _ => some (.text url)
    | .generate .. => none
  | .panelTitle => match a.command with
    | .serve _ _ title => some (.text title)
    | .generate .. => none
  | .snapshot => match a.command with
    | .generate _ true => some .on
    | _ => none
  | .input => match a.command with
    | .generate input _ => some (.text input)
    | .serve .. => none

/-! ### What entries give -/

section Entries
variable {g h : Given} {x : Setting} {p : Setting × String} {pairs pairs' : List (Setting × String)}

theorem enter_eq_some : enter g p = some h ↔
    g.get? p.1 = none ∧ ∃ v, p.1.value? p.2 = some v ∧ h = g ++ [(p.1, v)] := by
  unfold enter
  cases g.get? p.1 with
  | some v => simp
  | none =>
    rw [Option.isSome_none, if_neg Bool.false_ne_true, Option.map_eq_some_iff, and_iff_right rfl]
    exact exists_congr fun v => and_congr_right fun _ => eq_comm

theorem lookup_cons_eq (x : Setting) (p : Setting × String) (pairs : List (Setting × String)) :
    (p :: pairs).lookup x = if x = p.1 then some p.2 else pairs.lookup x := by
  by_cases hx : x = p.1
  · subst hx
    rw [if_pos rfl, List.lookup_cons, beq_self_eq_true]
  · rw [if_neg hx, List.lookup_cons, beq_eq_false_iff_ne.mpr hx]

theorem lookup_eq_some_iff (x : Setting) (text : String) :
    ∀ {pairs : List (Setting × String)}, (pairs.map Prod.fst).Nodup →
      (pairs.lookup x = some text ↔ (x, text) ∈ pairs)
  | [], _ => by simp
  | p :: pairs, hnodup => by
    obtain ⟨hmem, hnodup⟩ := List.nodup_cons.mp hnodup
    rw [lookup_cons_eq, List.mem_cons]
    by_cases hx : x = p.1
    · subst hx
      have hpairs : (p.1, text) ∉ pairs := fun h => hmem (List.mem_map.mpr ⟨_, h, rfl⟩)
      rw [if_pos rfl, or_iff_left hpairs, Option.some_inj, Prod.ext_iff]
      exact ⟨fun h => ⟨rfl, h.symm⟩, fun h => h.2.symm⟩
    · rw [if_neg hx, lookup_eq_some_iff x text hnodup]
      exact (or_iff_right fun h => hx (congrArg Prod.fst h)).symm

/-- **What entries give**: to each setting the value of its entry. -/
theorem get?_foldlM (x : Setting) : ∀ {pairs : List (Setting × String)} {g h : Given},
    pairs.foldlM enter g = some h →
      h.get? x = (g.get? x).or ((pairs.lookup x).bind x.value?) ∧
        ∀ text, pairs.lookup x = some text → (x.value? text).isSome = true
  | [], g, h, hfold => by
    cases hfold
    exact ⟨(Option.or_none ..).symm, nofun⟩
  | p :: pairs, g, h, hfold => by
    rw [List.foldlM_cons] at hfold
    obtain ⟨g', hg', hfold⟩ := Option.bind_eq_some_iff.mp hfold
    obtain ⟨hnone, v, hv, rfl⟩ := enter_eq_some.mp hg'
    obtain ⟨hget, hvalue⟩ := get?_foldlM x hfold
    rw [get?_append, get?_singleton] at hget
    rw [lookup_cons_eq]
    by_cases hx : x = p.1
    · subst hx
      rw [if_pos rfl, hnone] at hget
      rw [if_pos rfl, hnone]
      refine ⟨by rw [hget, Option.bind_some, hv]; rfl, fun text htext => ?_⟩
      cases htext
      rw [hv]; rfl
    · rw [if_neg (Ne.symm hx), Option.or_none] at hget
      rw [if_neg hx]
      exact ⟨hget, hvalue⟩

/-- **When entries are accepted**: no setting twice, and each text is a value of its setting. -/
theorem exists_foldlM_iff : ∀ {pairs : List (Setting × String)} {g : Given},
    (∃ h, pairs.foldlM enter g = some h) ↔ (pairs.map Prod.fst).Nodup ∧
      ∀ p ∈ pairs, g.get? p.1 = none ∧ (p.1.value? p.2).isSome = true
  | [], g => by simp
  | p :: pairs, g => by
    have hcons : (∃ h, (p :: pairs).foldlM enter g = some h) ↔
        ∃ g', enter g p = some g' ∧ ∃ h, pairs.foldlM enter g' = some h := by
      simp only [List.foldlM_cons, bind, Option.bind_eq_some_iff]
      exact exists_comm.trans (exists_congr fun _ => exists_and_left)
    rw [hcons, List.map_cons, List.nodup_cons, List.forall_mem_cons]
    constructor
    · rintro ⟨g', hg', hpairs⟩
      obtain ⟨hnone, v, hv, rfl⟩ := enter_eq_some.mp hg'
      obtain ⟨hnodup, hpairs⟩ := exists_foldlM_iff.mp hpairs
      have hfree (q : Setting × String) (hq : q ∈ pairs) : g.get? q.1 = none ∧ p.1 ≠ q.1 := by
        have hget := (hpairs q hq).1
        rw [get?_append, get?_singleton, Option.or_eq_none_iff] at hget
        exact ⟨hget.1, fun heq => by rw [if_pos heq] at hget; cases hget.2⟩
      refine ⟨⟨fun hmem => ?_, hnodup⟩, ⟨hnone, by rw [hv]; rfl⟩, fun q hq =>
        ⟨(hfree q hq).1, (hpairs q hq).2⟩⟩
      obtain ⟨q, hq, heq⟩ := List.mem_map.mp hmem
      exact (hfree q hq).2 heq.symm
    · rintro ⟨⟨hmem, hnodup⟩, ⟨hnone, hvalue⟩, hpairs⟩
      obtain ⟨v, hv⟩ := Option.isSome_iff_exists.mp hvalue
      refine ⟨g ++ [(p.1, v)], enter_eq_some.mpr ⟨hnone, v, hv, rfl⟩,
        exists_foldlM_iff.mpr ⟨hnodup, fun q hq => ⟨?_, (hpairs q hq).2⟩⟩⟩
      have hne : p.1 ≠ q.1 := fun heq => hmem (heq ▸ List.mem_map_of_mem hq)
      rw [get?_append, get?_singleton, if_neg hne, (hpairs q hq).1]; rfl

/-- **The order of entries does not matter.** -/
theorem foldlM_perm (hperm : pairs'.Perm pairs) (hg : pairs.foldlM enter [] = some g) :
    ∃ g', pairs'.foldlM enter [] = some g' ∧ ∀ x, g'.get? x = g.get? x := by
  obtain ⟨hnodup, hpairs⟩ := exists_foldlM_iff.mp ⟨g, hg⟩
  have hnodup' : (pairs'.map Prod.fst).Nodup := (hperm.map Prod.fst).nodup_iff.mpr hnodup
  obtain ⟨g', hg'⟩ := exists_foldlM_iff.mpr ⟨hnodup', fun p hp => hpairs p (hperm.mem_iff.mp hp)⟩
  refine ⟨g', hg', fun x => ?_⟩
  have hlookup : pairs'.lookup x = pairs.lookup x := Option.ext fun text => by
    rw [lookup_eq_some_iff x text hnodup, lookup_eq_some_iff x text hnodup', hperm.mem_iff]
  rw [(get?_foldlM x hg').1, (get?_foldlM x hg).1, hlookup]

end Entries

/-! ### What variables give -/

section Variables
variable {env : Environment} {given given' r : Given} {x : Setting} {settings : List Setting}

theorem fromEnvironment_congr (env : Environment) (h : ∀ x, given.get? x = given'.get? x) :
    ∀ settings, fromEnvironment env given settings = fromEnvironment env given' settings
  | [] => rfl
  | x :: settings => by
    simp only [fromEnvironment, h x, fromEnvironment_congr env h settings]

/-- A setting that has a value, or no variable, is passed over. -/
theorem fromEnvironment_cons_of_given
    (h : (given.get? x).isSome = true ∨ env.text? x = none) (settings : List Setting) :
    fromEnvironment env given (x :: settings) = fromEnvironment env given settings := by
  unfold Environment.text? at h
  rw [fromEnvironment]
  split
  · rename_i hgiven htext
    rcases h with h | h
    · rw [h] at hgiven; cases hgiven
    · rw [h] at htext; cases htext
  · rfl

theorem fromEnvironment_cons_of_text {text : String} (hgiven : given.get? x = none)
    (htext : env.text? x = some text) (settings : List Setting) :
    (fromEnvironment env given (x :: settings)).toOption =
      (x.value? text).bind fun v =>
        (fromEnvironment env given settings).toOption.map fun r => (x, v) :: r := by
  unfold Environment.text? at htext
  rw [fromEnvironment, hgiven, htext]
  unfold Setting.value?
  dsimp only [Option.isSome_none]
  cases x.kind.parse text with
  | error e => rfl
  | ok v => cases fromEnvironment env given settings <;> rfl

/-- **What variables give**: to each setting of a level that has no entry the value of its
variable. -/
theorem get?_fromEnvironment {y : Setting} (hy : given.get? y = none) :
    ∀ {settings : List Setting} {r : Given}, fromEnvironment env given settings = .ok r →
      r.get? y = (if y ∈ settings then (env.text? y).bind y.value? else none) ∧
        (y ∈ settings → ∀ text, env.text? y = some text → (y.value? text).isSome = true)
  | [], r, hr => by
    cases hr
    exact ⟨(if_neg List.not_mem_nil).symm, nofun⟩
  | x :: settings, r, hr => by
    by_cases hpass : (given.get? x).isSome = true ∨ env.text? x = none
    · rw [fromEnvironment_cons_of_given hpass] at hr
      obtain ⟨hget, hvalue⟩ := get?_fromEnvironment hy hr
      by_cases hyx : y = x
      · subst hyx
        have htext : env.text? y = none := hpass.resolve_left (by rw [hy]; simp)
        rw [hget, htext]
        exact ⟨by split_ifs <;> simp_all, nofun⟩
      · have hmem : y ∈ x :: settings ↔ y ∈ settings := by simp [hyx]
        simp only [hmem]
        exact ⟨hget, hvalue⟩
    · obtain ⟨hgiven, htext⟩ := not_or.mp hpass
      obtain ⟨text, htext⟩ := Option.ne_none_iff_exists'.mp htext
      rw [← toOption_eq_some, fromEnvironment_cons_of_text (by simpa using hgiven) htext] at hr
      obtain ⟨v, hv, hr⟩ := Option.bind_eq_some_iff.mp hr
      obtain ⟨r', hr', rfl⟩ := Option.map_eq_some_iff.mp hr
      obtain ⟨hget, hvalue⟩ := get?_fromEnvironment hy (toOption_eq_some.mp hr')
      rw [← List.singleton_append, get?_append, get?_singleton, hget]
      by_cases hyx : y = x
      · subst hyx
        rw [if_pos rfl, if_pos List.mem_cons_self, htext, Option.bind_some, hv]
        refine ⟨rfl, fun _ text' htext' => ?_⟩
        cases htext'
        rw [hv]; rfl
      · have hmem : y ∈ x :: settings ↔ y ∈ settings := by simp [hyx]
        simp only [hmem]
        rw [if_neg (Ne.symm hyx), Option.none_or]
        exact ⟨rfl, hvalue⟩

end Variables

/-! ### The settings that are understood -/

section Values
variable {top sub : Found} {x : Setting} {source : Option String}

/-- A text that is a value of its setting, if there is one. -/
def IsValue (x : Setting) (source : Option String) : Prop :=
  ∀ text, source = some text → (x.value? text).isSome = true

theorem exists_number (hx : x.kind = .number) {text : String} {v : Value}
    (h : x.value? text = some v) : ∃ n, v = .number n := by
  unfold Setting.value? ValueKind.parse at h
  rw [hx] at h
  dsimp only at h
  split at h <;> cases h
  exact ⟨_, rfl⟩

theorem number_eq (hx : x.kind = .number) (hsource : IsValue x source) (default : Float)
    (h : (((sub.options.get? x).or (top.options.get? x)).or (sub.environment.get? x)).or
      (top.environment.get? x) = source.bind x.value?) :
    some (.number (number top sub x default)) = source.elim (some (.number default)) x.value? := by
  unfold number
  rw [h]
  cases source with
  | none => rfl
  | some text =>
    obtain ⟨v, hv⟩ := Option.isSome_iff_exists.mp (hsource text rfl)
    obtain ⟨n, rfl⟩ := exists_number hx hv
    simp [hv]

theorem text_eq (hx : x.kind = .text) (default : String)
    (h : (sub.options.get? x).or (sub.environment.get? x) = source.bind x.value?) :
    some (.text (text sub x default)) = source.elim (some (.text default)) x.value? := by
  have hvalue (text : String) : x.value? text = some (.text text) := by
    rw [Setting.value?, hx]; rfl
  unfold text
  rw [h]
  cases source with
  | none => rfl
  | some t => simp [hvalue]

theorem port_eq (hsource : IsValue .port source)
    (h : (sub.options.get? .port).or (sub.environment.get? .port) =
      source.bind (Setting.value? .port)) :
    some (.port (port sub)) =
      source.elim (some (.port ServerConfig.defaultPort)) (Setting.value? .port) := by
  have hport {text : String} {v : Value} (hv : Setting.port.value? text = some v) :
      ∃ n, v = .port n := by
    unfold Setting.value? ValueKind.parse at hv
    dsimp only [Setting.kind] at hv
    split at hv <;> cases hv
    exact ⟨_, rfl⟩
  unfold port
  rw [h]
  cases source with
  | none => rfl
  | some text =>
    obtain ⟨v, hv⟩ := Option.isSome_iff_exists.mp (hsource text rfl)
    obtain ⟨n, rfl⟩ := hport hv
    simp [hv]

end Values

/-- What is found at the two levels of a line. -/
structure Line.Finds (l : Line) (env : Environment) (top sub : Found) : Prop where
  before : ∀ x, top.options.get? x = (l.pairsBefore.lookup x).bind x.value? ∧
    IsValue x (l.pairsBefore.lookup x)
  behind : ∀ x, sub.options.get? x = (l.pairsBehind.lookup x).bind x.value? ∧
    IsValue x (l.pairsBehind.lookup x)
  variableBefore : ∀ x ∈ viewportSettings, top.options.get? x = none →
    top.environment.get? x = (env.text? x).bind x.value? ∧ IsValue x (env.text? x)
  variableBehind : ∀ x ∈ (Level.command l.command).settings, sub.options.get? x = none →
    sub.environment.get? x = (env.text? x).bind x.value? ∧ IsValue x (env.text? x)

section Lines
variable {l : Line} {env : Environment} {top sub : Found} {a : Arguments} {x : Setting}

theorem exists_finds (hl : l.Proper) (h : parse env l.words = .ok a) :
    ∃ top sub, l.Finds env top sub ∧ a.viewport = viewport top sub ∧
      command l.command sub = .ok a.command := by
  rw [← toOption_eq_some, toOption_parse_line hl] at h
  obtain ⟨top, htop, h⟩ := Option.bind_eq_some_iff.mp h
  obtain ⟨sub, hsub, h⟩ := Option.bind_eq_some_iff.mp h
  obtain ⟨below, hbelow, h⟩ := Option.bind_eq_some_iff.mp h
  obtain ⟨c, hc, h⟩ := Option.bind_eq_some_iff.mp h
  obtain ⟨above, habove, h⟩ := Option.bind_eq_some_iff.mp h
  cases h
  refine ⟨⟨top, above⟩, ⟨sub, below⟩, ⟨fun x => ?_, fun x => ?_, fun x hx hnone => ?_,
    fun x hx hnone => ?_⟩, rfl, toOption_eq_some.mp hc⟩
  · exact get?_foldlM x htop
  · exact get?_foldlM x hsub
  · obtain ⟨hget, hvalue⟩ := get?_fromEnvironment hnone (toOption_eq_some.mp habove)
    exact ⟨hget.trans (if_pos hx), hvalue hx⟩
  · obtain ⟨hget, hvalue⟩ := get?_fromEnvironment hnone (toOption_eq_some.mp hbelow)
    exact ⟨hget.trans (if_pos hx), hvalue hx⟩

/-- What is found first decides; what is found after it is for settings without a text. -/
theorem or_found {o later : Option Value} {text text' : Option String}
    (ho : o = text.bind x.value? ∧ IsValue x text)
    (hlater : o = none → later = text'.bind x.value? ∧ IsValue x text') :
    o.or later = (text.or text').bind x.value? ∧ IsValue x (text.or text') := by
  obtain ⟨ho, hvalue⟩ := ho
  cases text with
  | none => subst ho; exact hlater rfl
  | some t =>
    obtain ⟨v, hv⟩ := Option.isSome_iff_exists.mp (hvalue t rfl)
    rw [Option.bind_some, hv] at ho
    rw [ho]
    exact ⟨hv.symm, hvalue⟩

/-- A setting of the viewport. -/
theorem Line.Finds.viewport (h : l.Finds env top sub) (hx : x ∈ viewportSettings) :
    (((sub.options.get? x).or (top.options.get? x)).or (sub.environment.get? x)).or
        (top.environment.get? x) = (l.text? env x).bind x.value? ∧ IsValue x (l.text? env x) := by
  have hmem : x ∈ (Level.command l.command).settings := by
    cases l.command <;> exact List.mem_append_right _ hx
  rw [Option.or_assoc, Option.or_assoc]
  refine or_found (h.behind x) fun hbehind => or_found (h.before x) fun hbefore => ?_
  -- both levels look at the same variable
  obtain ⟨hbelow, hvalue⟩ := h.variableBehind x hmem hbehind
  obtain ⟨habove, -⟩ := h.variableBefore x hx hbefore
  rw [hbelow, habove]
  exact ⟨Option.or_self, hvalue⟩

/-- A setting that only the command has. -/
theorem Line.Finds.own (h : l.Finds env top sub) (hx : x ∈ (Level.command l.command).settings)
    (hbefore : l.pairsBefore.lookup x = none) :
    (sub.options.get? x).or (sub.environment.get? x) = (l.text? env x).bind x.value? ∧
      IsValue x (l.text? env x) := by
  unfold Line.text?
  rw [hbefore, Option.none_or]
  exact or_found (h.behind x) fun hbehind => h.variableBehind x hx hbehind

theorem Entry.Fits.mem {level : Level} {e : Entry} (h : e.Fits level) :
    e.pair.1 ∈ level.settings := by
  cases e with
  | place text =>
    rw [h.1]
    exact List.mem_cons_self
  | _ => exact h.1

/-- Before the command only the viewport is set. -/
theorem Line.Proper.lookup_before (hl : l.Proper) (hx : x ∉ viewportSettings) :
    l.pairsBefore.lookup x = none := by
  rw [List.lookup_eq_none_iff]
  intro p hp
  obtain ⟨e, he, rfl⟩ := List.mem_map.mp hp
  have hmem : e.pair.1 ∈ viewportSettings := (hl.before e he).mem
  rw [bne_iff_ne]
  rintro rfl
  exact hx hmem

theorem default?_of_viewport (h : a.viewport = viewport top sub) (hx : x ∈ viewportSettings) :
    ∃ default, x.kind = .number ∧ x.default? = some (.number default) ∧
      a.value? x = some (.number (number top sub x default)) := by
  have hcases : x = .viewportX ∨ x = .viewportY ∨ x = .viewportWidth ∨ x = .viewportHeight := by
    simpa [viewportSettings] using hx
  rcases hcases with rfl | rfl | rfl | rfl <;>
    exact ⟨_, rfl, rfl, by rw [Arguments.value?, h]; rfl⟩

/-- The settings of serving. -/
theorem value?_of_serve (hl : l.Proper) (hname : l.command = .serve) (h : l.Finds env top sub)
    (ha : command .serve sub = .ok a.command) (hx : x ∈ [.port, .panelUrl, .panelTitle]) :
    a.value? x = (l.text? env x).elim x.default? x.value? := by
  have hsettings : ∀ y ∈ [Setting.port, .panelUrl, .panelTitle],
      y ∈ (Level.command .serve).settings ∧ y ∉ viewportSettings := by decide
  obtain ⟨hmem, hview⟩ := hsettings x hx
  have hown := h.own (by rw [hname]; exact hmem) (hl.lookup_before hview)
  have hcommand := Except.ok.inj ha
  rcases List.mem_cons.mp hx with rfl | hx
  · rw [Arguments.value?, ← hcommand]
    exact port_eq hown.2 hown.1
  rcases List.mem_cons.mp hx with rfl | hx
  · rw [Arguments.value?, ← hcommand]
    exact text_eq rfl _ hown.1
  · obtain rfl := List.mem_singleton.mp hx
    rw [Arguments.value?, ← hcommand]
    exact text_eq rfl _ hown.1

/-- The settings of drawing. -/
theorem value?_of_generate (hl : l.Proper) (hname : l.command = .generate)
    (h : l.Finds env top sub) (ha : command .generate sub = .ok a.command)
    (hx : x ∈ [.input, .snapshot]) :
    a.value? x = (l.text? env x).elim x.default? x.value? := by
  have hsettings : ∀ y ∈ [Setting.input, .snapshot],
      y ∈ (Level.command .generate).settings ∧ y ∉ viewportSettings ∧ y.variableName? = none := by
    decide
  obtain ⟨hmem, hview, hvariable⟩ := hsettings x hx
  have hmem : x ∈ (Level.command l.command).settings := by rw [hname]; exact hmem
  obtain ⟨hfound, -⟩ := h.own hmem (hl.lookup_before hview)
  -- these settings have no variable
  have hoptions : sub.options.get? x = (l.text? env x).bind x.value? := by
    cases hget : sub.options.get? x with
    | some v => rw [hget] at hfound; exact hfound
    | none =>
      obtain ⟨henv, -⟩ := h.variableBehind x hmem hget
      rw [Environment.text?, hvariable] at henv
      rw [hget, henv] at hfound
      exact hfound
  unfold command at ha
  dsimp only at ha
  split at ha
  · rename_i input hinput
    have hcommand := Except.ok.inj ha
    rcases List.mem_cons.mp hx with rfl | hx
    · rw [Arguments.value?, ← hcommand]
      rw [hinput] at hoptions
      obtain ⟨t, ht, hv⟩ := Option.bind_eq_some_iff.mp hoptions.symm
      rw [ht]
      exact hv.symm
    · obtain rfl := List.mem_singleton.mp hx
      rw [Arguments.value?, ← hcommand, hoptions]
      cases l.text? env .snapshot <;> rfl
  · cases ha

/-- The command is that of the line. -/
theorem name_of_command (h : command l.command sub = .ok a.command) : a.name = l.command := by
  unfold command at h
  unfold Arguments.name
  split at h
  · rename_i hname
    rw [← Except.ok.inj h, hname]
  · rename_i hname
    split at h
    · rw [← Except.ok.inj h, hname]
    · cases h

/-- **The settings of a line that is understood.** -/
theorem value?_of_parse (hl : l.Proper) (h : parse env l.words = .ok a) :
    a.name = l.command ∧ ∀ x ∈ (Level.command l.command).settings,
      a.value? x = (l.text? env x).elim x.default? x.value? := by
  obtain ⟨top, sub, hfinds, hview, hcommand⟩ := exists_finds hl h
  refine ⟨name_of_command hcommand, fun x hx => ?_⟩
  by_cases hmem : x ∈ viewportSettings
  · obtain ⟨default, hkind, hdefault, hvalue⟩ := default?_of_viewport hview hmem
    obtain ⟨hfound, hsource⟩ := hfinds.viewport hmem
    rw [hvalue, hdefault]
    exact number_eq hkind hsource default hfound
  · cases hname : l.command with
    | serve =>
      rw [hname] at hx hcommand
      exact value?_of_serve hl hname hfinds hcommand ((List.mem_append.mp hx).resolve_right hmem)
    | generate =>
      rw [hname] at hx hcommand
      exact value?_of_generate hl hname hfinds hcommand
        ((List.mem_append.mp hx).resolve_right hmem)

end Lines

/-! ### The order of entries -/

/-- Two lines with the same entries in other places of their level. -/
structure Line.Reordered (l l' : Line) : Prop where
  before : l'.before.Perm l.before
  command : l'.command = l.command
  behind : l'.behind.Perm l.behind
  rest : l'.rest = l.rest

theorem complete_congr {env : Environment} {name : CommandName} {top top' sub sub' : Given}
    (htop : ∀ x, top.get? x = top'.get? x) (hsub : ∀ x, sub.get? x = sub'.get? x) :
    complete env name top sub = complete env name top' sub' := by
  have hcommand (e : Given) : command name ⟨sub, e⟩ = command name ⟨sub', e⟩ := by
    unfold command port text
    simp only [hsub]
  have hview (e e' : Given) : viewport ⟨top, e⟩ ⟨sub, e'⟩ = viewport ⟨top', e⟩ ⟨sub', e'⟩ := by
    unfold viewport number
    simp only [htop, hsub]
  unfold complete
  simp only [fromEnvironment_congr env htop, fromEnvironment_congr env hsub, hcommand, hview]

/-- **The order of entries does not matter** at either level. -/
theorem parse_reordered {l l' : Line} {env : Environment} {a : Arguments} (hl : l.Proper)
    (hperm : l.Reordered l') (h : parse env l.words = .ok a) : parse env l'.words = .ok a := by
  have hl' : l'.Proper := by
    refine ⟨fun e he => hl.before e (hperm.before.mem_iff.mp he), fun e he => ?_, ?_⟩
    · rw [hperm.command]
      exact hl.behind e (hperm.behind.mem_iff.mp he)
    · rw [hperm.command, hperm.rest]
      exact hl.rest
  rw [← toOption_eq_some, toOption_parse_line hl] at h
  obtain ⟨top, htop, h⟩ := Option.bind_eq_some_iff.mp h
  obtain ⟨sub, hsub, h⟩ := Option.bind_eq_some_iff.mp h
  have hbehind : l'.pairsBehind.Perm l.pairsBehind := by
    unfold Line.pairsBehind
    rw [hperm.rest]
    exact (hperm.behind.map Entry.pair).append_right _
  obtain ⟨top', htop', htopEq⟩ := foldlM_perm (hperm.before.map Entry.pair) htop
  obtain ⟨sub', hsub', hsubEq⟩ := foldlM_perm hbehind hsub
  have htop' : l'.pairsBefore.foldlM enter [] = some top' := htop'
  rw [← toOption_eq_some, toOption_parse_line hl', htop', Option.bind_some, hsub',
    Option.bind_some, hperm.command, complete_congr htopEq hsubEq]
  exact h

/-! ### All of it -/

/-- **A line and the environment decide on the settings**, each by itself. -/
structure Line.Governs (l : Line) (env : Environment) (a : Arguments) : Prop where
  command : a.name = l.command
  /-- The entry behind the command decides, else the one before it, else the variable, else the
  default. -/
  value : ∀ x ∈ (Level.command l.command).settings,
    a.value? x = (l.text? env x).elim x.default? x.value?
  /-- These settings are what serving needs, with a panel of one size. -/
  serve : ∀ port url title, a.command = .serve port url title →
    ServerConfig.of? a = some ⟨port, a.viewport, ⟨title, url, 400, 600⟩⟩
  generate : l.command = .generate → ServerConfig.of? a = none
  /-- The entries of a level may stand in any order. -/
  reordered : ∀ l' : Line, l.Reordered l' → parse env l'.words = .ok a
  /-- A setting depends on its own entries and its own variable. -/
  alone : ∀ (env' : Environment) (l' : Line) (a' : Arguments), l'.Proper →
    parse env' l'.words = .ok a' → ∀ x ∈ (Level.command l.command).settings,
      x ∈ (Level.command l'.command).settings →
        l'.text? env' x = l.text? env x → a'.value? x = a.value? x

/-- **Where settings come from.** Words that are understood are those of a command line with known
entries, and every such line governs the settings that are understood. -/
theorem settings_of_parse (env : Environment) (words : List String) (a : Arguments)
    (h : parse env words = .ok a) :
    (∃ l : Line, l.Proper ∧ l.words = words) ∧
      ∀ l : Line, l.Proper → l.words = words → l.Governs env a := by
  refine ⟨exists_line h, fun l hl hwords => ?_⟩
  subst hwords
  obtain ⟨hname, hvalue⟩ := value?_of_parse hl h
  refine ⟨hname, hvalue, fun port url title ha => ?_, fun hgenerate => ?_,
    fun l' hperm => parse_reordered hl hperm h, fun env' l' a' hl' h' x hx hx' htext => ?_⟩
  · rw [ServerConfig.of?, ha]; rfl
  · rw [← hname, Arguments.name] at hgenerate
    unfold ServerConfig.of?
    cases hcommand : a.command with
    | serve => rw [hcommand] at hgenerate; cases hgenerate
    | generate => rfl
  · rw [(value?_of_parse hl' h').2 x hx', htext, hvalue x hx]

/-- An option on both sides of the command, one before it in two words, one behind it with a value
that begins with a hyphen, and three variables, of which one does not decide. -/
theorem settings_of_parse_serve :
    let env : Environment := fun name =>
      if name = "FORGE_VIEWPORT_X" then some "9" else if name = "FORGE_VIEWPORT_Y" then some "-2"
      else if name = "FORGE_PORT" then some "80" else none
    let l : Line := ⟨[.joined .viewportX "1", .apart .viewportWidth "5"], .serve,
      [.apart .viewportX "2.5", .joined .panelTitle "--x"], none⟩
    let a : Arguments := ⟨⟨2.5, -2.0, 5.0, 900.0⟩, .serve 80 "plugin.html" "--x"⟩
    l.words = ["--viewport-x=1", "--viewport-width", "5", "serve", "--viewport-x", "2.5",
      "--panel-title=--x"] ∧ parse env l.words = .ok a ∧ l.Proper ∧ l.Governs env a := by
  intro env l a
  have h : parse env l.words = .ok a := by decide +kernel
  have hl : l.Proper := ⟨by decide +kernel, by decide +kernel, .inl rfl⟩
  exact ⟨by decide +kernel, h, hl, (settings_of_parse env l.words a h).2 l hl rfl⟩

end Artboard.CommandLine
