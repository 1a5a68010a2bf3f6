import Artboard.Proofs.CommandLine.Scanning
import Artboard.Proofs.Json.Written

/-! # Two spellings of an option

The value of an option follows it in a word of its own or, behind an equals sign, in the same word.

* `Passage`, `passage`: what becomes of a scan behind some words, whatever follows them.
* `understood_apart`: both spellings mean the same, among any other words.
* `apart_iff_joined`: the same for whole command lines. A value in a word of its own is refused just
  if it begins with a hyphen, as negative numbers do (`negative_refused_apart`). -/

namespace Artboard.CommandLine

open Json (toOption_eq_some)

/-! ### Behind other words -/

/-- What becomes of a scan behind some words, whatever follows them. -/
inductive Passage (level : Level) (before : List String) (s : Scan) : Prop
  /-- The level goes on. -/
  | on (t : Scan) (h : ∀ words, scan level (before ++ words) s = scan level words t)
  | refused (h : ∀ words, reach level (before ++ words) s = none)
  /-- The level has ended. -/
  | command (name : CommandName) (behind : List String) (t : Scan) (htop : level = .top)
    (hbehind : "--" ∉ behind)
    (h : ∀ words, scan level (before ++ words) s = .ok (t, some (name, behind ++ words)))

theorem passage (level : Level) : ∀ {before : List String} (s : Scan), "--" ∉ before →
    Passage level before s
  | [], s, _ => .on s fun _ => rfl
  | word :: before, s, h => by
    obtain ⟨hword, hbefore⟩ := not_or.mp (mt List.mem_cons.mpr h)
    cases arrival level s word with
    | dashes => exact absurd rfl hword
    | help htop hs =>
      subst htop
      exact .refused fun words => reach_help (before ++ words) hs
    | command name htop hs hname =>
      subst htop
      exact .command name before s rfl hbefore fun words => scan_command hname hs
    | taken hdashes hcommand =>
      have htaken (words : List String) := scan_taken hdashes hcommand (before ++ words)
      cases htake : s.take level word with
      | error e =>
        refine .refused fun words => ?_
        rw [List.cons_append, reach_taken hdashes hcommand, htake]; rfl
      | ok t =>
        simp only [htake] at htaken
        cases passage level t hbefore with
        | on u hu => exact .on u fun words => (htaken words).trans (hu words)
        | refused hu =>
          refine .refused fun words => ?_
          rw [List.cons_append, reach_taken hdashes hcommand, htake]
          exact hu words
        | command name behind u htop hbehind hu =>
          exact .command name behind u htop hbehind fun words => (htaken words).trans (hu words)

/-! ### Both spellings -/

section Spellings
variable {x : Setting} {level : Level} {text : String} {after : List String}

/-- Where an option may stand, its two spellings lead to the same. -/
theorem reach_spellings (hx : x ∈ viewportSettings) (level : Level) (s : Scan) :
    reach level (x.option :: text :: after) s =
      if isPlain text then reach level (x.optionWith text :: after) s else none := by
  have hmem : x ∈ level.settings := by
    rcases level with _ | _ | _
    · exact hx
    · exact List.mem_append_right _ hx
    · exact List.mem_append_right _ hx
  have hkinds : ∀ y ∈ viewportSettings, y ≠ .input ∧ y.kind ≠ .flag := by decide
  obtain ⟨hoption, hkind⟩ := hkinds x hx
  rw [reach_apart hmem hoption hkind, reach_joined hmem hoption hkind]

/-- The same behind other words of a command. -/
theorem reach_append_spellings (hx : x ∈ viewportSettings) {before : List String}
    (hbefore : "--" ∉ before) (name : CommandName) (s : Scan) :
    reach (.command name) (before ++ x.option :: text :: after) s =
      if isPlain text then reach (.command name) (before ++ x.optionWith text :: after) s
      else none := by
  cases passage (.command name) s hbefore with
  | on t h =>
    have hreach (words : List String) :
        reach (.command name) (before ++ words) s = reach (.command name) words t := by
      rw [reach, h, reach]
    rw [hreach, hreach, reach_spellings hx]
  | refused h => rw [h, h, ite_self]
  | command _ _ _ htop => cases htop

theorem understood_spellings (env : Environment) (hx : x ∈ viewportSettings) {before : List String}
    (hbefore : "--" ∉ before) :
    (parse env (before ++ x.option :: text :: after)).toOption =
      if isPlain text then (parse env (before ++ x.optionWith text :: after)).toOption
      else none := by
  rw [toOption_parse, toOption_parse]
  cases passage .top .start hbefore with
  | on t h =>
    have hreach (words : List String) :
        reach .top (before ++ words) .start = reach .top words t := by
      rw [reach, h, reach]
    rw [hreach, hreach, reach_spellings hx]
    split_ifs <;> rfl
  | refused h => rw [h, h]; simp
  | command name behind t _ hbehind h =>
    have hreach (words : List String) : reach .top (before ++ words) .start =
        t.settle.toOption.map fun u => (u.given, some (name, behind ++ words)) := by
      rw [reach, h]; rfl
    rw [hreach, hreach]
    cases t.settle with
    | error e => split_ifs <;> rfl
    | ok u =>
      show understood env u.given (name, _) = _
      unfold understood
      rw [reach_append_spellings hx hbehind]
      split_ifs <;> rfl

end Spellings

/-- **Both spellings of an option mean the same**, unless its value begins with a hyphen. Let a
viewport option stand among any other words, but not behind `--`, where it is no option. With its
value in a word of its own the command line is understood if and only if that word can be a value
and the command line is understood with the value in the same word; and it is understood alike. -/
theorem apart_iff_joined (env : Environment) (before after : List String) (x : Setting)
    (text : String) (a : Arguments) (hx : x ∈ viewportSettings) (hbefore : "--" ∉ before) :
    parse env (before ++ x.option :: text :: after) = .ok a ↔
      isPlain text = true ∧ parse env (before ++ x.optionWith text :: after) = .ok a := by
  rw [← toOption_eq_some, ← toOption_eq_some, understood_spellings env hx hbefore]
  split_ifs with h <;> simp [h]

/-- An option behind the command, among others. -/
theorem apart_iff_joined_serve :
    let before := ["--viewport-y=1", "serve", "--panel-title", "a"]
    let after := ["--port", "80"]
    let a : Arguments := ⟨⟨2.5, 1.0, 1440.0, 900.0⟩, .serve 80 "plugin.html" "a"⟩
    Setting.viewportX ∈ viewportSettings ∧ "--" ∉ before ∧
      parse (fun _ => none) (before ++ ["--viewport-x", "2.5"] ++ after) = .ok a := by
  intro before after a
  have hbefore : "--" ∉ before := by decide +kernel
  have hjoined : parse (fun _ => none) (before ++ Setting.viewportX.optionWith "2.5" :: after) =
      .ok a := by decide +kernel
  exact ⟨by decide, hbefore, (apart_iff_joined (fun _ => none) before after .viewportX "2.5" a
    (by decide) hbefore).mpr ⟨by decide +kernel, hjoined⟩⟩

/-- A negative number is a value of the viewport, but not in a word of its own. -/
theorem negative_refused_apart :
    Number.parse? "-5" = some (-5.0) ∧
    parse (fun _ => none) ["serve", "--viewport-x", "-5"] = .error .unknownArgument ∧
    parse (fun _ => none) ["serve", "--viewport-x=-5"] =
      .ok ⟨⟨-5.0, 0.0, 1440.0, 900.0⟩, .serve 9474 "plugin.html" "Design Forge"⟩ := by
  decide +kernel

end Artboard.CommandLine
