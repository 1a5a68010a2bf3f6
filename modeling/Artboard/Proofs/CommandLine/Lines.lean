import Artboard.Proofs.CommandLine.Scanning
import Artboard.Proofs.Json.Written

/-! # Command lines as they are written

A command line is a command with entries before and behind it.

* `Entry`, `Line`: entries and command lines. `Entry.Fits`, `Line.Proper`: each entry is known where
  it stands.
* `enter`: what one entry gives. `reach_entries`: what the entries of a level give.
* `exists_entry`, `exists_entries`: all words that a level takes are entries.
* `toOption_parse_line`: a line is understood from what its entries give, and `exists_line`: only
  such lines are understood. -/

namespace Artboard.CommandLine

open Json (toOption_eq_some)

/-- An entry of a command line. -/
inductive Entry
  /-- An option with its value in the next word. -/
  | apart (x : Setting) (text : String)
  /-- An option with its value in the same word. -/
  | joined (x : Setting) (text : String)
  /-- An option without a value. -/
  | switch (x : Setting)
  /-- The input, which is told by its place. -/
  | place (text : String)
  deriving DecidableEq, Repr

/-- The word for a command. -/
def CommandName.word : CommandName → String
  | .serve => "serve"
  | .generate => "generate"

namespace Entry

/-- How an entry is written. -/
def words : Entry → List String
  | .apart x text => [x.option, text]
  | .joined x text => [x.optionWith text]
  | .switch x => [x.option]
  | .place text => [text]

/-- The setting of an entry and the text of its value. -/
def pair : Entry → Setting × String
  | .apart x text => (x, text)
  | .joined x text => (x, text)
  | .switch x => (x, "")
  | .place text => (.input, text)

/-- Whether an entry is known at a level. -/
def Fits (level : Level) : Entry → Prop
  | .apart x text => x ∈ level.settings ∧ x ≠ .input ∧ x.kind ≠ .flag ∧ isPlain text = true
  | .joined x _ => x ∈ level.settings ∧ x ≠ .input ∧ x.kind ≠ .flag
  | .switch x => x ∈ level.settings ∧ x ≠ .input ∧ x.kind = .flag
  | .place text => level = .command .generate ∧ isPlain text = true

instance (level : Level) (e : Entry) : Decidable (e.Fits level) := by
  cases e <;> unfold Fits <;> infer_instance

end Entry

/-- The value of a setting that a text spells. -/
def Setting.value? (x : Setting) (text : String) : Option Value := (x.kind.parse text).toOption

/-- What is given once a setting is given a text, if it has no value yet. -/
def enter (given : Given) (p : Setting × String) : Option Given :=
  if (given.get? p.1).isSome then none
  else (p.1.value? p.2).map fun v => given ++ [(p.1, v)]

/-- A scan that has found these settings, and nothing waits. -/
def Scan.of (given : Given) : Scan := ⟨given, none, (given.get? .input).isSome⟩

theorem get?_append (g h : Given) (x : Setting) :
    Given.get? (g ++ h) x = (g.get? x).or (h.get? x) := by
  unfold Given.get?
  rw [List.find?_append]
  cases g.find? fun p => p.1 = x <;> rfl

theorem get?_singleton (x : Setting) (v : Value) (y : Setting) :
    Given.get? [(x, v)] y = if x = y then some v else none := by
  unfold Given.get?
  rw [List.find?_singleton]
  split_ifs <;> simp_all

section Reach
variable {g : Given} {x : Setting} {text : String} {words : List String} {level : Level}

theorem settle_of (g : Given) : (Scan.of g).settle = .ok (Scan.of g) := rfl

theorem toOption_put (s : Scan) (x : Setting) (text : String) : (s.put x text).toOption =
    (enter s.given (x, text)).map fun given => { s with given } := by
  unfold Scan.put enter Setting.value?
  split_ifs
  · rfl
  · cases x.kind.parse text <;> rfl

theorem eq_of_enter {h : Given} (he : enter g (x, text) = some h) :
    ∃ v, x.value? text = some v ∧ h = g ++ [(x, v)] := by
  unfold enter at he
  split_ifs at he
  obtain ⟨v, hv, rfl⟩ := Option.map_eq_some_iff.mp he
  exact ⟨v, hv, rfl⟩

theorem toOption_put_of (hx : x ≠ .input) :
    ((Scan.of g).put x text).toOption = (enter g (x, text)).map Scan.of := by
  rw [toOption_put]
  refine Option.map_congr fun h hh => ?_
  obtain ⟨v, -, rfl⟩ := eq_of_enter hh
  have hinput : Given.get? (g ++ [(x, v)]) .input = g.get? .input := by
    rw [get?_append, get?_singleton, if_neg hx, Option.or_none]
  rw [Scan.of, Scan.of, hinput]

/-- The input is there now, and is checked before the next word. -/
theorem toOption_put_input (g : Given) (text : String) :
    (Scan.put .input text ⟨g, none, true⟩).toOption = (enter g (.input, text)).map Scan.of := by
  rw [toOption_put]
  refine Option.map_congr fun h hh => ?_
  obtain ⟨v, -, rfl⟩ := eq_of_enter hh
  have hinput : (Given.get? (g ++ [(.input, v)]) .input).isSome = true := by
    rw [get?_append, get?_singleton, if_pos rfl]
    cases g.get? .input <;> rfl
  rw [Scan.of, hinput]

theorem place_of (g : Given) (text : String) (dashes : Bool) :
    (Scan.of g).place (.command .generate) dashes text =
      if (g.get? .input).isSome then .error .unknownArgument
      else .ok ⟨g, some ⟨.input, some text⟩, true⟩ := rfl

/-- A word that is told by its place is the input, and there is one input. -/
theorem reach_place (g : Given) (text : String) (dashes : Bool) (words : List String) :
    ((Scan.of g).place (.command .generate) dashes text).toOption.bind
        (reach (.command .generate) words) =
      (enter g (.input, text)).bind fun g => reach (.command .generate) words (.of g) := by
  rw [place_of]
  by_cases hplaced : (g.get? .input).isSome = true
  · have henter : enter g (.input, text) = none := by rw [enter, if_pos hplaced]
    rw [henter, if_pos hplaced]; rfl
  · rw [if_neg hplaced]
    refine (reach_settle rfl (.command .generate) words).trans ?_
    show (Scan.put .input text ⟨g, none, true⟩).toOption.bind _ = _
    rw [toOption_put_input, Option.bind_map]; rfl

/-- **One entry**, whatever follows it. -/
theorem reach_entry {e : Entry} (he : e.Fits level) (g : Given) (words : List String) :
    reach level (e.words ++ words) (.of g) =
      (enter g e.pair).bind fun g => reach level words (.of g) := by
  cases e with
  | apart x text =>
    obtain ⟨hx, hoption, hkind, hplain⟩ := he
    refine (reach_apart hx hoption hkind text words _).trans ?_
    rw [if_pos hplain, settle_of]
    show (Scan.put x text (.of g)).toOption.bind _ = _
    rw [toOption_put_of hoption, Option.bind_map]; rfl
  | joined x text =>
    obtain ⟨hx, hoption, hkind⟩ := he
    refine (reach_joined hx hoption hkind text words _).trans ?_
    rw [settle_of]
    show (Scan.put x text (.of g)).toOption.bind _ = _
    rw [toOption_put_of hoption, Option.bind_map]; rfl
  | switch x =>
    obtain ⟨hx, hoption, hkind⟩ := he
    refine (reach_switch hx hoption hkind words _).trans ?_
    rw [settle_of]
    show (Scan.put x "" (.of g)).toOption.bind _ = _
    rw [toOption_put_of hoption, Option.bind_map]; rfl
  | place text =>
    obtain ⟨rfl, hplain⟩ := he
    have hdashes : text ≠ "--" := by rintro rfl; cases hplain
    refine (reach_taken hdashes (fun h => by cases h) words).trans ?_
    rw [take_of_isPlain hplain rfl]
    exact reach_place g text false words

/-- **The entries of a level**, whatever follows them. -/
theorem reach_entries {level : Level} (words : List String) :
    ∀ {entries : List Entry} {g : Given}, (∀ e ∈ entries, e.Fits level) →
      reach level (entries.flatMap Entry.words ++ words) (.of g) =
        ((entries.map Entry.pair).foldlM enter g).bind fun g => reach level words (.of g)
  | [], g, _ => rfl
  | e :: entries, g, h => by
    obtain ⟨he, hentries⟩ := List.forall_mem_cons.mp h
    rw [List.flatMap_cons, List.append_assoc, reach_entry he, List.map_cons, List.foldlM_cons]
    refine Eq.trans ?_ (Option.bind_assoc ..).symm
    exact congrArg _ (funext fun g => reach_entries words hentries)

theorem reach_dashes_cons (level : Level) (word : String) (words : List String) (s : Scan) :
    reach level ("--" :: word :: words) s =
      (s.place level true word).toOption.bind (reach level ("--" :: words)) := by
  rw [reach_dashes, Scan.takeRest]
  cases s.place level true word with
  | error e => rfl
  | ok t => exact (reach_dashes level words t).symm

/-- Behind `--` each word is told by its place. -/
theorem reach_rest : ∀ (words : List String) (g : Given),
    reach (.command .generate) ("--" :: words) (.of g) =
      ((words.map fun word => (Setting.input, word)).foldlM enter g).map fun g => (g, none)
  | [], _ => rfl
  | word :: words, g => by
    rw [reach_dashes_cons, reach_place, List.map_cons, List.foldlM_cons]
    refine Eq.trans ?_ Option.map_bind.symm
    exact congrArg _ (funext fun g => reach_rest words g)

/-! ### All words are entries -/

theorem eq_word_of_name {word : String} {name : CommandName}
    (h : CommandName.of? word = some name) : word = name.word := by
  unfold CommandName.of? at h
  split_ifs at h with hserve hgenerate
  · cases h; exact hserve
  · cases h; exact hgenerate

/-- A long option that is taken has a setting that is known. -/
theorem exists_of_long {option : List Char} {s : Scan}
    (h : (s.long level option).toOption ≠ none) :
    ∃ x, x ∈ level.settings ∧ x ≠ .input ∧ (option = (x.optionName?.getD "").toList ∨
      ∃ text : String, x.kind ≠ .flag ∧
        option = (x.optionName?.getD "").toList ++ '=' :: text.toList) := by
  have hsplit : option.takeWhile (· ≠ '=') ++ option.dropWhile (· ≠ '=') = option :=
    List.takeWhile_append_dropWhile
  unfold Scan.long at h
  cases hname : level.long? (String.ofList (option.takeWhile (· ≠ '='))) with
  | none => simp only [hname] at h; exact absurd rfl h
  | some meaning =>
    simp only [hname] at h
    by_cases hmeaning : ∀ x, meaning ≠ .setting x
    · exact absurd (Scan.act_eq_none hmeaning _ s) h
    · obtain ⟨x, hx⟩ := not_forall_not.mp hmeaning
      subst hx
      obtain ⟨hmem, hoption, htake⟩ := mem_of_long? hname
      have htake : (x.optionName?.getD "").toList = option.takeWhile (· ≠ '=') := by
        rw [htake, String.toList_ofList]
      refine ⟨x, hmem, hoption, ?_⟩
      rw [htake]
      cases hdrop : option.dropWhile (· ≠ '=') with
      | nil =>
        rw [hdrop, List.append_nil] at hsplit
        exact .inl hsplit.symm
      | cons c value =>
        have hc : c = '=' := by
          have hhead := List.head?_dropWhile_not (· ≠ '=') option
          rw [hdrop] at hhead
          simpa using hhead
        rw [hdrop, hc] at hsplit
        refine .inr ⟨String.ofList value, ?_, by rw [String.toList_ofList, hsplit]⟩
        intro hkind
        simp only [hdrop, Scan.act, if_pos hkind] at h
        exact h rfl

/-- **A word that is taken begins an entry** that is known at the level. -/
theorem exists_entry {word : String} (hdashes : word ≠ "--")
    (hcommand : level = .top → word ≠ "help" ∧ CommandName.of? word = none)
    (h : reach level (word :: words) (.of g) ≠ none) :
    ∃ e rest, Entry.Fits level e ∧ word :: words = e.words ++ rest := by
  have htaken := reach_taken (s := .of g) hdashes (fun htop _ => hcommand htop) words
  cases hplain : isPlain word with
  | true =>
    rw [htaken, take_of_isPlain hplain rfl] at h
    rcases level with _ | _ | _
    · exact absurd (by rw [Scan.place]; split_ifs <;> rfl) h
    · exact absurd rfl h
    · exact ⟨.place word, words, ⟨rfl, hplain⟩, rfl⟩
  | false =>
    rcases take_of_not_isPlain hplain level with ⟨option, hword, htake⟩ | ⟨c, options, htake⟩
    · have hlong : ((Scan.of g).long level option).toOption ≠ none := fun hnone => by
        rw [htaken, htake, hnone] at h
        exact h rfl
      obtain ⟨x, hx, hoption, rfl | ⟨text, hkind, rfl⟩⟩ := exists_of_long hlong
      · have hword : word = x.option := String.ext (hword.trans (toList_option x).symm)
        subst hword
        by_cases hkind : x.kind = .flag
        · exact ⟨.switch x, words, ⟨hx, hoption, hkind⟩, rfl⟩
        · match words with
          | [] => exact absurd (reach_option_alone hx hoption hkind _) h
          | text :: rest =>
            rw [reach_apart hx hoption hkind] at h
            refine ⟨.apart x text, rest, ⟨hx, hoption, hkind, ?_⟩, rfl⟩
            by_contra htext
            rw [if_neg htext] at h
            exact h rfl
      · have hword : word = x.optionWith text :=
          String.ext (hword.trans (toList_optionWith x text).symm)
        subst hword
        exact ⟨.joined x text, words, ⟨hx, hoption, hkind⟩, rfl⟩
    · rw [htaken, htake] at h
      rw [Scan.short_eq_none] at h
      exact absurd rfl h

/-- What ends a level, with the command that it gives. -/
inductive Ending (level : Level) : List String → Option (CommandName × List String) → Prop
  | nil : Ending level [] none
  | dashes (rest : List String) (h : rest = [] ∨ level = .command .generate) :
    Ending level ("--" :: rest) none
  | command (name : CommandName) (words : List String) (htop : level = .top) :
    Ending level (name.word :: words) (some (name, words))

/-- **All words of a level are entries**, up to what ends it. -/
theorem exists_entries : ∀ {words : List String} {g h : Given}
    {r : Option (CommandName × List String)}, (level = .top → r ≠ none) →
    reach level words (.of g) = some (h, r) →
    ∃ (entries : List Entry) (tail : List String), (∀ e ∈ entries, e.Fits level) ∧
      Ending level tail r ∧ words = entries.flatMap Entry.words ++ tail
  | [], g, h, r, _, hreach => by
    cases hreach
    exact ⟨[], [], nofun, .nil, rfl⟩
  | word :: words, g, h, r, hlevel, hreach => by
    cases arrival level (.of g) word with
    | dashes =>
      obtain rfl : r = none := by
        rw [reach_dashes] at hreach
        obtain ⟨t, -, ht⟩ := Option.bind_eq_some_iff.mp hreach
        obtain ⟨u, -, hu⟩ := Option.map_eq_some_iff.mp ht
        exact (congrArg Prod.snd hu).symm
      refine ⟨[], "--" :: words, nofun, .dashes words ?_, rfl⟩
      match level, words with
      | .top, _ => exact absurd rfl (hlevel rfl)
      | .command .generate, _ => exact .inr rfl
      | .command .serve, [] => exact .inl rfl
      | .command .serve, _ :: _ => cases hreach
    | help htop =>
      subst htop
      rw [reach_help words rfl] at hreach
      cases hreach
    | command name htop _ hname =>
      subst htop
      rw [reach_command hname rfl] at hreach
      cases hreach
      rw [eq_word_of_name hname]
      exact ⟨[], _, nofun, .command name words rfl, rfl⟩
    | taken hdashes hcommand =>
      have hsome : reach level (word :: words) (.of g) ≠ none := by rw [hreach]; nofun
      obtain ⟨e, rest, he, hwords⟩ := exists_entry hdashes (fun htop => hcommand htop rfl) hsome
      rw [hwords, reach_entry he] at hreach
      obtain ⟨g', -, hreach⟩ := Option.bind_eq_some_iff.mp hreach
      have hle : rest.length ≤ words.length := by
        have hlength := congrArg List.length hwords
        have hpos : 0 < e.words.length := by cases e <;> simp [Entry.words]
        rw [List.length_append, List.length_cons] at hlength
        omega
      obtain ⟨entries, tail, hentries, htail, hrest⟩ := exists_entries hlevel hreach
      refine ⟨e :: entries, tail, List.forall_mem_cons.mpr ⟨he, hentries⟩, htail, ?_⟩
      rw [hwords, hrest, List.flatMap_cons, List.append_assoc]
  termination_by words => words.length

end Reach

/-! ### Lines -/

/-- A command line. -/
structure Line where
  before : List Entry
  command : CommandName
  behind : List Entry
  /-- The words behind `--`, if it is there. -/
  rest : Option (List String)
  deriving DecidableEq, Repr

namespace Line

/-- How what stands behind the command is written. -/
def wordsBehind (l : Line) : List String :=
  l.behind.flatMap Entry.words ++ l.rest.elim [] fun rest => "--" :: rest

/-- How a line is written. -/
def words (l : Line) : List String :=
  l.before.flatMap Entry.words ++ l.command.word :: l.wordsBehind

/-- What the entries before the command give. -/
def pairsBefore (l : Line) : List (Setting × String) := l.before.map Entry.pair

/-- What the entries behind the command give. A word behind `--` is an input. -/
def pairsBehind (l : Line) : List (Setting × String) :=
  l.behind.map Entry.pair ++ (l.rest.getD []).map fun word => (.input, word)

/-- **Each entry is known where it stands.** -/
structure Proper (l : Line) : Prop where
  before : ∀ e ∈ l.before, e.Fits .top
  behind : ∀ e ∈ l.behind, e.Fits (.command l.command)
  rest : l.rest.getD [] = [] ∨ l.command = .generate

variable {l : Line}

theorem reach_before (h : l.Proper) : reach .top l.words .start =
    (l.pairsBefore.foldlM enter []).map fun g => (g, some (l.command, l.wordsBehind)) := by
  have hname : CommandName.of? l.command.word = some l.command := by cases l.command <;> rfl
  have hcommand (g : Given) : reach .top (l.command.word :: l.wordsBehind) (.of g) =
      some (g, some (l.command, l.wordsBehind)) := reach_command hname rfl
  refine (reach_entries _ (g := []) h.before).trans ?_
  rw [funext hcommand, Option.map_eq_bind]; rfl

theorem reach_behind (h : l.Proper) : reach (.command l.command) l.wordsBehind .start =
    (l.pairsBehind.foldlM enter []).map fun g => (g, none) := by
  refine (reach_entries _ (g := []) h.behind).trans ?_
  have hrest (g : Given) : reach (.command l.command)
      (l.rest.elim [] fun rest => "--" :: rest) (.of g) =
        (((l.rest.getD []).map fun word => (Setting.input, word)).foldlM enter g).map
          fun g => (g, none) := by
    rcases h.rest with hnil | hgenerate
    · rw [hnil]
      cases hr : l.rest with
      | none => rfl
      | some rest =>
        obtain rfl : rest = [] := by rw [hr] at hnil; exact hnil
        rfl
    · rw [hgenerate]
      cases l.rest with
      | none => rfl
      | some rest => exact reach_rest rest g
  rw [funext hrest, pairsBehind, List.foldlM_append]
  exact Option.map_bind.symm

end Line

/-- **A line is understood from what its entries give.** -/
theorem toOption_parse_line {l : Line} (h : l.Proper) (env : Environment) :
    (parse env l.words).toOption =
      (l.pairsBefore.foldlM enter []).bind fun top =>
        (l.pairsBehind.foldlM enter []).bind fun sub => complete env l.command top sub := by
  rw [toOption_parse, l.reach_before h, Option.bind_map]
  refine congrArg _ (funext fun top => ?_)
  show (reach (.command l.command) l.wordsBehind .start).bind _ = _
  rw [l.reach_behind h, Option.bind_map]; rfl

/-- **What is understood is a line.** -/
theorem exists_line {env : Environment} {words : List String} {a : Arguments}
    (h : parse env words = .ok a) : ∃ l : Line, l.Proper ∧ l.words = words := by
  rw [← toOption_eq_some, toOption_parse] at h
  obtain ⟨⟨top, r⟩, htop, h⟩ := Option.bind_eq_some_iff.mp h
  obtain ⟨⟨name, words'⟩, hr, h⟩ := Option.bind_eq_some_iff.mp h
  obtain ⟨⟨sub, r'⟩, hsub, -⟩ := Option.bind_eq_some_iff.mp h
  have hr : r = some (name, words') := hr
  subst hr
  have hnone : some (name, words') ≠ none := nofun
  have hcommand : Level.command name ≠ .top := nofun
  obtain ⟨before, tail, hbefore, htail, rfl⟩ := exists_entries (g := []) (fun _ => hnone) htop
  obtain ⟨behind, tail', hbehind, htail', rfl⟩ :=
    exists_entries (g := []) (fun h => absurd h hcommand) hsub
  cases htail with
  | command _ _ _ =>
    cases htail' with
    | nil => exact ⟨⟨before, name, behind, none⟩, ⟨hbefore, hbehind, .inl rfl⟩, rfl⟩
    | dashes rest hrest =>
      refine ⟨⟨before, name, behind, some rest⟩, ⟨hbefore, hbehind, ?_⟩, rfl⟩
      exact hrest.imp id Level.command.inj
    | command _ _ hlevel => cases hlevel

end Artboard.CommandLine
