import Artboard.CommandLine.Parse
import Mathlib.Data.List.TakeWhile

/-! # Scanning words

What scanning gives does not depend on when a value is checked that waits: it may as well be checked
before the next word.

* `reach`: what a level gives in the end, and the command that ended it. `toOption_parse`: a command
  line is understood from this.
* `reach_settle`: a value that waits may be checked at once.
* `reach_apart`, `reach_joined`, `reach_switch`: one option of a level, in each of its spellings. -/

namespace Artboard.CommandLine

/-- A word that can be a value: it does not begin with a hyphen, or it is one. -/
def isPlain (word : String) : Bool :=
  match word.toList with
  | '-' :: _ :: _ => false
  | _ => true

/-- What a level gives, once the value that waits at its end is checked, and the command that ended
it with the words behind it. -/
def reach (level : Level) (words : List String) (s : Scan) :
    Option (Given × Option (CommandName × List String)) :=
  (scan level words s).toOption.bind fun (t, rest) =>
    t.settle.toOption.map fun t => (t.given, rest)

/-! ### Values that wait -/

namespace Scan

variable {s t : Scan} {level : Level} {word : String}

theorem settle_of_none (h : s.waiting = none) : s.settle = .ok s := by
  rw [settle, h]

theorem put_eq_ok {x : Setting} {text : String} : s.put x text = .ok t ↔
    s.given.get? x = none ∧ ∃ v, x.kind.parse text = .ok v ∧
      t = { s with given := s.given ++ [(x, v)] } := by
  unfold put
  cases s.given.get? x <;> cases x.kind.parse text <;> simp [eq_comm]

/-- A checked value waits no more. -/
theorem waiting_of_settle (h : s.settle = .ok t) : t.waiting = none ∧ t.placed = s.placed := by
  unfold settle at h
  split at h
  · cases h; exact ⟨‹_›, rfl⟩
  · cases h
  · obtain ⟨-, v, -, rfl⟩ := put_eq_ok.mp h
    exact ⟨rfl, rfl⟩

theorem settle_settle (h : s.settle = .ok t) : t.settle = .ok t :=
  settle_of_none (waiting_of_settle h).1

theorem not_isAwaiting_of_none (h : s.waiting = none) : s.isAwaiting = false := by
  rw [isAwaiting, h]

theorem settle_of_isAwaiting (h : s.isAwaiting = true) : s.settle = .error .valueMissing := by
  unfold isAwaiting at h
  unfold settle
  split at h
  · rename_i hs; rw [hs]
  · cases h

/-- An option is acted upon once the value is checked that waits. -/
theorem act_congr (h : s.settle = t.settle) (meaning : Meaning) (attached : Option String) :
    s.act meaning attached = t.act meaning attached := by
  unfold act; rw [h]

/-- What a long option means does not depend on what was found before it. -/
theorem exists_long (level : Level) (option : List Char) :
    (∀ s : Scan, s.long level option = .error .unknownArgument) ∨
      ∃ meaning attached, ∀ s : Scan, s.long level option = s.act meaning attached := by
  cases h : level.long? (String.ofList (option.takeWhile (· ≠ '='))) with
  | none => exact .inl fun s => by simp only [long, h]
  | some meaning => exact .inr ⟨meaning, _, fun s => by simp only [long, h]; exact rfl⟩

theorem long_congr (h : s.settle = t.settle) (option : List Char) :
    s.long level option = t.long level option := by
  rcases exists_long level option with hlong | ⟨meaning, attached, hlong⟩
  · rw [hlong, hlong]
  · rw [hlong, hlong, act_congr h]

theorem short_congr (h : s.settle = t.settle) (c : Char) (options : List Char) :
    short level (c :: options) s = short level (c :: options) t := by
  rw [short, short]
  simp only [act_congr h]

theorem place_congr (h : s.settle = t.settle) (hplaced : s.placed = t.placed) (dashes : Bool) :
    s.place level dashes word = t.place level dashes word := by
  unfold place; rw [h, hplaced]

/-- Nothing is taken if the value that waits is refused. -/
theorem act_of_error {e : UsageError} (h : s.settle = .error e) (meaning : Meaning)
    (attached : Option String) : (s.act meaning attached).toOption = none := by
  unfold act
  rw [h]
  rcases meaning with _ | _ | x
  · cases attached <;> rfl
  · cases attached <;> rfl
  · dsimp only
    split_ifs <;> cases attached <;> rfl

theorem long_of_error {e : UsageError} (h : s.settle = .error e) (option : List Char) :
    (s.long level option).toOption = none := by
  rcases exists_long level option with hlong | ⟨meaning, attached, hlong⟩
  · rw [hlong]; rfl
  · rw [hlong]; exact act_of_error h meaning attached

/-- Only settings lead on. -/
theorem act_eq_none {meaning : Meaning} (h : ∀ x, meaning ≠ .setting x) (attached : Option String)
    (s : Scan) : (s.act meaning attached).toOption = none := by
  unfold act
  rcases meaning with _ | _ | x
  · cases attached <;> [cases s.settle; skip] <;> rfl
  · cases attached <;> [cases s.settle; skip] <;> rfl
  · exact absurd rfl (h x)

/-- Short options ask for help or for the version, or are not known. -/
theorem short_eq_none (c : Char) (options : List Char) (s : Scan) :
    (short level (c :: options) s).toOption = none := by
  have hshort : ∀ meaning, level.short? c = some meaning → ∀ x, meaning ≠ .setting x := by
    unfold Level.short?
    intro meaning h x hx
    subst hx
    split_ifs at h <;> cases h
  rw [short]
  cases hc : level.short? c with
  | none => rfl
  | some meaning =>
    have hact := act_eq_none (hshort meaning hc) none s
    cases h : s.act meaning none with
    | error e => simp only [h]; rfl
    | ok t => rw [h] at hact; cases hact

theorem place_of_error {e : UsageError} (h : s.settle = .error e) (dashes : Bool) :
    (s.place level dashes word).toOption = none := by
  unfold place
  split
  · split_ifs <;> rfl
  · rfl
  · rw [h]
    split_ifs <;> rfl

end Scan

section Words
variable {s t : Scan} {level : Level} {word : String} {words : List String}

/-- A word that is no value is a long option or short ones. -/
theorem take_of_not_isPlain (h : isPlain word = false) (level : Level) :
    (∃ option, word.toList = '-' :: '-' :: option ∧
      ∀ s : Scan, s.take level word = s.long level option) ∨
      ∃ c options, ∀ s : Scan, s.take level word = Scan.short level (c :: options) s := by
  unfold isPlain at h
  split at h
  · rename_i c options hword
    by_cases hc : c = '-'
    · subst hc
      exact .inl ⟨options, hword, fun s => by simp only [Scan.take, hword]⟩
    · refine .inr ⟨c, options, fun s => ?_⟩
      unfold Scan.take
      split
      · rename_i hlong
        rw [hword] at hlong
        exact absurd (List.cons.inj (List.cons.inj hlong).2).1 hc
      · rename_i hshort
        rw [hword] at hshort
        cases hshort
        rfl
      · rename_i hne
        exact absurd hword (hne _ _)
  · cases h

theorem take_of_isPlain (h : isPlain word = true) (hs : s.isAwaiting = false) :
    s.take level word = s.place level false word := by
  unfold isPlain at h
  unfold Scan.isAwaiting at hs
  unfold Scan.take
  split at h
  · cases h
  · rename_i hword
    split
    · exact absurd ‹_› (hword _ _)
    · exact absurd ‹_› (hword _ _)
    · split
      · rename_i hwaiting; rw [hwaiting] at hs; cases hs
      · rfl

theorem take_of_waiting {x : Setting} (h : isPlain word = true)
    (hs : s.waiting = some ⟨x, none⟩) :
    s.take level word = .ok { s with waiting := some ⟨x, some word⟩ } := by
  unfold isPlain at h
  unfold Scan.take
  split at h
  · cases h
  · rename_i hword
    split
    · exact absurd ‹_› (hword _ _)
    · exact absurd ‹_› (hword _ _)
    · rw [hs]

theorem take_congr (h : s.settle = t.settle) (hplaced : s.placed = t.placed)
    (hs : s.isAwaiting = false) (ht : t.isAwaiting = false) :
    s.take level word = t.take level word := by
  cases hword : isPlain word with
  | true => rw [take_of_isPlain hword hs, take_of_isPlain hword ht, Scan.place_congr h hplaced]
  | false =>
    rcases take_of_not_isPlain hword level with ⟨option, -, htake⟩ | ⟨c, options, htake⟩
    · rw [htake, htake, Scan.long_congr h]
    · rw [htake, htake, Scan.short_congr h]

/-- Where the value that waits is refused, only a word for an option that waits is taken. -/
theorem take_of_error {e : UsageError} (h : s.settle = .error e)
    (hs : isPlain word = true → s.isAwaiting = false) : (s.take level word).toOption = none := by
  cases hword : isPlain word with
  | true => rw [take_of_isPlain hword (hs hword)]; exact Scan.place_of_error h false
  | false =>
    rcases take_of_not_isPlain hword level with ⟨option, -, htake⟩ | ⟨c, options, htake⟩
    · rw [htake]; exact Scan.long_of_error h option
    · rw [htake]; exact Scan.short_eq_none c options s

/-! ### Scanning on -/

theorem reach_nil (level : Level) (s : Scan) :
    reach level [] s = s.settle.toOption.map fun t => (t.given, none) := rfl

theorem reach_dashes (level : Level) (words : List String) (s : Scan) :
    reach level ("--" :: words) s =
      (s.takeRest level words).toOption.bind fun t =>
        t.settle.toOption.map fun t => (t.given, none) := by
  rw [reach, scan, if_neg (by simp), if_pos rfl]
  cases s.takeRest level words <;> rfl

/-- What a word can be that a level comes to. -/
inductive Arrival (level : Level) (s : Scan) : String → Prop
  | dashes : Arrival level s "--"
  | help (htop : level = .top) (hs : s.isAwaiting = false) : Arrival level s "help"
  | command {word : String} (name : CommandName) (htop : level = .top) (hs : s.isAwaiting = false)
    (hname : CommandName.of? word = some name) : Arrival level s word
  | taken {word : String} (hdashes : word ≠ "--")
    (hcommand : level = .top → s.isAwaiting = false →
      word ≠ "help" ∧ CommandName.of? word = none) : Arrival level s word

theorem arrival (level : Level) (s : Scan) (word : String) : Arrival level s word := by
  by_cases hdashes : word = "--"
  · subst hdashes; exact .dashes
  by_cases htop : level = .top ∧ s.isAwaiting = false
  · by_cases hhelp : word = "help"
    · subst hhelp; exact .help htop.1 htop.2
    · cases hname : CommandName.of? word with
      | some name => exact .command name htop.1 htop.2 hname
      | none => exact .taken hdashes fun _ _ => ⟨hhelp, hname⟩
  · exact .taken hdashes fun h hs => absurd ⟨h, hs⟩ htop

theorem reach_help (words : List String) (hs : s.isAwaiting = false) :
    reach .top ("help" :: words) s = none := by
  rw [reach, scan, if_pos ⟨rfl, by simp [hs], rfl⟩]; rfl

theorem scan_command {name : CommandName} (hname : CommandName.of? word = some name)
    (hs : s.isAwaiting = false) : scan .top (word :: words) s = .ok (s, some (name, words)) := by
  have hhelp : word ≠ "help" := by
    rintro rfl
    cases hname
  have hdashes : word ≠ "--" := by
    rintro rfl
    cases hname
  rw [scan, if_neg (by simp [hhelp]), if_neg hdashes, if_pos ⟨rfl, by simp [hs]⟩, hname]

theorem reach_command {name : CommandName} (hname : CommandName.of? word = some name)
    (hs : s.isAwaiting = false) : reach .top (word :: words) s =
      s.settle.toOption.map fun t => (t.given, some (name, words)) := by
  rw [reach, scan_command hname hs]; rfl

theorem scan_taken (hdashes : word ≠ "--") (hcommand : level = .top → s.isAwaiting = false →
    word ≠ "help" ∧ CommandName.of? word = none) (words : List String) :
    scan level (word :: words) s = (s.take level word).bind (scan level words) := by
  have hhelp : ¬ (level = .top ∧ ¬ s.isAwaiting = true ∧ word = "help") :=
    fun h => (hcommand h.1 (by simpa using h.2.1)).1 h.2.2
  rw [scan, if_neg hhelp, if_neg hdashes]
  split_ifs with htop
  · rw [(hcommand htop.1 (by simpa using htop.2)).2]
    rfl
  · rfl

theorem reach_taken (hdashes : word ≠ "--") (hcommand : level = .top → s.isAwaiting = false →
    word ≠ "help" ∧ CommandName.of? word = none) (words : List String) :
    reach level (word :: words) s = (s.take level word).toOption.bind (reach level words) := by
  rw [reach, scan_taken hdashes hcommand]
  cases s.take level word <;> rfl

/-- Scanning goes on alike from a scan in which the value that waits was checked. -/
theorem reach_congr (h : s.settle = t.settle) (hplaced : s.placed = t.placed)
    (hs : s.isAwaiting = false) (ht : t.isAwaiting = false) :
    reach level words s = reach level words t := by
  match words with
  | [] => rw [reach_nil, reach_nil, h]
  | word :: words =>
    cases arrival level s word with
    | dashes =>
      rw [reach_dashes, reach_dashes]
      match words with
      | [] => show s.settle.toOption.map _ = t.settle.toOption.map _; rw [h]
      | word :: words => rw [Scan.takeRest, Scan.takeRest, Scan.place_congr h hplaced]
    | help htop => subst htop; rw [reach_help words hs, reach_help words ht]
    | command name htop _ hname =>
      subst htop; rw [reach_command hname hs, reach_command hname ht, h]
    | taken hdashes hcommand =>
      rw [reach_taken hdashes hcommand, take_congr h hplaced hs ht,
        reach_taken hdashes fun htop _ => hcommand htop hs]

/-- Nothing is reached from a value that is refused. -/
theorem reach_of_error {e : UsageError} (h : s.settle = .error e)
    (hs : ∀ word ∈ words.head?, isPlain word = true → s.isAwaiting = false) :
    reach level words s = none := by
  match words with
  | [] => rw [reach_nil, h]; rfl
  | word :: words =>
    cases arrival level s word with
    | dashes =>
      rw [reach_dashes]
      match words with
      | [] => show s.settle.toOption.map _ = none; rw [h]; rfl
      | word :: words =>
        have hplace : (s.place level true word).toOption = none := Scan.place_of_error h true
        rw [Scan.takeRest]
        cases hp : s.place level true word with
        | error e => rfl
        | ok t => rw [hp] at hplace; cases hplace
    | help htop hhelp => subst htop; exact reach_help words hhelp
    | command name htop hcommand hname =>
      subst htop; rw [reach_command hname hcommand, h]; rfl
    | taken hdashes hcommand =>
      rw [reach_taken hdashes hcommand, take_of_error h (hs word rfl)]; rfl

/-- **A value that waits may be checked at once.** -/
theorem reach_settle (hs : s.isAwaiting = false) (level : Level) (words : List String) :
    reach level words s = s.settle.toOption.bind (reach level words) := by
  cases h : s.settle with
  | error e => exact reach_of_error h fun _ _ _ => hs
  | ok t =>
    obtain ⟨hwaiting, hplaced⟩ := Scan.waiting_of_settle h
    exact reach_congr (h.trans (Scan.settle_settle h).symm) hplaced.symm hs
      (Scan.not_isAwaiting_of_none hwaiting)

/-- **An option that waits takes the next word**, if that can be a value. -/
theorem reach_waiting {x : Setting} (hs : s.waiting = some ⟨x, none⟩) (level : Level)
    (word : String) (words : List String) : reach level (word :: words) s =
      if isPlain word then
        ({ s with waiting := none }.put x word).toOption.bind (reach level words)
      else none := by
  have hawaiting : s.isAwaiting = true := by rw [Scan.isAwaiting, hs]
  split_ifs with hword
  · have hdashes : word ≠ "--" := by rintro rfl; cases hword
    rw [reach_taken hdashes fun _ h => absurd hawaiting (by simp [h]), take_of_waiting hword hs]
    exact reach_settle rfl level words
  · exact reach_of_error (Scan.settle_of_isAwaiting hawaiting) fun w hw hplain => by
      cases hw; exact absurd hplain hword

end Words

/-! ### Entries of a level -/

/-- The option of a setting as a word. -/
def Setting.option (x : Setting) : String := "--" ++ x.optionName?.getD ""

/-- The option of a setting with its value in one word. -/
def Setting.optionWith (x : Setting) (text : String) : String := x.option ++ "=" ++ text

theorem long?_option {level : Level} {x : Setting} (hx : x ∈ level.settings)
    (hoption : x ≠ .input) : level.long? (x.optionName?.getD "") = some (.setting x) := by
  have hall : ∀ y ∈ level.settings, y ≠ .input →
      level.long? (y.optionName?.getD "") = some (.setting y) := by
    rcases level with _ | _ | _ <;> decide +kernel
  exact hall x hx hoption

theorem mem_of_long? {level : Level} {name : String} {x : Setting}
    (h : level.long? name = some (.setting x)) :
    x ∈ level.settings ∧ x ≠ .input ∧ x.optionName?.getD "" = name := by
  unfold Level.long? at h
  split_ifs at h
  · cases h
  · cases h
  · obtain ⟨y, hy, hyx⟩ := Option.map_eq_some_iff.mp h
    cases hyx
    have hname : x.optionName? = some name := by simpa using List.find?_some hy
    refine ⟨List.mem_of_find?_eq_some hy, ?_, by rw [hname]; rfl⟩
    rintro rfl
    cases hname

theorem optionName_ne (x : Setting) :
    ∀ c ∈ (x.optionName?.getD "").toList, decide (c ≠ '=') = true :=
  List.all_eq_true.mp (by cases x <;> rfl)

theorem toList_option (x : Setting) :
    x.option.toList = '-' :: '-' :: (x.optionName?.getD "").toList := by
  rw [Setting.option, String.toList_append]; rfl

theorem toList_optionWith (x : Setting) (text : String) : (x.optionWith text).toList =
    '-' :: '-' :: ((x.optionName?.getD "").toList ++ '=' :: text.toList) := by
  rw [Setting.optionWith, String.toList_append, String.toList_append, toList_option,
    List.append_assoc]
  rfl

section Entries
variable {s t : Scan} {level : Level} {x : Setting} {word : String} {words : List String}

/-- A long option is no command. -/
theorem reach_long {c : Char} {option : List Char} (hword : word.toList = '-' :: '-' :: c :: option)
    (words : List String) (s : Scan) : reach level (word :: words) s =
      (s.long level (c :: option)).toOption.bind (reach level words) := by
  have hne {other : String} (h : other.toList.head? ≠ some '-') : word ≠ other := by
    rintro rfl
    rw [hword] at h
    exact h rfl
  have hdashes : word ≠ "--" := by
    rintro rfl
    cases hword
  have hname : CommandName.of? word = none := by
    rw [CommandName.of?, if_neg (hne (by decide)), if_neg (hne (by decide))]
  have htake : s.take level word = s.long level (c :: option) := by
    simp only [Scan.take, hword]
  rw [reach_taken hdashes fun _ _ => ⟨hne (by decide), hname⟩, htake]

theorem long_option (hx : x ∈ level.settings) (hoption : x ≠ .input) :
    s.long level (x.optionName?.getD "").toList = s.act (.setting x) none := by
  have htake : (x.optionName?.getD "").toList.takeWhile (· ≠ '=') =
      (x.optionName?.getD "").toList := List.takeWhile_eq_self_iff.mpr (optionName_ne x)
  have hdrop : (x.optionName?.getD "").toList.dropWhile (· ≠ '=') = [] :=
    List.dropWhile_eq_nil_iff.mpr (optionName_ne x)
  simp only [Scan.long, htake, hdrop, String.ofList_toList, long?_option hx hoption]

theorem long_optionWith (hx : x ∈ level.settings) (hoption : x ≠ .input) (text : String) :
    s.long level ((x.optionName?.getD "").toList ++ '=' :: text.toList) =
      s.act (.setting x) (some text) := by
  have htake : ((x.optionName?.getD "").toList ++ '=' :: text.toList).takeWhile (· ≠ '=') =
      (x.optionName?.getD "").toList := by
    rw [List.takeWhile_append_of_pos (optionName_ne x), List.takeWhile_cons_of_neg (by simp),
      List.append_nil]
  have hdrop : ((x.optionName?.getD "").toList ++ '=' :: text.toList).dropWhile (· ≠ '=') =
      '=' :: text.toList := by
    rw [List.dropWhile_append_of_pos (optionName_ne x), List.dropWhile_cons_of_neg (by simp)]
  simp only [Scan.long, htake, hdrop, String.ofList_toList, long?_option hx hoption]

/-- The name of an option is not empty. -/
theorem exists_cons_optionName (hoption : x ≠ .input) :
    ∃ c name, (x.optionName?.getD "").toList = c :: name := by
  have hne : (x.optionName?.getD "").toList ≠ [] := by
    revert hoption
    cases x <;> decide +kernel
  exact List.exists_cons_of_ne_nil hne

theorem reach_option (hx : x ∈ level.settings) (hoption : x ≠ .input) (words : List String)
    (s : Scan) : reach level (x.option :: words) s =
      (s.act (.setting x) none).toOption.bind (reach level words) := by
  obtain ⟨c, name, hname⟩ := exists_cons_optionName hoption
  have hword := toList_option x
  have hlong := long_option (s := s) hx hoption
  rw [hname] at hword hlong
  rw [reach_long hword, hlong]

/-- **An option with its value in one word.** -/
theorem reach_joined (hx : x ∈ level.settings) (hoption : x ≠ .input) (hkind : x.kind ≠ .flag)
    (text : String) (words : List String) (s : Scan) :
    reach level (x.optionWith text :: words) s =
      s.settle.toOption.bind fun s => (s.put x text).toOption.bind (reach level words) := by
  obtain ⟨c, name, hname⟩ := exists_cons_optionName hoption
  have hword := toList_optionWith x text
  have hlong := long_optionWith (s := s) hx hoption text
  rw [hname] at hword hlong
  rw [List.cons_append] at hword hlong
  rw [reach_long hword, hlong, Scan.act, if_neg hkind]
  cases s.settle <;> rfl

/-- **An option that is on when it is there.** -/
theorem reach_switch (hx : x ∈ level.settings) (hoption : x ≠ .input) (hkind : x.kind = .flag)
    (words : List String) (s : Scan) :
    reach level (x.option :: words) s =
      s.settle.toOption.bind fun s => (s.put x "").toOption.bind (reach level words) := by
  rw [reach_option hx hoption, Scan.act, if_pos hkind]
  cases s.settle <;> rfl

/-- **An option with its value in the next word.** -/
theorem reach_apart (hx : x ∈ level.settings) (hoption : x ≠ .input) (hkind : x.kind ≠ .flag)
    (word : String) (words : List String) (s : Scan) :
    reach level (x.option :: word :: words) s =
      if isPlain word then
        s.settle.toOption.bind fun s => (s.put x word).toOption.bind (reach level words)
      else none := by
  rw [reach_option hx hoption, Scan.act, if_neg hkind]
  cases hs : s.settle with
  | error e => split_ifs <;> rfl
  | ok t =>
    have ht : { t with waiting := none } = t := by
      rw [← (Scan.waiting_of_settle hs).1]
    show reach level (word :: words) { t with waiting := some ⟨x, none⟩ } = _
    rw [reach_waiting rfl]
    simp only [ht]
    rfl

/-- An option cannot be the last word of a level without its value. -/
theorem reach_option_alone (hx : x ∈ level.settings) (hoption : x ≠ .input)
    (hkind : x.kind ≠ .flag) (s : Scan) : reach level [x.option] s = none := by
  rw [reach_option hx hoption, Scan.act, if_neg hkind]
  cases s.settle <;> rfl

end Entries

/-! ### Command lines -/

/-- What is understood from what was given before a command and behind it. -/
def complete (env : Environment) (name : CommandName) (top sub : Given) : Option Arguments := do
  let subEnvironment ← (fromEnvironment env sub (Level.command name).settings).toOption
  let command ← (command name ⟨sub, subEnvironment⟩).toOption
  let topEnvironment ← (fromEnvironment env top Level.top.settings).toOption
  return ⟨viewport ⟨top, topEnvironment⟩ ⟨sub, subEnvironment⟩, command⟩

/-- What is understood behind the name of a command. -/
def understood (env : Environment) (top : Given) (rest : CommandName × List String) :
    Option Arguments :=
  (reach (.command rest.1) rest.2 .start).bind fun (sub, _) => complete env rest.1 top sub

theorem toOption_bind {ε α β : Type} (r : Except ε α) (f : α → Except ε β) :
    (r.bind f).toOption = r.toOption.bind fun a => (f a).toOption := by
  cases r <;> rfl

theorem toOption_finish (env : Environment) (level : Level) (s : Scan) :
    (finish env level s).toOption = s.settle.toOption.bind fun t =>
      (fromEnvironment env t.given level.settings).toOption.map fun given => ⟨t.given, given⟩ := by
  refine (toOption_bind ..).trans (congrArg _ (funext fun t => ?_))
  cases fromEnvironment env t.given level.settings <;> rfl

/-- Both levels are finished before anything is understood. -/
theorem toOption_finished (env : Environment) (name : CommandName) (s t : Scan) :
    (do
      let sub ← finish env (.command name) t
      let command ← command name sub
      let top ← finish env .top s
      return (⟨viewport top sub, command⟩ : Arguments)).toOption =
        s.settle.toOption.bind fun s => t.settle.toOption.bind fun t =>
          complete env name s.given t.given := by
  simp only [bind, toOption_bind, toOption_finish, complete, Option.bind_assoc, Option.bind_map]
  cases s.settle <;> cases t.settle <;>
    simp [Except.toOption, pure, Except.pure, Function.comp_def]

/-- **A command line is understood from what its two levels give.** -/
theorem toOption_parse (env : Environment) (words : List String) :
    (parse env words).toOption =
      (reach .top words .start).bind fun (top, rest) => rest.bind (understood env top) := by
  unfold parse reach
  simp only [bind, toOption_bind]
  cases scan .top words .start with
  | error e => rfl
  | ok r =>
    obtain ⟨s, _ | ⟨name, words⟩⟩ := r
    · have hnone : ∀ found : Except UsageError Found, (found.bind fun top =>
          (if top.options.isEmpty && top.environment.isEmpty then .error .nothingGiven
            else .error .commandMissing : Except UsageError Arguments)).toOption = none := by
        rintro (e | top)
        · rfl
        · show (ite _ _ _ : Except UsageError Arguments).toOption = none
          split_ifs <;> rfl
      refine (hnone (finish env .top s)).trans ?_
      show none = (s.settle.toOption.map fun t => (t.given, none)).bind _
      cases s.settle <;> rfl
    · show (Except.bind _ _ : Except UsageError Arguments).toOption =
        (s.settle.toOption.map fun t => (t.given, some (name, words))).bind _
      rw [toOption_bind, Option.bind_map]
      cases hsub : scan (.command name) words .start with
      | error e => cases s.settle <;> simp [understood, reach, hsub, Except.toOption]
      | ok r =>
        obtain ⟨t, rest⟩ := r
        refine (toOption_finished env name s t).trans ?_
        cases s.settle <;> cases ht : t.settle <;>
          simp [understood, reach, hsub, ht, Except.toOption]

end Artboard.CommandLine
