import Artboard.CommandLine.Settings

/-! # Scanning arguments

Arguments are scanned at two levels, before and after the command. Viewport options may stand on
both, and every option in the spellings `--name value` and `--name=value`. An argument that begins
with a hyphen is never the value of the option before it.

* `Level`: what may stand at a level.
* `Scan`: what has been found; a value waits until the next option or the end before it is checked.
* `scan`: the arguments of one level, up to its end or the name of a command. -/

namespace Artboard.CommandLine

/-- The name of a command. -/
inductive CommandName
  | serve
  | generate
  deriving DecidableEq, Repr

/-- The command that a word names. -/
def CommandName.of? (word : String) : Option CommandName :=
  if word = "serve" then some .serve
  else if word = "generate" then some .generate
  else none

/-- Before the command, or after it. -/
inductive Level
  | top
  | command (name : CommandName)
  deriving DecidableEq, Repr

/-- The settings of the viewport, which are known at all levels. -/
def viewportSettings : List Setting := [.viewportX, .viewportY, .viewportWidth, .viewportHeight]

/-- The settings that are known at a level. -/
def Level.settings : Level → List Setting
  | .top => viewportSettings
  | .command .serve => [.port, .panelUrl, .panelTitle] ++ viewportSettings
  | .command .generate => [.input, .snapshot] ++ viewportSettings

/-- What a long option means at a level. -/
inductive Meaning
  | help
  | version
  | setting (s : Setting)
  deriving DecidableEq, Repr

/-- The meaning of a long option. -/
def Level.long? (level : Level) (name : String) : Option Meaning :=
  if name = "help" then some .help
  else if name = "version" ∧ level = .top then some .version
  else (level.settings.find? fun s => s.optionName? = some name).map .setting

/-- The meaning of a short option. -/
def Level.short? (level : Level) (c : Char) : Option Meaning :=
  if c = 'h' then some .help
  else if c = 'V' ∧ level = .top then some .version
  else none

/-- Settings with their values, each setting once. -/
abbrev Given := List (Setting × Value)

/-- The value of a setting. -/
def Given.get? (given : Given) (s : Setting) : Option Value :=
  (given.find? fun (t, _) => t = s).map Prod.snd

/-- A setting whose value is not checked yet, or still to come. -/
structure Waiting where
  setting : Setting
  value : Option String
  deriving DecidableEq, Repr

/-- What has been found at a level. -/
structure Scan where
  given : Given
  waiting : Option Waiting
  /-- Whether the input has been there. -/
  placed : Bool
  deriving DecidableEq, Repr

namespace Scan

/-- Nothing has been found. -/
def start : Scan := ⟨[], none, false⟩

/-- Gives a setting the value that a text spells. -/
def put (setting : Setting) (text : String) (s : Scan) : Except UsageError Scan :=
  if (s.given.get? setting).isSome then .error .optionRepeated
  else match setting.kind.parse text with
    | .error e => .error e
    | .ok v => .ok { s with given := s.given ++ [(setting, v)] }

/-- Checks the value that waits. -/
def settle (s : Scan) : Except UsageError Scan :=
  match s.waiting with
  | none => .ok s
  | some ⟨_, none⟩ => .error .valueMissing
  | some ⟨setting, some text⟩ => { s with waiting := none }.put setting text

/-- Whether an option waits for its value. -/
def isAwaiting (s : Scan) : Bool :=
  match s.waiting with
  | some ⟨_, none⟩ => true
  | _ => false

/-- Acts on an option with the value that is attached to it. -/
def act (meaning : Meaning) (attached : Option String) (s : Scan) : Except UsageError Scan :=
  match meaning, attached with
  | .help, some _ => .error .valueUnexpected
  | .version, some _ => .error .valueUnexpected
  | .help, none => do
    let _ ← s.settle
    .error .helpAsked
  | .version, none => do
    let _ ← s.settle
    .error .versionAsked
  | .setting t, attached =>
    if t.kind = .flag then
      match attached with
      | some _ => .error .valueUnexpected
      | none => do (← s.settle).put t ""
    else
      match attached with
      | some text => do (← s.settle).put t text
      | none => do return { (← s.settle) with waiting := some ⟨t, none⟩ }

/-- Acts on a long option, `name` or `name=value`. -/
def long (level : Level) (option : List Char) (s : Scan) : Except UsageError Scan :=
  let name := String.ofList (option.takeWhile (· ≠ '='))
  let attached := match option.dropWhile (· ≠ '=') with
    | [] => none
    | _ :: value => some (String.ofList value)
  match level.long? name with
  | none => .error .unknownArgument
  | some meaning => s.act meaning attached

/-- Acts on short options that stand behind one hyphen. -/
def short (level : Level) : List Char → Scan → Except UsageError Scan
  | [], s => .ok s
  | c :: rest, s =>
    match level.short? c with
    | none => .error .unknownArgument
    | some meaning => do short level rest (← s.act meaning none)

/-- Takes an argument that is told by its place; `dashes` tells whether it follows `--`. -/
def place (level : Level) (dashes : Bool) (argument : String) (s : Scan) :
    Except UsageError Scan :=
  match level with
  | .top =>
    if dashes ∧ ((CommandName.of? argument).isSome ∨ argument = "help") then
      .error .unknownArgument
    else .error .unknownCommand
  | .command .serve => .error .unknownArgument
  | .command .generate =>
    if s.placed then .error .unknownArgument
    else do return { (← s.settle) with waiting := some ⟨.input, some argument⟩, placed := true }

end Scan

/-- Asks for help with a command: more words than the name of one, or another word, are refused. -/
def help : List String → UsageError
  | [] => .helpAsked
  | [word] =>
    if (CommandName.of? word).isSome ∨ word = "help" then .helpAsked else .unknownCommand
  | _ => .unknownCommand

/-- Takes one argument that names no command. -/
def Scan.take (level : Level) (argument : String) (s : Scan) : Except UsageError Scan :=
  match argument.toList with
  | '-' :: '-' :: option => s.long level option
  | '-' :: c :: options => s.short level (c :: options)
  | _ =>
    match s.waiting with
    | some ⟨setting, none⟩ => .ok { s with waiting := some ⟨setting, some argument⟩ }
    | _ => s.place level false argument

/-- Takes arguments that follow `--`: each is told by its place. -/
def Scan.takeRest (level : Level) : List String → Scan → Except UsageError Scan
  | [], s => .ok s
  | a :: rest, s => do takeRest level rest (← s.place level true a)

/-- Scans the arguments of one level. At the top level the name of a command ends it and is given
with the arguments behind it. -/
def scan (level : Level) : List String → Scan →
    Except UsageError (Scan × Option (CommandName × List String))
  | [], s => .ok (s, none)
  | a :: rest, s =>
    if level = .top ∧ ¬ s.isAwaiting ∧ a = "help" then .error (help rest)
    else if a = "--" then (s.takeRest level rest).map (·, none)
    else if level = .top ∧ ¬ s.isAwaiting then
      match CommandName.of? a with
      | some name => .ok (s, some (name, rest))
      | none => do scan level rest (← s.take level a)
    else do scan level rest (← s.take level a)

end Artboard.CommandLine
