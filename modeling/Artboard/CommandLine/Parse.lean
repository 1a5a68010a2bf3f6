import Artboard.CommandLine.Scan

/-! # Understanding a command line

A viewport setting is taken from its option after the command, else from its option before it, else
from its environment variable, else from its default. Other settings have one option, a variable and
a default.

* `Environment`: the environment variables.
* `parse`: the command with its settings. -/

namespace Artboard.CommandLine

/-- Environment variables. -/
abbrev Environment := String → Option String

/-- What is set at one level, by options and by variables. -/
structure Found where
  options : Given
  environment : Given
  deriving DecidableEq, Repr

/-- The values of variables for settings without an option. -/
def fromEnvironment (env : Environment) (given : Given) : List Setting → Except UsageError Given
  | [] => .ok []
  | s :: rest => do
    match (given.get? s).isSome, s.variableName?.bind env with
    | false, some text =>
      let v ← s.kind.parse text
      return (s, v) :: (← fromEnvironment env given rest)
    | _, _ => fromEnvironment env given rest

/-- What is set at a level, once all its arguments are scanned. -/
def finish (env : Environment) (level : Level) (s : Scan) : Except UsageError Found := do
  let s ← s.settle
  return ⟨s.given, ← fromEnvironment env s.given level.settings⟩

/-- The number that a setting has, from behind the command or before it. -/
def number (top sub : Found) (s : Setting) (default : Float) : Float :=
  let value := (((sub.options.get? s).or (top.options.get? s)).or (sub.environment.get? s)).or
    (top.environment.get? s)
  match value with
  | some (.number x) => x
  | _ => default

/-- The text that a setting of the command has. -/
def text (sub : Found) (s : Setting) (default : String) : String :=
  match (sub.options.get? s).or (sub.environment.get? s) with
  | some (.text t) => t
  | _ => default

/-- The port that is set for the command. -/
def port (sub : Found) : Nat :=
  match (sub.options.get? .port).or (sub.environment.get? .port) with
  | some (.port n) => n
  | _ => ServerConfig.defaultPort

/-- The viewport that is set. -/
def viewport (top sub : Found) : Viewport where
  x := number top sub .viewportX Viewport.standard.x
  y := number top sub .viewportY Viewport.standard.y
  width := number top sub .viewportWidth Viewport.standard.width
  height := number top sub .viewportHeight Viewport.standard.height

/-- The command from what is set behind its name. -/
def command (name : CommandName) (sub : Found) : Except UsageError Command :=
  match name with
  | .serve =>
    .ok (.serve (port sub) (text sub .panelUrl Panel.defaultUrl)
      (text sub .panelTitle Panel.defaultTitle))
  | .generate =>
    match sub.options.get? .input with
    | some (.text input) => .ok (.generate input (sub.options.get? .snapshot).isSome)
    | _ => .error .inputMissing

/-- Understands the arguments behind a program's name. -/
def parse (env : Environment) (arguments : List String) : Except UsageError Arguments := do
  let (s, rest) ← scan .top arguments .start
  match rest with
  | none =>
    let top ← finish env .top s
    if top.options.isEmpty && top.environment.isEmpty then .error .nothingGiven
    else .error .commandMissing
  | some (name, arguments) =>
    let (t, _) ← scan (.command name) arguments .start
    let sub ← finish env (.command name) t
    let command ← command name sub
    let top ← finish env .top s
    return ⟨viewport top sub, command⟩

end Artboard.CommandLine
