import Artboard.Bridge
import Artboard.Document.Basic
import Artboard.Number.Literal

/-! # Settings

What can be set on the command line: viewport, port and panel by options or environment variables,
the input and whether to print the document.

* `Setting`: the settings, with their option, variable and kind of value.
* `Arguments`: a command with its settings; `ServerConfig.of?` is what serving needs of them. -/

namespace Artboard.CommandLine

/-- What can be set. -/
inductive Setting
  | viewportX
  | viewportY
  | viewportWidth
  | viewportHeight
  | port
  | panelUrl
  | panelTitle
  | snapshot
  | input
  deriving DecidableEq, Repr

/-- Which texts a setting takes. -/
inductive ValueKind
  | number
  | port
  | text
  /-- A text that is not empty. -/
  | file
  /-- No text: the setting is on when its option is there. -/
  | flag
  deriving DecidableEq, Repr

/-- The value of a setting. -/
inductive Value
  | number (x : Float)
  | port (n : Nat)
  | text (s : String)
  | on
  deriving DecidableEq, Repr

namespace Setting

/-- The long option; the input has none and is told by its place. -/
def optionName? : Setting → Option String
  | .viewportX => some "viewport-x"
  | .viewportY => some "viewport-y"
  | .viewportWidth => some "viewport-width"
  | .viewportHeight => some "viewport-height"
  | .port => some "port"
  | .panelUrl => some "panel-url"
  | .panelTitle => some "panel-title"
  | .snapshot => some "snapshot"
  | .input => none

/-- The environment variable. -/
def variableName? : Setting → Option String
  | .viewportX => some "FORGE_VIEWPORT_X"
  | .viewportY => some "FORGE_VIEWPORT_Y"
  | .viewportWidth => some "FORGE_VIEWPORT_WIDTH"
  | .viewportHeight => some "FORGE_VIEWPORT_HEIGHT"
  | .port => some "FORGE_PORT"
  | .panelUrl => some "FORGE_PANEL_URL"
  | .panelTitle => some "FORGE_PANEL_TITLE"
  | .snapshot => none
  | .input => none

/-- The kind of value. -/
def kind : Setting → ValueKind
  | .viewportX | .viewportY | .viewportWidth | .viewportHeight => .number
  | .port => .port
  | .panelUrl | .panelTitle => .text
  | .snapshot => .flag
  | .input => .file

end Setting

/-- Why a command line is not carried out. -/
inductive UsageError
  | helpAsked
  | versionAsked
  /-- Nothing at all was given. -/
  | nothingGiven
  | commandMissing
  | inputMissing
  | unknownCommand
  | unknownArgument
  /-- An option without its value, or an empty file name. -/
  | valueMissing
  /-- A text that is no value of its setting. -/
  | valueInvalid
  /-- A value for an option that takes none. -/
  | valueUnexpected
  /-- An option that is there twice. -/
  | optionRepeated
  deriving DecidableEq, Repr

/-- The port that a text spells: a number of sixteen bits, perhaps with a sign. -/
def port? (s : String) : Option Nat :=
  let (negative, digits) := Number.takeSign s.toList
  if digits = [] ∨ ¬ digits.all Number.isDigit then none
  else
    let n := Number.ofDigits 0 digits
    if (negative ∧ n ≠ 0) ∨ 65535 < n then none else some n

/-- The value that a text spells. -/
def ValueKind.parse (kind : ValueKind) (s : String) : Except UsageError Value :=
  match kind with
  | .number => match Number.parse? s with
    | some x => .ok (.number x)
    | none => .error .valueInvalid
  | .port => match port? s with
    | some n => .ok (.port n)
    | none => .error .valueInvalid
  | .text => .ok (.text s)
  | .file => if s = "" then .error .valueMissing else .ok (.text s)
  | .flag => .ok .on

/-- What to do. -/
inductive Command
  | serve (port : Nat) (panelUrl panelTitle : String)
  | generate (input : String) (snapshot : Bool)
  deriving DecidableEq, Repr

/-- A command line that was understood. -/
structure Arguments where
  viewport : Viewport
  command : Command
  deriving DecidableEq, Repr

/-- What serving needs to know. -/
structure ServerConfig where
  port : Nat
  viewport : Viewport
  panel : Panel
  deriving DecidableEq, Repr

namespace ServerConfig

/-- The port without any settings. -/
def defaultPort : Nat := 9474

/-- The configuration without any settings. -/
def standard : ServerConfig := ⟨defaultPort, .standard, .standard⟩

/-- The configuration of a command line that asks for serving. -/
def of? (a : Arguments) : Option ServerConfig :=
  match a.command with
  | .serve port url title => some ⟨port, a.viewport, .new title url⟩
  | .generate .. => none

end ServerConfig

end Artboard.CommandLine
