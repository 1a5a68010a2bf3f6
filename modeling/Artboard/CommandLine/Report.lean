import Artboard.CommandLine.Settings
import Artboard.Service.Basic

/-! # Reports

What a run of the program leaves behind for its caller.

* `Report`: exit code and the two output texts.
* `UsageError.report`: the report on a command line that is not carried out. Asking for help or for
  the version is no failure; everything else has the exit code 2. -/

namespace Artboard.CommandLine

/-- What a command prints, and its exit code. -/
structure Report where
  exitCode : Nat
  stdout : String
  stderr : String
  deriving DecidableEq, Repr

/-- The name of the program. -/
def programName : String := "design-forge"

/-- How the program is used. -/
def usage : String :=
  "Usage: " ++ programName ++ " [OPTIONS] <COMMAND>\n\n" ++
  "Commands:\n" ++
  "  serve     Serve the plugin message channel over HTTP\n" ++
  "  generate  Generate one design from a JSON file and print the outcome\n\n" ++
  "Options:\n" ++
  "  --viewport-x, --viewport-y, --viewport-width, --viewport-height <NUMBER>\n" ++
  "  -h, --help\n" ++
  "  -V, --version\n\n" ++
  "Options of serve: --port <PORT>, --panel-url <URL>, --panel-title <TITLE>\n" ++
  "Arguments and options of generate: <INPUT>, --snapshot\n"

/-- The wording of a usage error. -/
def UsageError.message : UsageError → String
  | .helpAsked => "help was asked for"
  | .versionAsked => "the version was asked for"
  | .nothingGiven => "nothing was given"
  | .commandMissing => "a command is required"
  | .inputMissing => "generate requires an input"
  | .unknownCommand => "unrecognized command"
  | .unknownArgument => "unexpected argument"
  | .valueMissing => "a value is required"
  | .valueInvalid => "invalid value"
  | .valueUnexpected => "unexpected value"
  | .optionRepeated => "an option cannot be used multiple times"

/-- The report on a command line that is not carried out. -/
def UsageError.report : UsageError → Report
  | .helpAsked => ⟨0, usage, ""⟩
  | .versionAsked => ⟨0, programName ++ " " ++ Service.version ++ "\n", ""⟩
  | .nothingGiven => ⟨2, "", usage⟩
  | e => ⟨2, "", "error: " ++ e.message ++ "\n\n" ++ usage⟩

end Artboard.CommandLine
