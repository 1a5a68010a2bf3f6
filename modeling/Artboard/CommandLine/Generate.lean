import Artboard.CommandLine.Parse
import Artboard.CommandLine.Report
import Artboard.Document.Snapshot

/-! # Generating from the command line

The input is a message for the bridge or a bare request. The outcome is printed, with the document
if that is asked for, and a failure has its own exit code.

* `InputError`: why an input cannot be read.
* `isStandardInput`: the paths that stand for standard input.
* `generate`: what the command prints for an input. -/

namespace Artboard.CommandLine

/-- Why an input cannot be read. -/
inductive InputError
  | absent
  | denied
  | directory
  /-- Something in the path that is no directory is followed by more of the path. -/
  | notDirectory
  | nameTooLong
  /-- The input has bytes that belong to no character. -/
  | notText
  | other (reason : String)
  deriving DecidableEq, Repr

/-- The wording of a reason. -/
def InputError.message : InputError → String
  | .absent => "No such file or directory (os error 2)"
  | .denied => "Permission denied (os error 13)"
  | .directory => "Is a directory (os error 21)"
  | .notDirectory => "Not a directory (os error 20)"
  | .nameTooLong => "File name too long (os error 36)"
  | .notText => "stream did not contain valid UTF-8"
  | .other reason => reason

/-- Why there is no outcome to print. -/
inductive Failure
  /-- The input cannot be read. -/
  | unreadable (input : String) (reason : InputError)
  /-- The input is not JSON. -/
  | notJson (input reason : String)
  /-- The input is a message that asks for no design. -/
  | noRequest (input : String)
  deriving DecidableEq, Repr

/-- Whether a path stands for standard input: `-` alone, however many slashes and dots follow. -/
def isStandardInput (path : String) : Bool :=
  match path.splitOn "/" with
  | [] => false
  | first :: rest => first = "-" && rest.all fun part => part = "" || part = "."

/-- An error with the error that caused it. -/
def caused (message cause : String) : String :=
  "Error: " ++ message ++ "\n\nCaused by:\n    " ++ cause ++ "\n"

/-- The wording of a failure. -/
def Failure.message : Failure → String
  | .unreadable input reason =>
    caused ("Failed to read " ++ (if isStandardInput input then "stdin" else input))
      reason.message
  | .notJson input reason => caused (input ++ " is not JSON") reason
  | .noRequest input => "Error: " ++ input ++ " does not contain a generate-design message\n"

/-- The bridge of the command; nobody listens. -/
def bridge : Bridge Document Unit := ⟨Document.canvas, fun _ _ => ()⟩

/-- The reply to an input and the document after it. A tree with a type is a message and is read as
one; any other tree is a request. -/
def compile (document : Document) (text : Json.Text) (tree : Json) : Option Reply × Document :=
  let state : Bridge.State Document Unit := ⟨document, ()⟩
  let (reply, state) :=
    if (tree.member? "type").isSome then bridge.receiveText text state
    else bridge.receive (.forDesign tree.canonical) state
  (reply, state.canvas)

/-- The tree that is printed. -/
def printed (snapshot : Bool) (reply : Reply) (document : Document) : Json :=
  if snapshot then .object [("outcome", reply.toJson), ("document", document.snapshot.toJson)]
  else reply.toJson

/-- The outcome of an input, or why there is none. -/
def outcome (document : Document) (input : String) (source : Except InputError Json.Text) :
    Except Failure (Reply × Document) :=
  match source with
  | .error reason => .error (.unreadable input reason)
  | .ok text =>
    if !text.isValid then .error (.unreadable input .notText)
    else match Json.parse text with
      | .error e => .error (.notJson input e.message)
      | .ok tree =>
        match compile document text tree with
        | (some reply, document) => .ok (reply, document)
        | (none, _) => .error (.noRequest input)

/-- What the command prints for an input, which is either a text or the reason why it cannot be
read. The document is empty at first. -/
def generate (document : Document) (input : String) (snapshot : Bool)
    (source : Except InputError Json.Text) : Report :=
  match outcome document input source with
  | .error f => ⟨1, "", f.message⟩
  | .ok (reply, document) =>
    ⟨if reply.outcome.success then 0 else 1,
      (printed snapshot reply document).canonical.pretty ++ "\n", ""⟩

end Artboard.CommandLine
