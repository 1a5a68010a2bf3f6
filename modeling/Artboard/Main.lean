import Artboard.CommandLine.Generate

/-! # The program

Reads the environment and the input, has the work done and prints the report. A server socket is not
part of it: `Service.respond` is what a listener would call for each request. -/

namespace Artboard.Main

open CommandLine (Environment InputError Level Report Setting)

/-- The environment variables of all settings. -/
def readEnvironment : IO Environment := do
  let names := (Level.command .serve).settings.filterMap Setting.variableName?
  let values ← names.mapM fun name => return (name, ← IO.getEnv name)
  return fun name => (values.lookup name).join

/-- The reason for a failure to read a file, from its number and the system's wording. -/
def inputError (code : UInt32) (details : String) : InputError :=
  -- some failures come with the number negated
  let number := if code.toNat < Nat.pow 2 31 then code.toNat else Nat.pow 2 32 - code.toNat
  if number = 2 then .absent
  else if number = 13 then .denied
  else if number = 20 then .notDirectory
  else if number = 21 then .directory
  else if number = 36 then .nameTooLong
  else .other (details ++ " (os error " ++ toString number ++ ")")

/-- The reason for a failure to read a file. -/
def reason : IO.Error → InputError
  | .noFileOrDirectory _ code details | .permissionDenied _ code details
  | .inappropriateType _ code details | .invalidArgument _ code details
  | .resourceExhausted _ code details => inputError code details
  | .hardwareFault code details | .otherError code details => inputError code details
  | e => .other (toString e)

/-- The text of the input, or the reason why it cannot be read. -/
def readInput (input : String) : IO (Except InputError Json.Text) := do
  try
    let bytes ←
      if CommandLine.isStandardInput input then (← IO.getStdin).readBinToEnd
      else IO.FS.readBinFile input
    return .ok (Json.Text.ofBytes bytes)
  catch e => return .error (reason e)

/-- Puts the digit `4` and the bits `10` where a random identifier has them. -/
def markRandom (n : Nat) : Nat :=
  let digit := Nat.pow 2 76
  let bits := Nat.pow 2 62
  n - n / digit % 16 * digit - n / bits % 4 * bits + 4 * digit + 2 * bits

/-- Ids that follow a random one. -/
def randomIds : IO IdSupply := do
  let bytes ← IO.getRandomBytes 16
  return .from (markRandom (bytes.foldl (fun n b => 256 * n + b.toNat) 0))

/-- Carries out a command line. -/
def run (arguments : List String) : IO Report := do
  match CommandLine.parse (← readEnvironment) arguments with
  | .error e => return e.report
  | .ok a =>
    match a.command with
    | .serve .. => return ⟨1, "", "Error: no listener to serve with\n"⟩
    | .generate input snapshot =>
      let document := Document.new (← randomIds) a.viewport
      return CommandLine.generate document input snapshot (← readInput input)

end Artboard.Main

/-- Prints the report on the arguments and exits with its code. -/
def main (arguments : List String) : IO UInt32 := do
  let report ← Artboard.Main.run arguments
  (← IO.getStdout).putStr report.stdout
  (← IO.getStderr).putStr report.stderr
  return report.exitCode.toUInt32
