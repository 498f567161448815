import MapHighlight.CommandLine.Program

/-!
# The command

The outer layer of the program. It looks at the surroundings that the command asks for, lets the
program work on them, and writes what comes of it. Arguments reach it as texts only, and which
events are recorded is left to them.
-/

namespace MapHighlight

open CommandLine

/-- The error with a number, which the operating system may also report negated. -/
def SystemError.ofCode? (code : UInt32) : Option SystemError :=
  [.noSuchFile, .notADirectory, .isADirectory, .noSpaceLeft].find? fun error =>
    code == UInt32.ofNat error.code || 0 - code == UInt32.ofNat error.code

/-- What an error of the operating system means to the program. -/
def InputError.ofOperatingSystem (error : IO.Error) : InputError :=
  let known := match error with
    | .noFileOrDirectory _ code _ | .inappropriateType _ code _ | .resourceExhausted _ code _ =>
      SystemError.ofCode? code
    | _ => none
  match known with
  | some error => .system error
  | none => .reported .other (toString error).toList

/-- Opens the file of a command, if it has one, and reads it. -/
def openFile (command : Command) : IO Opened := do
  match command with
  | .tokens { input := some path, .. } =>
    try
      let bytes ← IO.FS.readBinFile (String.ofList (Utf8.decodeLossy path))
      return .file bytes.toList
    catch error =>
      match InputError.ofOperatingSystem error with
      | .system .isADirectory => return .directory
      | error => return .failed error
  | _ => return .failed (.system .noSuchFile)

/-- Reads standard input if a command needs it. -/
def readInput (command : Command) : IO (List UInt8) := do
  match command with
  | .tokens { input := none, .. } =>
    let stdin ← IO.getStdin
    let mut bytes : ByteArray := .empty
    repeat
      let chunk ← stdin.read 65536
      if chunk.isEmpty then break
      bytes := bytes ++ chunk
    return bytes.toList
  | _ => return []

/-- Writes what comes of a run. Output that cannot be written is a failure of its own. -/
def report (run : Run) : IO UInt32 := do
  try
    let stdout ← IO.getStdout
    stdout.putStr (String.ofList run.output)
    stdout.flush
  catch error =>
    let message := (InputError.ofOperatingSystem error).message
    IO.eprintln s!"error: failed to write output: {String.ofList message}"
    return 1
  IO.eprint (String.ofList (run.standardError {}))
  return UInt32.ofNat run.code

end MapHighlight

/-- Runs the program on the arguments of the command line. -/
def main (arguments : List String) : IO UInt32 := do
  match MapHighlight.CommandLine.parse (arguments.map fun argument => argument.toList) with
  | .error error =>
    IO.eprintln s!"error: {String.ofList error.message}"
    return 2
  | .ok command =>
    let opened ← MapHighlight.openFile command
    let input ← MapHighlight.readInput command
    let world : MapHighlight.CommandLine.World := ⟨fun _ => opened, input, .working⟩
    MapHighlight.report (MapHighlight.CommandLine.perform world command)
