import SqlFootprint.CommandLine.Outcome

/-! # The program

Reads the arguments, the environment and the file they name, and prints the outcome. -/

namespace SqlFootprint

/-- The text of a file. -/
def readFile (path : String) : IO (Except FileError String) := do
  try
    let bytes ← IO.FS.readBinFile path
    match String.fromUTF8? bytes with
    | some text => return .ok text
    | none => return .error .notText
  catch
    | .noFileOrDirectory .. => return .error .missing
    | .inappropriateType .. => return .error .directory
    | e => return .error (.other (toString e))

/-- The file that a command reads. -/
def CommandLine.Command.file? : CommandLine.Command → Option String
  | .analyze input _ => input.file
  | .check input => input.file
  | .dump input _ => input.file

/-- The values of the variables that stand in for options. -/
def readVariables : IO (List (String × String)) := do
  let options := (CommandLine.Place.options (.behind .dump)) ++ CommandLine.Place.options .front
  let mut found := []
  for opt in options do
    if let some name := opt.variable? then
      if let some value ← IO.getEnv name then found := (name, value) :: found
  return found

/-- The outcome of a run, with the file it names read. -/
def outcome (args : List String) : IO CommandLine.Outcome := do
  let environment ← readVariables
  match CommandLine.Command.ofArguments (fun name => environment.lookup name) args with
  | .error stop => return stop.outcome
  | .ok command =>
    match command.file? with
    | none => return command.outcome fun _ => .error .missing
    | some path =>
      let content ← readFile path
      return command.outcome fun _ => content

end SqlFootprint

/-- Runs the program. -/
def main (args : List String) : IO UInt32 := do
  let outcome ← SqlFootprint.outcome args
  IO.print outcome.printed
  if let some line := outcome.errorLine then IO.eprint line
  return outcome.exit.toUInt32
