import SqlFootprint.Batch
import SqlFootprint.CommandLine.Command

/-! # The outcome of a run

What a run of the program prints and the code it ends with. Reading files is left to a function that
is given. -/

namespace SqlFootprint.CommandLine

/-- What a run leaves behind. -/
structure Outcome where
  /-- The exit code. -/
  exit : Nat
  /-- What is printed. -/
  printed : String
  /-- The line on an error. -/
  errorLine : Option String
  deriving DecidableEq, Repr

/-- The text that an input names. A file counts more than a text. -/
def Input.content (readFile : String → Except FileError String) :
    Input → Except Failure String
  | ⟨_, some path⟩ =>
    match readFile path with
    | .ok sql => .ok sql
    | .error cause => .error (.file cause)
  | ⟨some sql, none⟩ => .ok sql
  | ⟨none, none⟩ => .error .missingInput

/-- The text of the statements; blank text is none. -/
def Input.read (readFile : String → Except FileError String) (input : Input) :
    Except Failure String := do
  let sql ← input.content readFile
  if (Text.trim sql).isEmpty then .error .missingInput else return sql

/-- What a command prints. -/
def Command.printed (readFile : String → Except FileError String) :
    Command → Except Failure String
  | .analyze input format => do
    return Report.render (← Batch.analyze (← input.read readFile)) format
  | .check input => do
    Batch.check (← input.read readFile)
    return "✓ SQL syntax is valid\n"
  | .dump input settings => do
    let lines ← Batch.dump settings (← input.read readFile)
    return String.join (lines.map fun line => line.written ++ "\n")

/-- The outcome of a command. -/
def Command.outcome (readFile : String → Except FileError String) (command : Command) : Outcome :=
  match command.printed readFile with
  | .ok text => ⟨0, text, none⟩
  | .error failure => ⟨failure.exitCode, "", some ("Error: " ++ failure.message ++ "\n")⟩

/-- The version of the program, as it is printed. -/
def versionLine : String := "sqlfacts 0.1.0\n"

/-- How the program is called. -/
def usageText : String :=
  "Usage: sqlfacts [SQL] [-f|--file PATH] [--format text|json] [--log-level LEVEL]\n" ++
    "       sqlfacts analyze [SQL] [-f|--file PATH] [--format text|json]\n" ++
    "       sqlfacts check [SQL] [-f|--file PATH]\n" ++
    "       sqlfacts dump [SQL] [-f|--file PATH] [-h|--host HOST] [--ip IP] [-u|--user USER]\n" ++
    "                [-P|--password PASSWORD] [-d|--database NAME] [--key-column NAME]\n" ++
    "                [--temp-dir PATH]\n"

/-- The outcome of a run that comes to no command. -/
def Stop.outcome : Stop → Outcome
  | .usage => ⟨2, "", none⟩
  | .help => ⟨0, usageText, none⟩
  | .version => ⟨0, versionLine, none⟩

/-- The outcome of a run with arguments in an environment. -/
def run (environment : String → Option String) (readFile : String → Except FileError String)
    (args : List String) : Outcome :=
  match Command.ofArguments environment args with
  | .ok command => command.outcome readFile
  | .error stop => stop.outcome

end SqlFootprint.CommandLine
