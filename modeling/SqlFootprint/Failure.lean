import SqlFootprint.Sql.SyntaxError

/-! # Failures

Why a request cannot be answered. -/

namespace SqlFootprint

/-- Why a file cannot be read. -/
inductive FileError where
  /-- There is no such file. -/
  | missing
  /-- It is a directory. -/
  | directory
  /-- Its bytes are no text. -/
  | notText
  /-- Another cause, in words. -/
  | other (text : String)
  deriving DecidableEq, Repr

/-- The message of an error. -/
def FileError.message : FileError → String
  | .missing => "No such file or directory (os error 2)"
  | .directory => "Is a directory (os error 21)"
  | .notText => "stream did not contain valid UTF-8"
  | .other text => text

/-- Why a request cannot be answered. -/
inductive Failure where
  /-- The statements to be looked at cannot be read. -/
  | parse (cause : Sql.SyntaxError)
  /-- The statements to be checked are not correct. -/
  | invalid (cause : Sql.SyntaxError)
  /-- There are no statements. -/
  | missingInput
  /-- The file with the statements cannot be read. -/
  | file (cause : FileError)
  /-- A report cannot be written as JSON. -/
  | encoding (text : String)
  /-- A report cannot be written. -/
  | formatting
  deriving DecidableEq, Repr

/-- The message of a failure. -/
def Failure.message : Failure → String
  | .parse cause => "parse error: " ++ cause.message
  | .invalid cause => "SQL syntax error: " ++ cause.message
  | .missingInput => "no SQL statement provided"
  | .file cause => "error reading file: " ++ cause.message
  | .encoding text => "JSON encoding error: " ++ text
  | .formatting =>
    "report formatting error: an error occurred when formatting an argument"

/-- The exit code of a program that fails. -/
def Failure.exitCode : Failure → Nat
  | .missingInput => 2
  | _ => 1

end SqlFootprint
