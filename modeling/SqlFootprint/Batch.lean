import SqlFootprint.Dump.Plan
import SqlFootprint.Failure
import SqlFootprint.Footprint.Statement
import SqlFootprint.Report
import SqlFootprint.Sql.Parser.Statement

/-! # All statements of a text

A text with several statements is taken as a whole: if one of them cannot be read, there is no
result at all. -/

namespace SqlFootprint.Batch

open Sql

/-- The statements of a text. -/
def read (sql : String) : Except Failure (List Statement) :=
  match parseStatements sql with
  | .ok statements => .ok statements
  | .error cause => .error (.parse cause)

/-- The footprints of the statements of a text. -/
def analyze (sql : String) : Except Failure (List Footprint) := do
  return (← read sql).map Statement.footprint

/-- The plan for the statements of a text, one after the other. -/
def dump (settings : Dump.Settings) (sql : String) : Except Failure (List Dump.Line) := do
  return (← analyze sql).flatMap (Dump.plan settings)

/-- Whether a text holds statements and nothing else. -/
def check (sql : String) : Except Failure Unit :=
  match parseStatements sql with
  | .ok _ => .ok ()
  | .error cause => .error (.invalid cause)

section Results

variable {sql : String} {statements : List Statement} {cause : SyntaxError}

theorem read_of_ok (h : parseStatements sql = .ok statements) : read sql = .ok statements := by
  rw [read, h]

theorem read_of_error (h : parseStatements sql = .error cause) :
    read sql = .error (.parse cause) := by
  rw [read, h]

theorem analyze_of_ok (h : parseStatements sql = .ok statements) :
    analyze sql = .ok (statements.map Statement.footprint) := by
  rw [analyze, read_of_ok h]
  rfl

theorem analyze_of_error (h : parseStatements sql = .error cause) :
    analyze sql = .error (.parse cause) := by
  rw [analyze, read_of_error h]
  rfl

theorem dump_of_ok (settings : Dump.Settings) (h : parseStatements sql = .ok statements) :
    dump settings sql =
      .ok ((statements.map Statement.footprint).flatMap (Dump.plan settings)) := by
  rw [dump, analyze_of_ok h]
  rfl

theorem dump_of_error (settings : Dump.Settings) (h : parseStatements sql = .error cause) :
    dump settings sql = .error (.parse cause) := by
  rw [dump, analyze_of_error h]
  rfl

theorem check_of_ok (h : parseStatements sql = .ok statements) : check sql = .ok () := by
  rw [check, h]

theorem check_of_error (h : parseStatements sql = .error cause) :
    check sql = .error (.invalid cause) := by
  rw [check, h]

end Results

/-! ## Events -/

/-- What happens while footprints are taken; nothing if the text cannot be read. -/
def analyzeEvents (sql : String) : List Event :=
  match read sql with
  | .error _ => []
  | .ok statements =>
    let count := toString statements.length
    ⟨.debug, "Parsed " ++ count ++ " statement(s)"⟩ :: statements.flatMap Statement.events ++
      [⟨.info, "Analyzed " ++ count ++ " statement(s)"⟩]

/-- What happens while a plan is made. -/
def dumpEvents (settings : Dump.Settings) (sql : String) : List Event :=
  match analyze sql with
  | .error _ => []
  | .ok footprints =>
    let lines := footprints.flatMap (Dump.plan settings)
    analyzeEvents sql ++ footprints.flatMap Dump.planEvents ++
      [⟨.info, "Planned " ++ toString (lines.countP Dump.Line.isDirective) ++
        " export directive(s) for " ++ toString footprints.length ++ " statement(s)"⟩]

/-- What happens while a text is checked. -/
def checkEvents (sql : String) : List Event :=
  match check sql with
  | .error _ => []
  | .ok _ => [⟨.info, "SQL syntax is valid"⟩]

end SqlFootprint.Batch
