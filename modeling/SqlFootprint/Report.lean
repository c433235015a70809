import SqlFootprint.Footprint
import SqlFootprint.Text.Json

/-! # Reports on footprints

Footprints are reported as plain text, a block of lines for each, or as one JSON list. Both are made
footprint by footprint, so that what is said of one does not depend on the others. -/

namespace SqlFootprint.Report

/-- The forms of a report. -/
inductive Format where
  | text | json
  deriving DecidableEq, Repr

/-- The name of a form. -/
def Format.name : Format → String
  | .text => "text"
  | .json => "json"

/-- The form of a name. -/
def Format.ofName? (name : String) : Option Format :=
  if name = Format.text.name then some .text
  else if name = Format.json.name then some .json
  else none

/-- Items between brackets. -/
def bracketed (items : List String) : String := "[" ++ " ".intercalate items ++ "]"

/-- The lines on one footprint. -/
def block (footprint : Footprint) : String :=
  "Columns: " ++ bracketed footprint.columns ++ "\n" ++
    "Tables: " ++ bracketed footprint.tables ++ "\n" ++
    "Action: " ++ (match footprint.action with | none => "" | some a => a.keyword) ++ "\n" ++
    (if footprint.filter.isEmpty then "" else "WHERE filter: " ++ footprint.filter ++ "\n")

/-- The lines on footprints, with numbers from `first` on; a rule stands between two of them. -/
def numbered (first : Nat) : List Footprint → String
  | [] => ""
  | footprint :: rest =>
    (if first = 1 then "" else "---\n") ++ "Statement " ++ toString first ++ ":\n" ++
      block footprint ++ numbered (first + 1) rest

/-- A report in plain text. A single footprint has no number. -/
def text : List Footprint → String
  | [footprint] => block footprint
  | footprints => numbered 1 footprints

/-- A footprint as a JSON object. What is missing or empty is left out, except that the action,
the tables and the columns always stand there. -/
def json (footprint : Footprint) : Text.Json :=
  .object <|
    [("action", match footprint.action with | none => .null | some a => .text a.keyword),
     ("tables", .texts footprint.tables), ("columns", .texts footprint.columns)] ++
    (match footprint.primary with | none => [] | some table => [("primary_table", .text table)]) ++
    (if footprint.filter.isEmpty then [] else [("where_filter", .text footprint.filter)]) ++
    (if footprint.aliases.isEmpty then []
      else [("alias_map",
        .object (footprint.aliases.map fun (asName, table) => (asName, .text table)))])

/-- A report. -/
def render (footprints : List Footprint) : Format → String
  | .text => text footprints
  | .json => (Text.Json.list (footprints.map json)).pretty 0 ++ "\n"

end SqlFootprint.Report
