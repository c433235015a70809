import SqlFootprint.Text.Blank
import SqlFootprint.Text.Substring

/-! # The part of a filter for one table

A filter in normal form is cut at the word between conditions. A condition that names the table
belongs to it, one that names only other tables does not, and one that names none may. -/

namespace SqlFootprint.Filter

open Text

/-- The word between two conditions. -/
def conjunction : String := " and "

/-- A table in front of a column. -/
def qualifier (table : String) : String := table ++ "."

/-- What a condition says about the rows of a table, if it may say something. -/
def conditionFor? (table : String) (tables : List String) (condition : String) : Option String :=
  if contains condition (qualifier table) then some (replace condition (qualifier table) "")
  else if tables.any fun other => contains condition (qualifier other) then none
  else some condition

/-- The conditions of a filter, without the blanks around them. -/
def conditions (filter : String) : List String := (split filter conjunction).map trim

/-- The part of a filter that is about one of the tables of a statement, without the name of the
table. With one table the filter stays as it is. -/
def forTable (filter table : String) (tables : List String) : String :=
  if filter.isEmpty then ""
  else if tables.length ≤ 1 then filter
  else conjunction.intercalate ((conditions filter).filterMap (conditionFor? table tables))

/-- A filter without the names of tables in front of columns, removed table by table. -/
def stripTables (filter : String) (tables : List String) : String :=
  tables.foldl (fun text table => replace text (qualifier table) "") filter

end SqlFootprint.Filter
