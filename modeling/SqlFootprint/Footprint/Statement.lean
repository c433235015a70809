import SqlFootprint.Filter.Normal
import SqlFootprint.Footprint.Columns
import SqlFootprint.Footprint.Sources
import SqlFootprint.Log
import SqlFootprint.Text.LogQuote

/-! # The footprint of each kind of statement

Every statement has a footprint; one that touches no tables of its own has the empty one. What is
told on the way stands beside it. -/

namespace SqlFootprint

open Sql

/-- The leaves of the sources of a statement. -/
def Sql.Statement.leaves : Statement → List Leaf
  | .update s => s.target.leaves ++ sourceLeaves s.sources
  | .delete s => sourceLeaves s.sources ++ sourceLeaves s.further
  | .query s => s.blocks.flatMap fun block => sourceLeaves block.sources
  | _ => []

/-- The condition of a statement that picks out rows: of a query, that of its first block. -/
def Sql.Statement.selection : Statement → Option Expr
  | .update s => s.selection
  | .delete s => s.selection
  | .query s => s.blocks.head?.bind Select.selection
  | _ => none

/-- The second names of the tables of a statement. -/
def Sql.Statement.aliases (statement : Statement) : Aliases := leafAliases statement.leaves

/-- The tables of a statement. -/
def Sql.Statement.tables (statement : Statement) : List String := leafTables statement.leaves

/-- Tables by their names, each once, without empty names. -/
def namedTables (names : List ObjectName) : List String :=
  firsts ((names.map ObjectName.lastPart).filter (!·.isEmpty))

/-- The footprint of a statement that picks out rows of its sources. -/
def rowsFootprint (action : Action) (columns : List String) (statement : Statement) : Footprint :=
  { action := some action
    tables := statement.tables
    columns
    primary := if action.isMutation then statement.tables.head? else none
    filter := Filter.renderOrEmpty statement.aliases statement.selection
    aliases := statement.aliases }

/-- The footprint of a statement about whole tables. -/
def tablesFootprint (action : Action) (names : List ObjectName) (columns : List String) :
    Footprint :=
  { Footprint.empty with action := some action, tables := namedTables names, columns }

/-- What a statement touches. -/
def Sql.Statement.footprint : Statement → Footprint
  | .insert s => tablesFootprint .insert [s.table] s.columnNames
  | .update s => rowsFootprint .update s.columns (.update s)
  | .delete s => rowsFootprint .delete s.columns (.delete s)
  | .query s => rowsFootprint .select s.columns (.query s)
  | .alterTable s => tablesFootprint .alter [s.table] (s.changes.flatMap TableChange.columns)
  | .createTable s => tablesFootprint .create [s.table] (s.columns.map fun c => c.name.value)
  | .dropTable s => tablesFootprint .drop s.tables []
  | .truncate s => tablesFootprint .truncate s.tables.head?.toList []
  | .other _ => Footprint.empty

/-! ## Events -/

/-- A warning that the first table named to be removed from is not the first table of the sources,
which is the one that counts. -/
def Sql.Delete.warning? (delete : Delete) : Option String :=
  let statement := Statement.delete delete
  match delete.targets.head?, statement.tables.head? with
  | some target, some primary =>
    let named := ObjectName.lastPart target
    let resolved := (statement.aliases.table? named).getD named
    if primary = resolved then none
    else some ("DELETE target '" ++ resolved ++ "' differs from first joined table '" ++ primary ++
      "'; dumping '" ++ primary ++ "'")
  | _, _ => none

/-- The warning that a statement gives rise to, if any. -/
def Sql.Statement.warning? : Statement → Option String
  | .delete s => s.warning?
  | _ => none

/-- What is told of a statement that touches nothing. -/
def Sql.Statement.unsupported? : Statement → Option String
  | .other text => some ("No facts extracted for unsupported statement: " ++ text)
  | _ => none

/-- An action as a log line shows it. -/
def logAction : Option Action → String
  | none => "None"
  | some action => "Some(" ++ action.logName ++ ")"

/-- What is told of a footprint. -/
def Footprint.told (footprint : Footprint) : String :=
  "Extracted " ++ logAction footprint.action ++ ": tables=" ++ Text.logList footprint.tables ++
    " where=" ++ Text.logQuoted footprint.filter

/-- What happens on the way to a footprint: sources passed over, a doubtful target, a condition that
has no text, and the footprint itself. -/
def Sql.Statement.events (statement : Statement) : List Event :=
  (statement.leaves.filterMap Leaf.event?).map (Event.mk .debug) ++
    (statement.warning?.toList).map (Event.mk .warn) ++
    ((Filter.dropped? statement.aliases statement.selection).toList).map (Event.mk .debug) ++
    (statement.unsupported?.toList).map (Event.mk .debug) ++
    [⟨.debug, statement.footprint.told⟩]

end SqlFootprint
