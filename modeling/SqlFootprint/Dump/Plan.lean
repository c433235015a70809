import SqlFootprint.Dump.Connection
import SqlFootprint.Dump.Line
import SqlFootprint.Filter.Split
import SqlFootprint.Footprint
import SqlFootprint.Log

/-! # The plan of a backup

For every footprint there is a plan: commands that save the rows a statement may touch. A statement
that changes rows needs only those of the table it works on; if its condition also looks at other
tables, remarks tell how to find the rows exactly. -/

namespace SqlFootprint.Dump

/-- What a plan needs to know beside the footprint. -/
structure Settings where
  /-- How the commands reach the database. -/
  connection : Connection
  /-- The column that tells the rows of a table apart. -/
  keyColumn : String
  /-- The directory for lists of rows. -/
  tempDir : String
  deriving DecidableEq, Repr

/-- The column that tells rows apart if none is given. -/
def defaultKeyColumn : String := "id"

/-- The directory for lists of rows if none is given. -/
def defaultTempDir : String := "/tmp"

/-- A file in a directory. A file name that begins at the root stands for itself. -/
def pathIn (directory file : String) : String :=
  if file.startsWith "/" then file
  else if directory.isEmpty || directory.endsWith "/" then directory ++ file
  else directory ++ "/" ++ file

/-- The command that saves the rows of a table that pass a filter. -/
def directive (settings : Settings) (table filter : String) : Line :=
  let connection := settings.connection
  let condition := if filter.isEmpty then "" else " --where=\"" ++ filter ++ "\""
  .directive ("mysqldump" ++ connection.options ++ condition ++ " " ++ connection.database ++ " " ++
    table)

/-- The query for the keys of the rows of a table that a condition on several tables picks out. -/
def keyQuery (settings : Settings) (table : String) (tables : List String) (filter : String) :
    String :=
  let others := tables.filter (· ≠ table)
  "SELECT " ++ table ++ "." ++ settings.keyColumn ++ " FROM " ++ table ++
    String.join (others.map fun other => " JOIN " ++ other ++ " ON <join_condition>") ++
    " WHERE " ++ filter

/-- The remarks on how to save exactly the rows that a condition on several tables picks out. -/
def exactRows (settings : Settings) (table : String) (tables : List String) (filter : String) :
    List Line :=
  let connection := settings.connection
  let file := pathIn settings.tempDir (table ++ "_ids.txt")
  [.note "To get exact rows matching all JOIN conditions:",
   .note "Step 1: Get matching IDs",
   .note ("mysql" ++ connection.options ++ " -N -e \"" ++ keyQuery settings table tables filter ++
    "\" " ++ connection.database ++ " > " ++ file),
   .note "Step 2: Dump exact rows",
   .note ("mysqldump" ++ connection.options ++ " --where=\"" ++ settings.keyColumn ++
    " IN ($(cat " ++ file ++ " | tr '\\n' ',' | sed 's/,$//'))\" " ++ connection.database ++ " " ++
    table),
   .note "",
   .note "Or use partial filter (may include extra rows):"]

/-- The tables whose rows are saved: of a statement that changes rows the one it works on, of any
other statement all. -/
def exported (footprint : Footprint) : List String :=
  match footprint.isMutation, footprint.primary with
  | true, some table => [table]
  | _, _ => footprint.tables

/-- Whether the filter for a table leaves out what the whole condition says about other tables. -/
def isNarrowed (footprint : Footprint) (table : String) : Bool :=
  let filter := Filter.forTable footprint.filter table footprint.tables
  footprint.isMutation && footprint.primary == some table && 1 < footprint.tables.length &&
    Filter.stripTables footprint.filter footprint.tables != filter && !filter.isEmpty

/-- The lines for one table. -/
def tablePlan (settings : Settings) (footprint : Footprint) (table : String) : List Line :=
  let filter := Filter.forTable footprint.filter table footprint.tables
  (if isNarrowed footprint table then
      exactRows settings table footprint.tables footprint.filter
    else []) ++ [directive settings table filter]

/-- The lines that save the rows a statement may touch. -/
def plan (settings : Settings) (footprint : Footprint) : List Line :=
  if footprint.tables.isEmpty then [.note "No tables found in SQL statement"]
  else (exported footprint).flatMap (tablePlan settings footprint)

/-- What is told of a table whose filter leaves something out. -/
def narrowed? (footprint : Footprint) (table : String) : Option String :=
  if isNarrowed footprint table then
    some ("Cross-table conditions on " ++ table ++ ": '" ++
      Filter.stripTables footprint.filter footprint.tables ++ "' narrows to '" ++
      Filter.forTable footprint.filter table footprint.tables ++ "'")
  else none

/-- What happens on the way to a plan. -/
def planEvents (footprint : Footprint) : List Event :=
  if footprint.tables.isEmpty then []
  else ((exported footprint).filterMap (narrowed? footprint)).map (Event.mk .debug)

end SqlFootprint.Dump
