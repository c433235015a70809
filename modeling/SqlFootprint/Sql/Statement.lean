import SqlFootprint.Sql.Written

/-! # Statements

A statement that reads, changes or defines tables is held as a tree. Of any other statement only
the canonical text is kept. -/

namespace SqlFootprint.Sql

/-- What an assignment gives a value to. -/
inductive Target where
  /-- One column. -/
  | column (name : ObjectName)
  /-- Several columns at once. -/
  | row (names : List ObjectName)
  deriving DecidableEq, Repr

/-- A column or row of columns and its new value. -/
structure Assignment where
  /-- What gets the value. -/
  target : Target
  /-- The value. -/
  value : Expr

/-- The rows that are inserted. -/
inductive NewRows where
  /-- The rows of a query. -/
  | query (query : Query)
  /-- One row, column by column. -/
  | assigned (assignments : List Assignment)
  /-- One row of default values. -/
  | defaults

/-- A statement that inserts rows. -/
structure Insert where
  /-- The words in front of the table. -/
  opening : String
  /-- The table. -/
  table : ObjectName
  /-- The columns named for the new rows. -/
  columns : List Ident
  /-- The partitions named. -/
  partitions : List Expr
  /-- The rows. -/
  rows : NewRows
  /-- The second name of the new row, what to do with duplicates, and what to give back. -/
  closing : String

/-- A statement that changes rows. -/
structure Update where
  /-- The table changed and the sources joined to it. -/
  target : JoinTree
  /-- Further sources. -/
  sources : List JoinTree
  /-- Whether the further sources stand in front of the assignments. -/
  sourcesFirst : Bool
  /-- The new values. -/
  assignments : List Assignment
  /-- The condition on the rows. -/
  selection : Option Expr
  /-- What to give back. -/
  returning : List SelectItem

/-- A statement that removes rows. -/
structure Delete where
  /-- The tables named between `DELETE` and `FROM`. -/
  targets : List ObjectName
  /-- The sources. -/
  sources : List JoinTree
  /-- The sources behind `USING`. -/
  further : List JoinTree
  /-- The condition on the rows. -/
  selection : Option Expr
  /-- What to give back. -/
  returning : List SelectItem
  /-- The order in which rows are removed. -/
  order : List OrderKey
  /-- How many rows are removed at most. -/
  limit : Option Expr

/-- A column as a table definition gives it. -/
structure ColumnDef where
  /-- Its name. -/
  name : Ident
  /-- Its type. -/
  type : DataType
  /-- What else is said of it, in canonical form. -/
  options : List String
  deriving DecidableEq, Repr

/-- One change of a table. The texts are words around the names, in canonical form. -/
inductive TableChange where
  /-- A new column, and where it is put. -/
  | addColumn (opening : String) (column : ColumnDef) (place : String)
  /-- A column removed. -/
  | dropColumn (opening : String) (column : Ident) (closing : String)
  /-- A column with a new name. -/
  | renameColumn (old new : Ident)
  /-- A column with a new name and definition. -/
  | changeColumn (old : Ident) (column : ColumnDef) (place : String)
  /-- A column with a new definition. -/
  | modifyColumn (column : ColumnDef) (place : String)
  /-- A change of something other than columns. -/
  | other (text : String)
  deriving DecidableEq, Repr

/-- A statement that changes a table. -/
structure AlterTable where
  /-- The words in front of the table. -/
  opening : String
  /-- The table. -/
  table : ObjectName
  /-- The changes. -/
  changes : List TableChange
  deriving DecidableEq, Repr

/-- A statement that makes a table. -/
structure CreateTable where
  /-- The words in front of the table. -/
  opening : String
  /-- The table. -/
  table : ObjectName
  /-- The columns defined. -/
  columns : List ColumnDef
  /-- The keys and conditions defined, in canonical form. -/
  constraints : List String
  /-- The table whose columns it takes. -/
  model : Option ObjectName
  /-- The options, in canonical form. -/
  options : List String
  /-- The query whose rows it takes. -/
  query : Option Query

/-- A statement that removes tables. -/
structure DropTable where
  /-- The words in front of the tables. -/
  opening : String
  /-- The tables. -/
  tables : List ObjectName
  /-- The words behind the tables. -/
  closing : String
  deriving DecidableEq, Repr

/-- A statement that empties tables. -/
structure Truncate where
  /-- The words in front of the tables. -/
  opening : String
  /-- The tables. -/
  tables : List ObjectName
  /-- The partitions named. -/
  partitions : List Expr

/-- A statement. -/
inductive Statement where
  | insert (insert : Insert)
  | update (update : Update)
  | delete (delete : Delete)
  | query (query : Query)
  | alterTable (alter : AlterTable)
  | createTable (create : CreateTable)
  | dropTable (drop : DropTable)
  | truncate (truncate : Truncate)
  /-- A statement of another kind, by its canonical text. -/
  | other (text : String)

/-- A target in canonical form. -/
def Target.written : Target → String
  | .column name => ObjectName.written name
  | .row names => parenList (names.map ObjectName.written)

/-- An assignment in canonical form. -/
def Assignment.written (assignment : Assignment) : String :=
  assignment.target.written ++ " = " ++ assignment.value.written

/-- Assignments in canonical form. -/
def writtenAssignments (assignments : List Assignment) : String :=
  commaSep (assignments.map Assignment.written)

/-- A condition behind its keyword, if there is one. -/
def whereClause : Option Expr → String
  | none => ""
  | some condition => " WHERE " ++ condition.written

/-- New rows in canonical form, behind the columns they are for. -/
def NewRows.written : NewRows → String
  | .query q => q.written
  | .assigned assignments => "SET " ++ writtenAssignments assignments
  | .defaults => "DEFAULT VALUES"

/-- An insertion in canonical form. -/
def Insert.written (insert : Insert) : String :=
  insert.opening ++ " " ++ ObjectName.written insert.table ++ " " ++
    (if insert.columns.isEmpty then ""
      else parenList (insert.columns.map Ident.written) ++ " ") ++
    (if insert.partitions.isEmpty then ""
      else "PARTITION " ++ parenList (writtenExprs insert.partitions) ++ " ") ++
    insert.rows.written ++ insert.closing

/-- A change of rows in canonical form. -/
def Update.written (update : Update) : String :=
  let sources := clauseList " FROM " (writtenTrees update.sources)
  "UPDATE " ++ update.target.written ++ (if update.sourcesFirst then sources else "") ++
    " SET " ++ writtenAssignments update.assignments ++
    (if update.sourcesFirst then "" else sources) ++ whereClause update.selection ++
    clauseList " RETURNING " (writtenItems update.returning)

/-- A removal of rows in canonical form. -/
def Delete.written (delete : Delete) : String :=
  "DELETE " ++
    (if delete.targets.isEmpty then ""
      else commaSep (delete.targets.map ObjectName.written) ++ " ") ++
    "FROM " ++ commaSep (writtenTrees delete.sources) ++
    clauseList " USING " (writtenTrees delete.further) ++ whereClause delete.selection ++
    clauseList " RETURNING " (writtenItems delete.returning) ++
    clauseList " ORDER BY " (writtenKeys delete.order) ++
    (match delete.limit with | none => "" | some count => " LIMIT " ++ count.written)

/-- The type of a column and what else is said of it. -/
def ColumnDef.writtenType (column : ColumnDef) : String :=
  " ".intercalate (column.type.written :: column.options)

/-- A column definition in canonical form. -/
def ColumnDef.written (column : ColumnDef) : String :=
  column.name.written ++ " " ++ column.writtenType

/-- One change of a table in canonical form. -/
def TableChange.written : TableChange → String
  | .addColumn opening column place => opening ++ " " ++ column.written ++ spaced place
  | .dropColumn opening column closing => opening ++ " " ++ column.written ++ spaced closing
  | .renameColumn old new => "RENAME COLUMN " ++ old.written ++ " TO " ++ new.written
  | .changeColumn old column place =>
    "CHANGE COLUMN " ++ old.written ++ " " ++ column.written ++ spaced place
  | .modifyColumn column place => "MODIFY COLUMN " ++ column.written ++ spaced place
  | .other text => text

/-- A change of a table in canonical form. -/
def AlterTable.written (alter : AlterTable) : String :=
  alter.opening ++ " " ++ ObjectName.written alter.table ++ " " ++
    commaSep (alter.changes.map TableChange.written)

/-- The making of a table in canonical form. -/
def CreateTable.written (create : CreateTable) : String :=
  let items := create.columns.map ColumnDef.written ++ create.constraints
  create.opening ++ " " ++ ObjectName.written create.table ++
    (if items.isEmpty && (create.query.isSome || create.model.isSome) then ""
      else " " ++ parenList items) ++
    (match create.model with | none => "" | some name => " LIKE " ++ ObjectName.written name) ++
    spaced (" ".intercalate create.options) ++
    (match create.query with | none => "" | some query => " AS " ++ query.written)

/-- The removal of tables in canonical form. -/
def DropTable.written (drop : DropTable) : String :=
  drop.opening ++ " " ++ commaSep (drop.tables.map ObjectName.written) ++ spaced drop.closing

/-- The emptying of tables in canonical form. -/
def Truncate.written (truncate : Truncate) : String :=
  truncate.opening ++ " " ++ commaSep (truncate.tables.map ObjectName.written) ++
    (if truncate.partitions.isEmpty then ""
      else " PARTITION " ++ parenList (writtenExprs truncate.partitions))

/-- A statement in canonical form. -/
def Statement.written : Statement → String
  | .insert s => s.written
  | .update s => s.written
  | .delete s => s.written
  | .query s => s.written
  | .alterTable s => s.written
  | .createTable s => s.written
  | .dropTable s => s.written
  | .truncate s => s.written
  | .other text => text

end SqlFootprint.Sql
