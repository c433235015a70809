import SqlFootprint.Sql.Parser.Rows

/-! # Parsing definitions

The statements that make, change and remove tables and what belongs to them. What is said of a
column or table beside names and types is kept as text in canonical form. -/

namespace SqlFootprint.Sql.Parser

/-! ## What is said of a column -/

/-- What happens to a row when the row it refers to is removed or changed. -/
def referenceAction : Parser String := do
  if ← keyword? "RESTRICT" then return "RESTRICT"
  if ← keyword? "CASCADE" then return "CASCADE"
  if ← keywords? ["SET", "NULL"] then return "SET NULL"
  if ← keywords? ["NO", "ACTION"] then return "NO ACTION"
  if ← keywords? ["SET", "DEFAULT"] then return "SET DEFAULT"
  expected "one of RESTRICT, CASCADE, SET NULL, NO ACTION or SET DEFAULT"

/-- The columns of another table that are referred to, after the keyword. -/
def references : Parser String := do
  let table ← objectName
  let columns ← columnList?
  let actions ← many do
    if ← keywords? ["ON", "DELETE"] then return some (" ON DELETE " ++ (← referenceAction))
    if ← keywords? ["ON", "UPDATE"] then return some (" ON UPDATE " ++ (← referenceAction))
    return none
  return "REFERENCES " ++ ObjectName.written table ++
    (if columns.isEmpty then "" else parenList (columns.map Ident.written)) ++ String.join actions

/-- A condition in parentheses and whether it is enforced, after the keyword. -/
def checkCondition (g : Grammar) : Parser String := do
  let condition ← parens g.full
  let enforced ← if ← keyword? "ENFORCED" then pure " ENFORCED"
    else if ← keywords? ["NOT", "ENFORCED"] then pure " NOT ENFORCED" else pure ""
  return "CHECK (" ++ condition.written ++ ")" ++ enforced

/-- How the value of a column follows from the others, after the word before its expression. -/
def generated (g : Grammar) (opening : String) : Parser String := do
  let value ← parens g.full
  let kept ← if ← keyword? "STORED" then pure " STORED"
    else if ← keyword? "VIRTUAL" then pure " VIRTUAL" else pure ""
  return opening ++ "AS (" ++ value.written ++ ")" ++ kept

/-- One thing said of a column behind its type, if one comes next. -/
def columnOption? (g : Grammar) : Parser (Option String) := do
  if ← keywords? ["CHARACTER", "SET"] then
    return some ("CHARACTER SET " ++ ObjectName.written (← objectName))
  if ← keyword? "COLLATE" then return some ("COLLATE " ++ ObjectName.written (← objectName))
  if ← keywords? ["NOT", "NULL"] then return some "NOT NULL"
  if ← keyword? "COMMENT" then
    return some ("COMMENT " ++ Text.widened '\x27' (← textLiteral))
  if ← keyword? "NULL" then return some "NULL"
  if ← keyword? "DEFAULT" then return some ("DEFAULT " ++ (← g.full).written)
  if ← keywords? ["PRIMARY", "KEY"] then return some "PRIMARY KEY"
  if ← keyword? "UNIQUE" then return some "UNIQUE"
  if ← keyword? "REFERENCES" then return some (← references)
  if ← keyword? "CHECK" then return some (← checkCondition g)
  if ← keyword? "AUTO_INCREMENT" then return some "AUTO_INCREMENT"
  if ← keywords? ["ON", "UPDATE"] then return some ("ON UPDATE " ++ (← g.full).written)
  if ← keywords? ["GENERATED", "ALWAYS", "AS"] then
    return some (← generated g "GENERATED ALWAYS ")
  if ← keyword? "AS" then return some (← generated g "")
  if ← keyword? "SRID" then return some ("SRID " ++ (← g.full).written)
  return none

/-- All that is said of a column behind its type. -/
def columnOptions (g : Grammar) : Parser (List String) := many do
  if ← keyword? "CONSTRAINT" then
    let name ← ident
    match ← columnOption? g with
    | some option => return some ("CONSTRAINT " ++ name.written ++ " " ++ option)
    | none => expected "constraint details after CONSTRAINT <name>"
  else columnOption? g

/-- The type of a column and what is said of it, given its name. -/
def columnBehind (g : Grammar) (name : Ident) : Parser ColumnDef := do
  let type ← dataType
  return ⟨name, type, ← columnOptions g⟩

/-- A column definition. -/
def columnDef (g : Grammar) : Parser ColumnDef := do
  let name ← ident
  columnBehind g name

/-! ## Keys and conditions of a table -/

/-- A word for an index that adds nothing to its meaning, if one comes next. -/
def indexWord? : Parser String := return (← oneOf? ["KEY", "INDEX"]).getD ""

/-- The structure of an index behind its keyword, if given. -/
def indexType? : Parser String := do
  if ← keyword? "USING" then
    match ← oneOf? ["BTREE", "HASH"] with
    | some word => return "USING " ++ word
    | none => expected "index type \x7bBTREE | HASH\x7d"
  return ""

/-- The name of an index, if given; what introduces its structure is no name. -/
def indexName? : Parser String := do
  if ← isKeyword "USING" then return ""
  match ← attempt ident with
  | some name => return name.written
  | none => return ""

/-- The columns of an index in parentheses. -/
def indexColumns (g : Grammar) : Parser (List OrderKey) := do
  unless ← isSign .leftParen do expected "a list of columns in parentheses"
  parens (commaList (orderKey g))

/-- What else is said of an index. -/
def indexOptions : Parser String := do
  let found ← many do
    if ← isKeyword "USING" then return some (← indexType?)
    if ← keyword? "COMMENT" then
      return some ("COMMENT " ++ Text.widened '\x27' (← textLiteral))
    return none
  return joinWords found

/-- An index with its columns, after the words for its kind. -/
def indexBehind (g : Grammar) (words : String) : Parser String := do
  let name ← indexName?
  let type ← indexType?
  let columns ← indexColumns g
  let options ← indexOptions
  return joinWords [words, name, type, parenList (writtenKeys columns), options]

/-- A key or condition of a table after its name, given the words for the name; none if something
else comes next. -/
def constraintBehind? (g : Grammar) (name : String) : Parser (Option String) := do
  if ← keyword? "UNIQUE" then
    let word ← indexWord?
    return some (← indexBehind g (joinWords [name, "UNIQUE", word]))
  if ← keyword? "PRIMARY" then
    keyword "KEY"
    return some (← indexBehind g (joinWords [name, "PRIMARY KEY"]))
  if ← keyword? "FOREIGN" then
    keyword "KEY"
    let index ← indexName?
    let columns ← columnList
    keyword "REFERENCES"
    return some (joinWords [name, "FOREIGN KEY", index, parenList (columns.map Ident.written),
      ← references])
  if ← keyword? "CHECK" then return some (joinWords [name, ← checkCondition g])
  if !name.isEmpty then expected "PRIMARY, UNIQUE, FOREIGN, or CHECK"
  if let some word ← oneOf? ["INDEX", "KEY"] then return some (← indexBehind g word)
  if let some word ← oneOf? ["FULLTEXT", "SPATIAL"] then
    let index ← indexWord?
    return some (← indexBehind g (joinWords [word, index]))
  return none

/-- A key or condition of a table, if one comes next. -/
def constraint? (g : Grammar) : Parser (Option String) := do
  if ← keyword? "CONSTRAINT" then
    constraintBehind? g ("CONSTRAINT " ++ (← ident).written)
  else constraintBehind? g ""

/-! ## Making tables, views and indexes -/

/-- The columns, and the keys and conditions, of a new table up to the closing parenthesis. -/
def tableItemsFuel (g : Grammar) : (fuel : Nat) → Parser (List ColumnDef × List String)
  | 0 => return ([], [])
  | fuel + 1 => do
    let constraint ← constraint? g
    let column ← match constraint, ← peek with
      | some _, _ => pure none
      | none, some ⟨.word _, _⟩ => pure (some (← columnDef g))
      | none, _ => expected "column name or constraint definition"
    let comma ← sign? .comma
    if !comma && !(← isSign .rightParen) then expected "',' or ')' after column definition"
    let (columns, constraints) ← if comma then tableItemsFuel g fuel else do
      sign .rightParen
      pure ([], [])
    return (column.toList ++ columns, constraint.toList ++ constraints)

/-- The columns, and the keys and conditions, of a new table, if given. -/
def tableItems (g : Grammar) : Parser (List ColumnDef × List String) := do
  if ← sign? .leftParen then
    if ← sign? .rightParen then return ([], [])
    tableItemsFuel g ((← remaining) + 1)
  else return ([], [])

/-- The options of a table that are a name and a value; longer names first. -/
def tableOptionNames : List (List String) :=
  [["DEFAULT", "CHARSET"], ["CHARSET"], ["DEFAULT", "CHARACTER", "SET"], ["CHARACTER", "SET"],
   ["DEFAULT", "COLLATE"], ["COLLATE"], ["DATA", "DIRECTORY"], ["INDEX", "DIRECTORY"],
   ["KEY_BLOCK_SIZE"], ["ROW_FORMAT"], ["PACK_KEYS"], ["STATS_AUTO_RECALC"],
   ["STATS_PERSISTENT"], ["STATS_SAMPLE_PAGES"], ["DELAY_KEY_WRITE"], ["COMPRESSION"],
   ["ENCRYPTION"], ["MAX_ROWS"], ["MIN_ROWS"], ["AUTOEXTEND_SIZE"], ["AVG_ROW_LENGTH"],
   ["CHECKSUM"], ["CONNECTION"], ["ENGINE_ATTRIBUTE"], ["PASSWORD"],
   ["SECONDARY_ENGINE_ATTRIBUTE"], ["INSERT_METHOD"], ["AUTO_INCREMENT"]]

/-- Reads the first of some names that comes next. -/
def firstName? : List (List String) → Parser (Option String)
  | [] => return none
  | words :: rest => do
    if ← keywords? words then return some (" ".intercalate words)
    firstName? rest

/-- The value of a table option: a literal or a name. -/
def optionValue : Parser String :=
  orElse (return (← literal).written) (return (← ident).written)

/-- One option of a table, if one comes next. -/
def tableOption? : Parser (Option String) := do
  if ← keywords? ["START", "TRANSACTION"] then return some "START TRANSACTION"
  if ← keyword? "COMMENT" then
    let eq ← sign? .eq
    let text := Text.widened '\x27' (← textLiteral)
    return some (if eq then "COMMENT = " ++ text else "COMMENT " ++ text)
  if ← keyword? "ENGINE" then
    let _ ← sign? .eq
    let name ← ident
    let args ← columnList?
    return some ("ENGINE = " ++ name.value ++
      (if args.isEmpty then "" else parenList (args.map Ident.written)))
  if ← keyword? "TABLESPACE" then
    let _ ← sign? .eq
    return some ("TABLESPACE " ++ (← ident).written)
  if ← keyword? "UNION" then
    let _ ← sign? .eq
    return some ("UNION = " ++ parenList ((← columnList).map Ident.written))
  match ← firstName? tableOptionNames with
  | none => return none
  | some name =>
    let _ ← sign? .eq
    return some (name ++ " = " ++ (← optionValue))

/-- The options of a table, with or without commas between them. -/
def tableOptions : Parser (List String) := many do
  match ← tableOption? with
  | none => return none
  | some option =>
    let _ ← sign? .comma
    return some option

/-- Whether something is only made if it is not there yet, in words. -/
def ifNotExists? : Parser String := do
  if ← keywords? ["IF", "NOT", "EXISTS"] then return "IF NOT EXISTS" else return ""

/-- Whether something is only changed or removed if it is there, in words. -/
def ifExists? : Parser String := do
  if ← keywords? ["IF", "EXISTS"] then return "IF EXISTS" else return ""

/-- The making of a table, after its keyword, given the words in front of it. -/
def createTable (g : Grammar) (words : List String) : Parser CreateTable := do
  let ifNotExists ← ifNotExists?
  let table ← objectName
  let model ← if (← oneOf? ["LIKE", "ILIKE"]).isSome then attempt objectName else pure none
  let (columns, constraints) ← tableItems g
  let options ← tableOptions
  let query ← if (← keyword? "AS") || (← isKeyword "SELECT") then pure (some (← g.query))
    else pure none
  return { opening := joinWords (words ++ ["TABLE", ifNotExists]), table, columns, constraints
           model, options, query }

/-- The making of a view, after its keyword, given the words in front of it. -/
def createView (g : Grammar) (words : List String) : Parser String := do
  let ifNotExists ← ifNotExists?
  let name ← objectName
  let columns ← columnList?
  keyword "AS"
  let query ← g.query
  return joinWords (words ++ ["VIEW", ifNotExists, ObjectName.written name,
    if columns.isEmpty then "" else parenList (columns.map Ident.written), "AS", query.written])

/-- The making of an index, after its keyword, given the words in front of it. -/
def createIndex (g : Grammar) (words : List String) : Parser String := do
  let ifNotExists ← ifNotExists?
  let unnamed ← if ifNotExists.isEmpty then keyword? "ON" else pure false
  let (name, before) ← if unnamed then pure ("", "") else do
    let name ← objectName
    let type ← indexType?
    keyword "ON"
    pure (ObjectName.written name, type)
  let table ← objectName
  let behind ← indexType?
  let type := if behind.isEmpty then before else behind
  let columns ← indexColumns g
  return joinWords (words ++ ["INDEX", ifNotExists, name, "ON", ObjectName.written table]) ++
    (if type.isEmpty then "" else " " ++ type ++ " ") ++
    "(" ++ ",".intercalate (writtenKeys columns) ++ ")"

/-- The making of something, after the first keyword. -/
def create (g : Grammar) : Parser Statement := do
  let replace ← if ← keywords? ["OR", "REPLACE"] then pure "OR REPLACE" else pure ""
  let temporary ← if (← oneOf? ["TEMP", "TEMPORARY"]).isSome then pure "TEMPORARY" else pure ""
  let words := ["CREATE", replace, temporary]
  if ← keyword? "TABLE" then return .createTable (← createTable g words)
  if ← keyword? "VIEW" then return .other (← createView g words)
  if !replace.isEmpty then
    expected "[EXTERNAL] TABLE or [MATERIALIZED] VIEW or FUNCTION after CREATE OR REPLACE"
  if ← keyword? "INDEX" then return .other (← createIndex g ["CREATE"])
  if ← keywords? ["UNIQUE", "INDEX"] then return .other (← createIndex g ["CREATE UNIQUE"])
  match ← oneOf? ["SCHEMA", "DATABASE"] with
  | some word =>
    let ifNotExists ← ifNotExists?
    let name ← objectName
    return .other (joinWords ["CREATE", word, ifNotExists, ObjectName.written name])
  | none => expected "an object type after CREATE"

/-! ## Changing tables and views -/

/-- Where a column is put, if said. -/
def columnPlace? : Parser String := do
  if ← keyword? "FIRST" then return "FIRST"
  if ← keyword? "AFTER" then return "AFTER " ++ (← ident).written
  return ""

/-- What happens to what depends on something removed, if said. -/
def dropBehavior? : Parser String := return (← oneOf? ["CASCADE", "RESTRICT"]).getD ""

/-- Partitions named behind their keyword, in canonical form. -/
def partitionList (g : Grammar) : Parser String := do
  let items ← parens (commaList g.full)
  return "PARTITION " ++ parenList (writtenExprs items)

/-- Something added to a table, after the keyword. -/
def addChange (g : Grammar) : Parser TableChange := do
  if let some text ← constraint? g then return .other ("ADD " ++ text)
  let ifNotExists ← ifNotExists?
  if ← keyword? "PARTITION" then
    return .other (joinWords ["ADD", ifNotExists, ← partitionList g])
  let word ← optionalWord "COLUMN"
  let column ← columnDef g
  return .addColumn (joinWords ["ADD", word]) column (← columnPlace?)

/-- Something renamed in a table, after the keyword. -/
def renameChange : Parser TableChange := do
  if let some word ← oneOf? ["TO", "AS"] then
    return .other ("RENAME " ++ word ++ " " ++ ObjectName.written (← objectName))
  let _ ← keyword? "COLUMN"
  let old ← ident
  keyword "TO"
  return .renameColumn old (← ident)

/-- Something removed from a table, after the keyword. -/
def dropChange (g : Grammar) : Parser TableChange := do
  if ← keywords? ["IF", "EXISTS", "PARTITION"] then
    return .other ("DROP IF EXISTS " ++ (← partitionList g))
  if ← keyword? "PARTITION" then return .other ("DROP " ++ (← partitionList g))
  if ← keyword? "CONSTRAINT" then
    let ifExists ← ifExists?
    let name ← ident
    return .other (joinWords ["DROP CONSTRAINT", ifExists, name.written, ← dropBehavior?])
  if ← keywords? ["PRIMARY", "KEY"] then
    return .other (joinWords ["DROP PRIMARY KEY", ← dropBehavior?])
  if ← keywords? ["FOREIGN", "KEY"] then
    let name ← ident
    return .other (joinWords ["DROP FOREIGN KEY", name.written, ← dropBehavior?])
  if ← keyword? "INDEX" then return .other ("DROP INDEX " ++ (← ident).written)
  let word ← optionalWord "COLUMN"
  let ifExists ← ifExists?
  let column ← ident
  return .dropColumn (joinWords ["DROP", word, ifExists]) column (← dropBehavior?)

/-- A column with a new name and definition, after the keyword. -/
def changeChange (g : Grammar) : Parser TableChange := do
  let _ ← keyword? "COLUMN"
  let old ← ident
  let column ← columnDef g
  return .changeColumn old column (← columnPlace?)

/-- A column with a new definition, after the keyword. -/
def modifyChange (g : Grammar) : Parser TableChange := do
  let _ ← keyword? "COLUMN"
  let column ← columnDef g
  return .modifyColumn column (← columnPlace?)

/-- A property of a column that is set or removed, after the keyword. -/
def alterChange (g : Grammar) : Parser TableChange := do
  let _ ← keyword? "COLUMN"
  let column ← ident
  let change (text : String) : TableChange :=
    .other ("ALTER COLUMN " ++ column.written ++ " " ++ text)
  if ← keywords? ["SET", "NOT", "NULL"] then return change "SET NOT NULL"
  if ← keywords? ["DROP", "NOT", "NULL"] then return change "DROP NOT NULL"
  if ← keywords? ["SET", "DEFAULT"] then return change ("SET DEFAULT " ++ (← g.full).written)
  if ← keywords? ["DROP", "DEFAULT"] then return change "DROP DEFAULT"
  if ← keywords? ["SET", "DATA", "TYPE"] then
    return change ("SET DATA TYPE " ++ (← dataType).written)
  expected "SET/DROP NOT NULL, SET DEFAULT, or SET DATA TYPE after ALTER COLUMN"

/-- How a change is carried out, after the keyword: one of some words behind an optional sign. -/
def methodChange (name : String) (words : List String) : Parser TableChange := do
  let eq ← sign? .eq
  let word ← oneOf words
  return .other (name ++ (if eq then " = " else " ") ++ word)

/-- One change of a table. -/
def tableChange (g : Grammar) : Parser TableChange := do
  match ← oneOf? ["ADD", "RENAME", "DROP", "CHANGE", "MODIFY", "ALTER", "LOCK", "ALGORITHM",
    "AUTO_INCREMENT"] with
  | some "ADD" => addChange g
  | some "RENAME" => renameChange
  | some "DROP" => dropChange g
  | some "CHANGE" => changeChange g
  | some "MODIFY" => modifyChange g
  | some "ALTER" => alterChange g
  | some "LOCK" => methodChange "LOCK" ["DEFAULT", "EXCLUSIVE", "NONE", "SHARED"]
  | some "ALGORITHM" => methodChange "ALGORITHM" ["DEFAULT", "INPLACE", "INSTANT", "COPY"]
  | some _ =>
    let eq ← sign? .eq
    let value ← literal
    return .other ("AUTO_INCREMENT" ++ (if eq then " = " else " ") ++ value.written)
  | none => expected <| "ADD, RENAME, PARTITION, SWAP, DROP, REPLICA IDENTITY, SET, or " ++
      "SET TBLPROPERTIES after ALTER TABLE"

/-- The kinds of things that can be changed. -/
def alterable : List String :=
  ["VIEW", "TYPE", "TABLE", "INDEX", "ROLE", "POLICY", "CONNECTOR", "ICEBERG"]

/-- A change of a definition, after the first keyword. -/
def alter (g : Grammar) : Parser Statement := do
  if ← keyword? "VIEW" then
    let name ← objectName
    let columns ← columnList?
    keyword "AS"
    let query ← g.query
    return .other (joinWords ["ALTER VIEW", ObjectName.written name,
      if columns.isEmpty then "" else parenList (columns.map Ident.written), "AS", query.written])
  if ← keyword? "TABLE" then
    let ifExists ← ifExists?
    let only ← optionalWord "ONLY"
    let table ← objectName
    let changes ← commaList (tableChange g)
    return .alterTable { opening := joinWords ["ALTER TABLE", ifExists, only], table, changes }
  expected ("one of " ++ " or ".intercalate alterable)

/-! ## Removing things -/

/-- The kinds of things that can be removed by name, in the words for them. -/
def droppable : List (List String) :=
  [["TABLE"], ["VIEW"], ["MATERIALIZED", "VIEW"], ["INDEX"], ["ROLE"], ["SCHEMA"], ["DATABASE"],
   ["SEQUENCE"], ["STAGE"], ["TYPE"]]

/-- A removal, after the first keyword. -/
def drop : Parser Statement := do
  let temporary ← optionalWord "TEMPORARY"
  match ← firstName? droppable with
  | none => expected <| "TABLE, VIEW, INDEX, ROLE, SCHEMA, DATABASE, FUNCTION, PROCEDURE, " ++
      "STAGE, TRIGGER, SECRET, SEQUENCE, TYPE, or MATERIALIZED VIEW after DROP"
  | some kind =>
    let ifExists ← ifExists?
    let names ← commaList objectName
    let start ← place
    let cascade ← optionalWord "CASCADE"
    let restrict ← optionalWord "RESTRICT"
    let purge ← optionalWord "PURGE"
    if !cascade.isEmpty && !restrict.isEmpty then
      fail (.fault "Cannot specify both CASCADE and RESTRICT in DROP" start)
    let table ← if ← keyword? "ON" then pure ("ON " ++ ObjectName.written (← objectName))
      else pure ""
    let removal : DropTable :=
      { opening := joinWords ["DROP", temporary, kind, ifExists], tables := names
        closing := joinWords [cascade, restrict, purge, table] }
    if kind == "TABLE" then return .dropTable removal
    return .other removal.written

end SqlFootprint.Sql.Parser
