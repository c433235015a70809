import SqlFootprint.Sql.Parser.Query
import SqlFootprint.Sql.Statement

/-! # Parsing statements about rows

The statements that insert, change and remove rows, each after its first keyword. -/

namespace SqlFootprint.Sql.Parser

/-- What an assignment gives a value to. -/
def target : Parser Target := do
  if ← sign? .leftParen then
    let names ← commaList objectName
    sign .rightParen
    return .row names
  return .column (← objectName)

/-- An assignment. -/
def assignment (g : Grammar) : Parser Assignment := do
  let target ← target
  sign .eq
  return ⟨target, ← g.full⟩

/-- Assignments. -/
def assignments (g : Grammar) : Parser (List Assignment) := commaList (assignment g)

/-- What to give back, if anything. -/
def returning? (g : Grammar) : Parser (List SelectItem) := do
  if ← keyword? "RETURNING" then commaList (selectItem g) else return []

/-- What is done instead when a change meets a conflict, in words. -/
def conflictWords : Parser String := do
  if ← keywords? ["OR", "REPLACE"] then return "OR REPLACE"
  if ← keywords? ["OR", "ROLLBACK"] then return "OR ROLLBACK"
  if ← keywords? ["OR", "ABORT"] then return "OR ABORT"
  if ← keywords? ["OR", "FAIL"] then return "OR FAIL"
  if ← keywords? ["OR", "IGNORE"] then return "OR IGNORE"
  if ← keyword? "REPLACE" then return "REPLACE"
  return ""

/-- A word if its keyword comes next, else no text. -/
def optionalWord (word : String) : Parser String := do
  if ← keyword? word then return word else return ""

/-- Words with one blank between them; empty ones are left out. -/
def joinWords (words : List String) : String := " ".intercalate (words.filter (!·.isEmpty))

/-- The words between the first keyword of an insertion and its table. -/
def insertOpening (word : String) : Parser String := do
  let conflict ← conflictWords
  let priority := (← oneOf? ["LOW_PRIORITY", "DELAYED", "HIGH_PRIORITY"]).getD ""
  let ignore ← optionalWord "IGNORE"
  let overwrite ← optionalWord "OVERWRITE"
  let into ← optionalWord "INTO"
  let _ ← keyword? "LOCAL"
  let table ← optionalWord "TABLE"
  if conflict.isEmpty then return joinWords [word, priority, ignore, overwrite, into, table]
  return joinWords ["INSERT", conflict, "INTO"]

/-- Whether a query in parentheses comes next. -/
def isQueryInParens : Parser Bool := do
  let query := match ← peekAt 1 with
    | some lexeme => ["SELECT", "WITH"].contains lexeme.token.keyword
    | none => false
  return (← isSign .leftParen) && query

/-- The columns named for new rows; the list may be empty. -/
def insertColumns : Parser (List Ident) := do
  if ← sign? .leftParen then
    if ← sign? .rightParen then return []
    let names ← commaList ident
    sign .rightParen
    return names
  return []

/-- The partitions named, if any. -/
def partitions? (g : Grammar) : Parser (List Expr) := do
  if ← keyword? "PARTITION" then parens (commaList g.full) else return []

/-- The name of the new row and of its columns, if given. -/
def newRowAlias? : Parser String := do
  if ← keyword? "AS" then
    let name ← objectName
    match ← columnList? with
    | [] => return " AS " ++ ObjectName.written name
    | columns => return " AS " ++ ObjectName.written name ++ " " ++
        parenList (columns.map Ident.written)
  return ""

/-- What to do with rows that are there already, if said. -/
def onDuplicate? (g : Grammar) : Parser String := do
  if ← keyword? "ON" then
    keywords ["DUPLICATE", "KEY", "UPDATE"]
    return " ON DUPLICATE KEY UPDATE " ++ writtenAssignments (← assignments g)
  return ""

/-- An insertion, after its first keyword. -/
def insert (g : Grammar) (word : String) : Parser Insert := do
  let opening ← insertOpening word
  let table ← objectName
  let (columns, partitions, rows) ← if ← keywords? ["DEFAULT", "VALUES"] then
      pure ([], [], NewRows.defaults)
    else do
      let inParens ← isQueryInParens
      let columns ← if inParens then pure [] else insertColumns
      let partitions ← if inParens then pure [] else partitions? g
      let rows ← if ← keyword? "SET" then pure (NewRows.assigned (← assignments g))
        else pure (NewRows.query (← g.query))
      pure (columns, partitions, rows)
  let asName ← newRowAlias?
  let duplicates ← onDuplicate? g
  let returning ← returning? g
  let closing := asName ++ duplicates ++ clauseList " RETURNING " (writtenItems returning)
  return { opening, table, columns, partitions, rows, closing }

/-- Join trees behind a keyword, if it comes next. -/
def treesAfter? (g : Grammar) (word : String) : Parser (List JoinTree) := do
  if ← keyword? word then commaList (joinTree g) else return []

/-- A change of rows, after its keyword. -/
def update (g : Grammar) : Parser Update := do
  let _ ← conflictWords
  let target ← joinTree g
  let before ← treesAfter? g "FROM"
  keyword "SET"
  let assignments ← assignments g
  let after ← if before.isEmpty then treesAfter? g "FROM" else pure []
  let selection ← exprAfter? g "WHERE"
  return { target, sources := before ++ after, sourcesFirst := !before.isEmpty, assignments
           selection, returning := ← returning? g }

/-- A removal of rows, after its keyword. -/
def delete (g : Grammar) : Parser Delete := do
  let targets ← if ← keyword? "FROM" then pure [] else do
    let names ← commaList objectName
    keyword "FROM"
    pure names
  let sources ← commaList (joinTree g)
  let further ← treesAfter? g "USING"
  let selection ← exprAfter? g "WHERE"
  let returning ← returning? g
  let order ← orderBy? g
  let limit ← after? "LIMIT" do if ← keyword? "ALL" then return none else return some (← g.full)
  return { targets, sources, further, selection, returning, order, limit := limit.join }

/-- The emptying of tables, after its keyword. -/
def truncate (g : Grammar) : Parser Truncate := do
  let table ← optionalWord "TABLE"
  let only ← optionalWord "ONLY"
  let tables ← commaList objectName
  return { opening := joinWords ["TRUNCATE", table, only], tables, partitions := ← partitions? g }

end SqlFootprint.Sql.Parser
