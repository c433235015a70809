import SqlFootprint.Sql.Lexer
import SqlFootprint.Sql.Parser.Definition
import SqlFootprint.Sql.Parser.Session

/-! # Parsing statements

A text is a list of statements with semicolons between them; empty ones are passed over. -/

namespace SqlFootprint.Sql

namespace Parser

/-- The format of an explanation, in words, if one is asked for. -/
def explainFormat? : Parser String := do
  if ← keyword? "FORMAT" then
    let eq ← sign? .eq
    let format ← oneOf ["TEXT", "GRAPHVIZ", "JSON", "TRADITIONAL", "TREE"]
    return if eq then "FORMAT=" ++ format else "FORMAT " ++ format
  return ""

/-- An explanation of a statement, or of a table if no statement comes next, after its keyword. -/
def explain (word : String) (statement : Parser Statement) : Parser Statement := do
  let analyze ← optionalWord "ANALYZE"
  let verbose ← optionalWord "VERBOSE"
  let format ← explainFormat?
  match ← attempt statement with
  | some explained => return .other (joinWords [word, analyze, verbose, format, explained.written])
  | none => return .other (word ++ " " ++ ObjectName.written (← objectName))

/-- A statement that begins with a word, after the word, given the parser for a statement inside
it; none if no statement begins with the word. -/
def wordStatement? (g : Grammar) (word : String) (inner : Parser Statement) :
    Option (Parser Statement) :=
  match word with
  | "DESC" | "DESCRIBE" | "EXPLAIN" => some (explain word inner)
  | "TRUNCATE" => some (return .truncate (← truncate g))
  | "CREATE" => some (create g)
  | "DROP" => some drop
  | "DELETE" => some (return .delete (← delete g))
  | "INSERT" | "REPLACE" => some (return .insert (← insert g word))
  | "UPDATE" => some (return .update (← update g))
  | "ALTER" => some (alter g)
  | "CALL" => some (return .other (← callStatement g))
  | "SET" => some (return .other (← set g))
  | "SHOW" => some (return .other (← showStatement g))
  | "USE" => some (return .other ("USE " ++ ObjectName.written (← objectName)))
  | "START" => some (return .other (← startTransaction))
  | "BEGIN" => some (return .other (← beginTransaction))
  | "COMMIT" => some (return .other (← commit))
  | "ROLLBACK" => some (return .other (← rollback))
  | "SAVEPOINT" => some (return .other ("SAVEPOINT " ++ (← ident).written))
  | _ => none

/-- A statement with at most `depth` levels of statements, expressions and queries. -/
def statement : (depth : Nat) → Parser Statement
  | 0 => fail .tooDeep
  | depth + 1 => fun tokens => (do
    let g := grammar depth
    if ← keywords? ["LOCK", "TABLES"] then
      return .other ("LOCK TABLES " ++ commaSep (← commaList tableLock))
    if ← keywords? ["UNLOCK", "TABLES"] then return .other "UNLOCK TABLES"
    let word ← keywordAhead
    if ["SELECT", "WITH", "VALUES", "FROM"].contains word || (← isSign .leftParen) then
      return .query (← g.query)
    match wordStatement? g word fun tokens => statement depth tokens with
    | some rest =>
      let _ ← next
      rest
    | none => expected "an SQL statement" : Parser Statement) tokens

/-- The statements of a text, after `afterOne` of them without a semicolon behind it. A word `END`
there ends the text early. Without fuel there are none. -/
def statementsFuel : (fuel : Nat) → (afterOne : Bool) → Parser (List Statement)
  | 0, _ => fail .tooDeep
  | fuel + 1, afterOne => do
    if ← sign? .semicolon then statementsFuel fuel false
    else if (← peek).isNone then return []
    else if afterOne then
      if ← isKeyword "END" then return [] else expected "end of statement"
    else
      let first ← statement maxDepth
      return first :: (← statementsFuel fuel true)

/-- The statements of a text. Every step but the last reads a token. -/
def statements : Parser (List Statement) := do
  statementsFuel (2 * (← remaining) + 2) false

/-- The end of a text. -/
def finish : Parser Unit := do
  if (← peek).isSome then expected "end of input"

end Parser

/-- The statements of a text. -/
def parseStatements (text : String) : Except SyntaxError (List Statement) := do
  return (← Parser.statements (← lex text)).1

/-- The one expression that a text is, among the expressions that also stand for columns if
`wildcards` are let in. -/
def parseExpr (wildcards : Bool) (text : String) : Except SyntaxError Expr := do
  let g := Parser.grammar Parser.maxDepth
  let whole : Parser Expr := do
    let e ← if wildcards then Parser.exprOrStar g else g.full
    Parser.finish
    return e
  return (← whole (← lex text)).1

end SqlFootprint.Sql
