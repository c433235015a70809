import SqlFootprint.Sql.Parser.Grammar
import SqlFootprint.Sql.Written

/-! # Parsing queries

Sources and their joins, SELECT blocks, and the bodies and clauses of queries. -/

namespace SqlFootprint.Sql.Parser

/-- What happens on absence or on error in a column read out of a document. -/
def onAbsence? : Parser (Option String) := do
  if ← keywords? ["NULL", "ON"] then return some "NULL"
  if ← keywords? ["ERROR", "ON"] then return some "ERROR"
  if ← keyword? "DEFAULT" then
    let value ← literal
    keyword "ON"
    return some ("DEFAULT " ++ value.written)
  return none

/-- The cases of absence and error of a column read out of a document, the last of each kind. -/
def onAbsences : Parser (Option String × Option String) := do
  let found ← many do
    match ← onAbsence? with
    | none => return none
    | some word =>
      if ← keyword? "EMPTY" then return some (true, word)
      keyword "ERROR"
      return some (false, word)
  let last (empty : Bool) := (found.filter (·.1 == empty)).getLast?.map (·.2)
  return (last true, last false)

/-- One column of a table read out of a document, by at most `fuel` levels of paths. -/
def documentColumn : (fuel : Nat) → Parser DocumentColumn
  | 0 => fail .tooDeep
  | fuel + 1 => fun tokens => (do
    if ← keyword? "NESTED" then
      let _ ← keyword? "PATH"
      let path ← literal
      keyword "COLUMNS"
      let columns ← parens (commaList fun tokens => documentColumn fuel tokens)
      return .below path (commaSep (columns.map DocumentColumn.written))
    let name ← ident
    if ← keyword? "FOR" then
      keyword "ORDINALITY"
      return .ordinality name
    let type ← dataType
    let test ← keyword? "EXISTS"
    keyword "PATH"
    let path ← literal
    let (onEmpty, onError) ← onAbsences
    return .value name type test path onEmpty onError : Parser DocumentColumn) tokens

/-- An index hint, if one comes next. -/
def indexHint? : Parser (Option IndexHint) := do
  match ← oneOf? ["USE", "IGNORE", "FORCE"] with
  | none => return none
  | some action =>
    let object ← match ← oneOf? ["INDEX", "KEY"] with
      | some word => pure word
      | none => expected "expected to match USE/IGNORE/FORCE keyword"
    let purpose ← if ← keyword? "FOR" then
        if ← keyword? "JOIN" then pure " FOR JOIN"
        else if ← keywords? ["ORDER", "BY"] then pure " FOR ORDER BY"
        else if ← keywords? ["GROUP", "BY"] then pure " FOR GROUP BY"
        else expected "expected to match FOR/ORDER BY/GROUP BY table hint in for clause"
      else pure ""
    sign .leftParen
    let indexes ← if ← isSign .rightParen then pure [] else commaList ident
    sign .rightParen
    return some ⟨action ++ " " ++ object ++ purpose, indexes⟩

/-- The index hints behind a table; none if what looks like one is not. -/
def indexHints? : Parser (List IndexHint) := return (← attempt (many indexHint?)).getD []

/-- A query in parentheses as a source, after its opening parenthesis. -/
def derived (g : Grammar) (lateral : Bool) : Parser Source := do
  let query ← g.query
  sign .rightParen
  return .derived lateral query (← tableAlias?)

/-- A table read out of a document, after its opening parenthesis. -/
def document (g : Grammar) : Parser Source := do
  let value ← g.full
  sign .comma
  let path ← literal
  keyword "COLUMNS"
  let columns ← parens (commaList (documentColumn (← remaining)))
  sign .rightParen
  return .document value path columns (← tableAlias?)

/-- A named table. -/
def namedTable (g : Grammar) : Parser Source := do
  let name ← objectName
  let partitions ← if ← keyword? "PARTITION" then identList else pure []
  let args ← if ← sign? .leftParen then pure (some (← plainArgs g)) else pure none
  let asName ← tableAlias?
  let hints ← indexHints?
  match args with
  | none => return .table name partitions asName hints
  | some args => return .tableCall name args asName hints

/-- A source in parentheses that is no query, after the opening parenthesis: a join tree, which has
to hold a join. -/
def nestedTree (tree : Parser JoinTree) : Parser Source := do
  let inner ← tree
  let nested := match inner.base with | .nested .. => true | _ => false
  if inner.joins.isEmpty && !nested then expected "joined table"
  sign .rightParen
  return .nested inner (← tableAlias?)

/-- A source of rows, given a parser for the join tree that may stand in parentheses. -/
def sourceWith (g : Grammar) (tree : Parser JoinTree) : Parser Source := do
  if ← keyword? "LATERAL" then
    if ← sign? .leftParen then derived g true
    else
      let name ← objectName
      sign .leftParen
      let args ← plainArgs g
      return .routine name args (← tableAlias?)
  else if ← keyword? "TABLE" then
    let value ← parens g.full
    return .ofValue value (← tableAlias?)
  else if ← sign? .leftParen then
    match ← attempt (derived g false) with
    | some source => return source
    | none => nestedTree tree
  else if (← isKeyword "JSON_TABLE") && (← peekAt 1).any (·.token == .sign .leftParen) then
    let _ ← next
    sign .leftParen
    document g
  else namedTable g

/-- What ties the rows of a join together. -/
def joinConstraint (g : Grammar) (natural : Bool) : Parser JoinConstraint := do
  if natural then return .natural
  if ← keyword? "ON" then return .on (← g.full)
  if ← keyword? "USING" then return .using (← columnNames)
  return .none

/-- The kind of a join with a left or right side that is kept, after the word for the side. -/
def sidedJoin (side : String) (kept outerKept semiKept antiKept : JoinKind) : Parser JoinKind := do
  match ← oneOf? ["OUTER", "SEMI", "ANTI", "JOIN"] with
  | some "OUTER" => keyword "JOIN"; return outerKept
  | some "SEMI" => keyword "JOIN"; return semiKept
  | some "ANTI" => keyword "JOIN"; return antiKept
  | some _ => return kept
  | none => fail (.fault ("expected OUTER, SEMI, ANTI or JOIN after " ++ side) none)

/-- The kind of the next join that may have a constraint, if there is one. -/
def joinKind? (natural : Bool) : Parser (Option JoinKind) := do
  match ← keywordAhead with
  | "INNER" =>
    let _ ← next
    keyword "JOIN"
    return some .inner
  | "JOIN" =>
    let _ ← next
    return some .plain
  | "LEFT" =>
    let _ ← next
    return some (← sidedJoin "LEFT" .left .leftOuter .leftSemi .leftAnti)
  | "RIGHT" =>
    let _ ← next
    return some (← sidedJoin "RIGHT" .right .rightOuter .rightSemi .rightAnti)
  | "ANTI" =>
    let _ ← next
    keyword "JOIN"
    return some .anti
  | "SEMI" =>
    let _ ← next
    keyword "JOIN"
    return some .semi
  | "FULL" =>
    let _ ← next
    let _ ← keyword? "OUTER"
    keyword "JOIN"
    return some .full
  | "OUTER" => expected "LEFT, RIGHT, or FULL"
  | "STRAIGHT_JOIN" =>
    let _ ← next
    return some .straight
  | _ => if natural then expected "a join type after NATURAL" else return none

/-- The next join, if there is one. -/
def join? (g : Grammar) (source : Parser Source) : Parser (Option Join) := do
  let _ ← keyword? "GLOBAL"
  if ← keyword? "CROSS" then
    let kind ← match ← oneOf? ["JOIN", "APPLY"] with
      | some "JOIN" => pure JoinKind.cross
      | some _ => pure JoinKind.crossApply
      | none => expected "JOIN or APPLY after CROSS"
    return some ⟨kind, ← source, .none⟩
  if ← keyword? "OUTER" then
    keyword "APPLY"
    return some ⟨.outerApply, ← source, .none⟩
  let natural ← keyword? "NATURAL"
  match ← joinKind? natural with
  | none => return none
  | some kind =>
    let target ← source
    return some ⟨kind, target, ← joinConstraint g natural⟩

/-- A source and the sources joined to it. -/
def treeWith (g : Grammar) (source : Parser Source) : Parser JoinTree := do
  let base ← source
  return ⟨base, ← many (join? g source)⟩

/-- A source of rows, with at most as many levels of join trees in parentheses as `fuel` has
items. -/
def sourceFuel (g : Grammar) : (fuel : List Lexeme) → Parser Source
  | [] => sourceWith g (fail .tooDeep)
  | _ :: fuel => fun tokens =>
    sourceWith g (fun tokens => treeWith g (fun tokens => sourceFuel g fuel tokens) tokens) tokens

/-- A source and the sources joined to it. Every level of parentheses reads a token, so that the
tokens that are left suffice as fuel. -/
def joinTree (g : Grammar) : Parser JoinTree := do
  treeWith g (sourceFuel g (← get))

/-- The words of a row count before a projection. -/
def top? : Parser (Option String) := do
  if ← keyword? "TOP" then
    let count ← if ← isSign .leftParen then
        pure ("(" ++ (← parens wholeNumber) ++ ")")
      else wholeNumber
    let percent ← if ← keyword? "PERCENT" then pure " PERCENT" else pure ""
    let ties ← if ← keywords? ["WITH", "TIES"] then pure " WITH TIES" else pure ""
    return some ("TOP " ++ count ++ percent ++ ties)
  return none

/-- One item of a projection. -/
def selectItem (g : Grammar) : Parser SelectItem := do
  match ← exprOrStar g with
  | .wildcard => return .wildcard []
  | .tableWildcard parts => return .wildcard parts
  | e =>
    match e with
    | .name ⟨value, none⟩ =>
      if value.map Char.toLower == "from" then
        fault ("Expected an expression, found: " ++ value)
    | _ => pure ()
    return .value e (← secondName? columnAliasReserved)

/-- Whether equal rows count once. -/
def distinct? : Parser Bool := do
  let start ← place
  let all ← keyword? "ALL"
  let distinct ← keyword? "DISTINCT"
  if all && distinct then fail (.fault "Cannot specify both ALL and DISTINCT" start)
  return distinct

/-- Where the rows of a block go, with its words. -/
def into? : Parser (Option String) := do
  if ← keyword? "INTO" then
    let temporary ← if (← oneOf? ["TEMP", "TEMPORARY"]).isSome then pure "TEMPORARY " else pure ""
    let unlogged ← if ← keyword? "UNLOGGED" then pure "UNLOGGED " else pure ""
    let table ← if ← keyword? "TABLE" then pure "TABLE " else pure ""
    return some (temporary ++ unlogged ++ table ++ ObjectName.written (← objectName))
  return none

/-- The windows defined for a block. -/
def windows? (g : Grammar) : Parser (List (Ident × Window)) := do
  if ← keyword? "WINDOW" then
    commaList do
      let name ← ident
      keyword "AS"
      sign .leftParen
      return (name, ← windowSpec g)
  else return []

/-- One SELECT block, after its keyword. -/
def select (g : Grammar) : Parser Select := do
  let distinct ← distinct?
  let top ← top?
  let items ← commaList (selectItem g)
  let into ← into?
  let sources ← if ← keyword? "FROM" then commaList (joinTree g) else pure []
  let selection ← exprAfter? g "WHERE"
  let grouped ← keywords? ["GROUP", "BY"]
  let groupAll ← if grouped then keyword? "ALL" else pure false
  let groupKeys ← if grouped && !groupAll then commaList g.full else pure []
  let groupWords ← if grouped then
      many (after? "WITH" (return "WITH " ++ (← oneOf ["ROLLUP", "CUBE", "TOTALS"])))
    else pure []
  let having ← exprAfter? g "HAVING"
  let windows ← windows? g
  return {
    distinct, top, items, into, sources, selection, groupAll, groupKeys, groupWords, having
    windowNames := windows.map (·.1)
    windows := windows.map (·.2) }

/-- Rows given in place, after their keyword. -/
def values (g : Grammar) : Parser QueryBody := do
  let rows ← commaList do
    let word ← keyword? "ROW"
    sign .leftParen
    if ← sign? .rightParen then return (word, Expr.tuple [])
    let items ← commaList g.full
    sign .rightParen
    return (word, Expr.tuple items)
  return .values (rows.any (·.1)) (rows.map (·.2))

/-- A body without set operations. -/
def bodyPart (g : Grammar) : Parser QueryBody := do
  if ← keyword? "SELECT" then return .select (← select g)
  if ← sign? .leftParen then
    let query ← g.query
    sign .rightParen
    return .nested query
  if ← keyword? "VALUES" then values g
  else expected "SELECT, VALUES, or a subquery in the query body"

/-- Which rows a set operation keeps, in words. -/
def setQuantifier : Parser String := do
  if ← keywords? ["DISTINCT", "BY", "NAME"] then return "DISTINCT BY NAME"
  if ← keywords? ["BY", "NAME"] then return "BY NAME"
  if ← keyword? "ALL" then
    if ← keywords? ["BY", "NAME"] then return "ALL BY NAME"
    return "ALL"
  if ← keyword? "DISTINCT" then return "DISTINCT"
  return ""

/-- A body followed by the set operations of some words, whose right sides are read by `right`;
operations of equal strength group to the left. -/
def bodyChain (operand : Parser QueryBody) (words : List (String × SetOp × Parser QueryBody)) :
    Parser QueryBody := do
  let first ← operand
  let steps ← many do
    let word ← keywordAhead
    match words.lookup word with
    | none => return none
    | some (op, right) =>
      let _ ← next
      let quantifier ← setQuantifier
      return some (op, quantifier, ← right)
  return steps.foldl (fun left (op, quantifier, right) => .combined left op quantifier right) first

/-- A query body. INTERSECT binds more strongly than the other set operations. -/
def queryBody (g : Grammar) : Parser QueryBody :=
  let strong := bodyChain (bodyPart g) [("INTERSECT", .intersect, bodyPart g)]
  bodyChain strong [("UNION", .union, strong), ("EXCEPT", .except, strong),
    ("MINUS", .minus, strong)]

/-- A query with a name, to be used by another query. -/
def commonTable (g : Grammar) : Parser CommonTable := do
  let name ← ident
  let columns ← if ← isKeyword "AS" then pure [] else aliasColumns
  keyword "AS"
  let query ← parens g.query
  return ⟨⟨name, columns⟩, query, ← after? "FROM" ident⟩

/-- The start of the rows of a query, and the word behind it. -/
def offset (g : Grammar) : Parser (Expr × String) := do
  let start ← g.full
  match ← oneOf? ["ROW", "ROWS"] with
  | some word => return (start, word)
  | none => return (start, "")

/-- The limit of a query: its count, its start, and how it is written. -/
def limitClause (g : Grammar) : Parser (Option Expr × Option Expr × LimitForm) := do
  let before ← after? "OFFSET" (offset g)
  let count ← after? "LIMIT" do if ← keyword? "ALL" then return none else return some (← g.full)
  let limit := count.join
  if before.isNone && limit.isSome && (← sign? .comma) then
    return (some (← g.full), limit, .comma)
  let start ← if before.isNone && count.isSome then after? "OFFSET" (offset g) else pure before
  return (limit, start.map (·.1), .words ((start.map (·.2)).getD ""))

/-- A lock on the rows of a query, in words, if one comes next. -/
def lock? : Parser (Option String) := do
  if ← keyword? "FOR" then
    let strength ← oneOf ["UPDATE", "SHARE"]
    let table ← after? "OF" objectName
    let waiting ← if ← keyword? "NOWAIT" then pure " NOWAIT"
      else if ← keywords? ["SKIP", "LOCKED"] then pure " SKIP LOCKED" else pure ""
    return some ("FOR " ++ strength ++
      (match table with | none => "" | some name => " OF " ++ ObjectName.written name) ++ waiting)
  return none

/-- A query. -/
def query (g : Grammar) : Parser Query := do
  let named ← keyword? "WITH"
  let recursive ← if named then keyword? "RECURSIVE" else pure false
  let tables ← if named then commaList (commonTable g) else pure []
  let body ← queryBody g
  let order ← orderBy? g
  let (limit, offset, limitForm) ← limitClause g
  return { recursive, tables, body, order, limit, offset, limitForm, locks := ← many lock? }

end SqlFootprint.Sql.Parser
