import SqlFootprint.Sql.Parser.Name

/-! # Parsers that need an expression or a query

Expressions and queries contain each other. The parsers of this library do not call each other in a
circle: each is given the parsers for the parts one level below as a `Grammar`. -/

namespace SqlFootprint.Sql

/-- The parsers for what stands one level deeper. -/
structure Grammar where
  /-- An expression of operators that bind more strongly than a given strength. -/
  expr : (strength : Nat) → Parser Expr
  /-- A query. -/
  query : Parser Query

namespace Grammar

/-- A whole expression. -/
def full (g : Grammar) : Parser Expr := g.expr 0

end Grammar

namespace Parser

/-- The name that a token may be at the front of a dotted name. -/
def starQualifier? : Token → Option Ident
  | .word name => some name
  | .literal (.text .single value) => some ⟨value, some .single⟩
  | _ => none

/-- Follows a dotted name from behind its first part. Gives its parts and the tokens behind it if
it ends in a star, and none if it ends otherwise; a period has to be followed by a name or a
star. -/
def starRun (parts : List Ident) :
    List Lexeme → Except SyntaxError (Option (List Ident × List Lexeme))
  | ⟨.sign .period, _⟩ :: lexeme :: rest =>
    match lexeme.token with
    | .sign .star => .ok (some (parts, rest))
    | token =>
      match starQualifier? token with
      | some name => starRun (parts ++ [name]) rest
      | none => .error (.expected "an identifier or a '*' after '.'" (some lexeme))
  | [⟨.sign .period, _⟩] => .error (.expected "an identifier or a '*' after '.'" none)
  | _ => .ok none

/-- An expression, all columns, or all columns of a table. -/
def exprOrStar (g : Grammar) : Parser Expr := fun tokens =>
  match tokens with
  | ⟨.sign .star, _⟩ :: rest => .ok (.wildcard, rest)
  | first :: rest =>
    match starQualifier? first.token with
    | some name => do
      match ← starRun [name] rest with
      | some (parts, rest) => return (.tableWildcard parts, rest)
      | none => g.full tokens
    | none => g.full tokens
  | [] => g.full tokens

/-- Whether larger values come first, if said. -/
def direction? : Parser (Option Bool) := do
  match ← oneOf? ["ASC", "DESC"] with
  | some word => return some (word == "DESC")
  | none => return none

/-- One key of an order. -/
def orderKey (g : Grammar) : Parser OrderKey := do
  let key ← g.full
  let descending ← direction?
  if ← keywords? ["NULLS", "FIRST"] then return ⟨key, descending, some true⟩
  if ← keywords? ["NULLS", "LAST"] then return ⟨key, descending, some false⟩
  return ⟨key, descending, none⟩

/-- The keys of an order, if there is one. -/
def orderBy? (g : Grammar) : Parser (List OrderKey) := do
  if ← keywords? ["ORDER", "BY"] then commaList (orderKey g) else return []

/-- An expression behind a keyword, if the keyword comes next. -/
def exprAfter? (g : Grammar) (word : String) : Parser (Option Expr) := after? word g.full

/-- The label of an argument. -/
def argLabel : Parser String := do
  let name ← ident
  if ← keyword? "VALUE" then return name.written ++ " VALUE "
  if ← sign? .rightArrow then return name.written ++ " => "
  expected "argument operator"

/-- One argument of a function. -/
def arg (g : Grammar) : Parser Arg := do
  let labelled ← attempt do
    let label ← argLabel
    return (label, ← exprOrStar g)
  let (label, value) ← match labelled with
    | some found => pure found
    | none => pure ("", ← exprOrStar g)
  match value with
  | .wildcard => return .wildcard label []
  | .tableWildcard parts => return .wildcard label parts
  | e => return .value label e

/-- The arguments of a function and the closing parenthesis. -/
def plainArgs (g : Grammar) : Parser (List Arg) := do
  if ← sign? .rightParen then return []
  let args ← commaList (arg g)
  sign .rightParen
  return args

/-- One end of a frame, with the number it may need. -/
def frameEnd (g : Grammar) : Parser (FrameEnd × List Expr) := do
  if ← keywords? ["CURRENT", "ROW"] then return (.current, [])
  if ← keyword? "UNBOUNDED" then
    match ← oneOf ["PRECEDING", "FOLLOWING"] with
    | "PRECEDING" => return (.first, [])
    | _ => return (.last, [])
  let count ← g.full
  match ← oneOf ["PRECEDING", "FOLLOWING"] with
  | "PRECEDING" => return (.before, [count])
  | _ => return (.after, [count])

/-- The frame of a window, with the numbers that its ends need. -/
def frame (g : Grammar) : Parser (Frame × List Expr) := do
  let unit ← match ← oneOf? ["ROWS", "RANGE", "GROUPS"] with
    | some word => pure word
    | none => expected "ROWS, RANGE, GROUPS"
  if ← keyword? "BETWEEN" then
    let (start, startCount) ← frameEnd g
    keyword "AND"
    let (stop, stopCount) ← frameEnd g
    return (⟨unit, start, some stop⟩, startCount ++ stopCount)
  let (start, startCount) ← frameEnd g
  return (⟨unit, start, none⟩, startCount)

/-- The definition of a window, after its opening parenthesis. -/
def windowSpec (g : Grammar) : Parser Window := do
  let clauses := ["PARTITION", "ORDER", "ROWS", "RANGE", "GROUPS"]
  let base ← match ← peek with
    | some ⟨.word name, _⟩ =>
      if clauses.contains name.keyword then pure none else pure (some (← ident))
    | _ => pure none
  let partition ← if ← keywords? ["PARTITION", "BY"] then commaList g.full else pure []
  let order ← orderBy? g
  if ← sign? .rightParen then return .inline base partition order none []
  let (frame, counts) ← frame g
  sign .rightParen
  return .inline base partition order (some frame) counts

/-- Whether a query in place of an expression comes next. -/
def isQueryAhead : Parser Bool := return ["SELECT", "WITH"].contains (← keywordAhead)

end Parser

end SqlFootprint.Sql
