import SqlFootprint.Sql.Parser.Query

/-! # Parsing expressions

An expression is an operand followed by operators. Every operator has a strength; the operand to
its right ends before the next operator that binds no more strongly. -/

namespace SqlFootprint.Sql.Parser

/-! ## Strengths of the operators -/

namespace Strength

/-- `OR`. -/
def or : Nat := 5
/-- `AND`. -/
def and : Nat := 10
/-- `NOT` before an operand. -/
def not : Nat := 15
/-- Operators on documents. -/
def document : Nat := 16
/-- `IS`. -/
def is : Nat := 17
/-- Patterns. -/
def pattern : Nat := 19
/-- Comparisons, `BETWEEN` and `IN`. -/
def compare : Nat := 20
/-- Bitwise or. -/
def bitOr : Nat := 21
/-- Bitwise exclusive or, and shifts. -/
def caret : Nat := 22
/-- Bitwise and. -/
def bitAnd : Nat := 23
/-- `XOR`. -/
def xor : Nat := 24
/-- Addition. -/
def sum : Nat := 30
/-- Multiplication, and the operand of a sign. -/
def product : Nat := 40
/-- Time zones. -/
def timeZone : Nat := 41
/-- A type behind a value. -/
def doubleColon : Nat := 140
/-- A period. -/
def period : Nat := 200

end Strength

/-- The operators between two operands that are signs. -/
def signOp? : Sign → Option BinaryOp
  | .nullSafeEq => some .nullSafeEq
  | .doubleEq => some .eq
  | .assign => some .assign
  | .eq => some .eq
  | .notEq => some .notEq
  | .gt => some .gt
  | .gtEq => some .gtEq
  | .lt => some .lt
  | .ltEq => some .ltEq
  | .plus => some .plus
  | .minus => some .minus
  | .star => some .times
  | .percent => some .modulo
  | .doublePipe => some .concat
  | .pipe => some .bitOr
  | .caret => some .bitXor
  | .ampersand => some .bitAnd
  | .slash => some .divide
  | .tilde => some .matches
  | .tildeStar => some .iMatches
  | .bangTilde => some .notMatches
  | .bangTildeStar => some .notIMatches
  | .doubleTilde => some .resembles
  | .doubleTildeStar => some .iResembles
  | .bangDoubleTilde => some .notResembles
  | .bangDoubleTildeStar => some .notIResembles
  | .arrow => some .arrow
  | .longArrow => some .longArrow
  | .atArrow => some .contains
  | .arrowAt => some .containedBy
  | .atQuestion => some .pathExists
  | .doubleAt => some .pathMatch
  | _ => none

/-- The strength of a sign as an operator; 0 for a sign that is none. -/
def Strength.ofSign : Sign → Nat
  | .period => period
  | .assign | .eq | .lt | .ltEq | .notEq | .gt | .gtEq | .doubleEq | .tilde | .tildeStar
  | .bangTilde | .bangTildeStar | .doubleTilde | .doubleTildeStar | .bangDoubleTilde
  | .bangDoubleTildeStar | .nullSafeEq => compare
  | .pipe => bitOr
  | .caret | .shiftLeft | .shiftRight => caret
  | .ampersand => bitAnd
  | .plus | .minus => sum
  | .star | .slash | .percent | .doublePipe => product
  | .doubleColon | .bang | .leftBracket | .caretAt => doubleColon
  | .doubleAmpersand | .arrow | .longArrow | .arrowAt | .atArrow | .atQuestion | .doubleAt =>
    document
  | _ => 0

/-- The strength of a keyword as an operator, given the two keywords behind it; 0 for a word that
is no operator. -/
def Strength.ofKeyword (word following last : String) : Nat :=
  match word with
  | "OR" => or
  | "AND" => and
  | "XOR" => xor
  | "AT" => if following == "TIME" && last == "ZONE" then timeZone else 0
  | "NOT" =>
    if ["IN", "BETWEEN"].contains following then compare
    else if ["LIKE", "ILIKE", "RLIKE", "REGEXP", "MATCH", "SIMILAR", "MEMBER"].contains following
    then pattern
    else 0
  | "IS" => is
  | "IN" | "BETWEEN" | "OVERLAPS" | "OPERATOR" => compare
  | "LIKE" | "ILIKE" | "RLIKE" | "REGEXP" | "MATCH" | "SIMILAR" | "MEMBER" => pattern
  | "DIV" => product
  | _ => 0

/-- The strength of the next token as an operator. -/
def nextStrength : Parser Nat := fun tokens =>
  let word (n : Nat) : String := match tokens[n]? with
    | some lexeme => lexeme.token.keyword
    | none => ""
  .ok (match tokens with
    | ⟨.sign s, _⟩ :: _ => Strength.ofSign s
    | ⟨.word _, _⟩ :: _ => Strength.ofKeyword (word 0) (word 1) (word 2)
    | _ => 0, tokens)

/-- Units of time. -/
def timeUnits : List String :=
  ["YEAR", "YEARS", "MONTH", "MONTHS", "WEEK", "WEEKS", "DAY", "DAYS", "HOUR", "HOURS", "MINUTE",
   "MINUTES", "SECOND", "SECONDS", "CENTURY", "DECADE", "DOW", "DOY", "EPOCH", "ISODOW", "ISOYEAR",
   "JULIAN", "MICROSECOND", "MICROSECONDS", "MILLENIUM", "MILLENNIUM", "MILLISECOND",
   "MILLISECONDS", "NANOSECOND", "NANOSECONDS", "QUARTER", "TIMEZONE", "TIMEZONE_HOUR",
   "TIMEZONE_MINUTE"]

/-- Parts of a time. -/
def timeParts : List String :=
  timeUnits ++ ["DAYOFWEEK", "DAYOFYEAR", "DATE", "DATETIME", "ISOWEEK", "TIME", "TIMEZONE_ABBR",
    "TIMEZONE_REGION"]

/-- A part of a time. -/
def timePart : Parser String := do
  match ← oneOf? timeParts with
  | some "WEEK" =>
    if ← sign? .leftParen then
      let day ← ident
      sign .rightParen
      return "WEEK(" ++ day.written ++ ")"
    return "WEEK"
  | some word => return word
  | none => expected "date/time field"

/-- The unit of a span of time, with the precisions and the second unit it may have. -/
def intervalUnit : Parser String := do
  unless timeUnits.contains (← keywordAhead) do
    fault "INTERVAL requires a unit after the literal value"
  let unit ← timePart
  let paren (size : Option String) : String := match size with
    | none => ""
    | some text => " (" ++ text ++ ")"
  if unit == "SECOND" then
    match ← numberSize? with
    | some size => return unit ++ " (" ++ ", ".intercalate (size.splitOn ",") ++ ")"
    | none => return unit
  let size ← size?
  if ← keyword? "TO" then
    let last ← timePart
    let precision ← if last == "SECOND" then size? else pure none
    return unit ++ paren size ++ " TO " ++ last ++ paren precision
  return unit ++ paren size

/-- A span of time, after its keyword. -/
def interval (g : Grammar) : Parser Expr := do
  let value ← g.full
  return .interval value (← intervalUnit)

/-- Whether equal arguments count once, if said. -/
def duplicates? : Parser (Option Duplicates) := do
  let start ← place
  let all ← keyword? "ALL"
  let distinct ← keyword? "DISTINCT"
  match all, distinct with
  | true, false => return some .all
  | false, true => return some .distinct
  | false, false => return none
  | true, true => fail (.fault "Cannot specify both ALL and DISTINCT" start)

/-- The arguments of a function with what may follow them, after the opening parenthesis. -/
def callArgs (g : Grammar) (call : Call) : Parser Call := do
  if ← sign? .rightParen then return call
  let duplicates ← duplicates?
  let args ← commaList (arg g)
  let order ← orderBy? g
  let limit ← exprAfter? g "LIMIT"
  let separator ← after? "SEPARATOR" literal
  sign .rightParen
  return { call with duplicates, args, order, limit, separator }

/-- A function without arguments. -/
def bareCall (name : ObjectName) (parens : Bool) : Call :=
  { name, parens, duplicates := none, args := [], order := [], limit := none, separator := none
    within := [], nulls := "", window := .none }

/-- A function call from its opening parenthesis on. -/
def call (g : Grammar) (name : ObjectName) : Parser Expr := do
  sign .leftParen
  let call ← callArgs g (bareCall name true)
  let within ← if ← keywords? ["WITHIN", "GROUP"] then parens do
      keywords ["ORDER", "BY"]
      commaList (orderKey g)
    else pure []
  let nulls ← match ← oneOf? ["RESPECT", "IGNORE"] with
    | some word => do
      keyword "NULLS"
      pure (word ++ " NULLS")
    | none => pure ""
  let window ← if ← keyword? "OVER" then
      if ← sign? .leftParen then windowSpec g else pure (Window.named (← ident))
    else pure Window.none
  return .call { call with within, nulls, window }

/-- A choice, after its keyword. -/
def choice (g : Grammar) : Parser Expr := do
  let operand ← if ← keyword? "WHEN" then pure none else do
    let operand ← g.full
    keyword "WHEN"
    pure (some operand)
  let arm : Parser CaseArm := do
    let condition ← g.full
    keyword "THEN"
    return ⟨condition, ← g.full⟩
  let first ← arm
  let others ← many (after? "WHEN" arm)
  let otherwise ← exprAfter? g "ELSE"
  keyword "END"
  return .choice operand (first :: others) otherwise

/-- A conversion to a type or a character set, after its keyword. -/
def convert (g : Grammar) : Parser Expr := parens do
  let value ← g.full
  if ← keyword? "USING" then return .convert value none (some (← objectName))
  sign .comma
  let type ← dataType
  let charset ← if ← keywords? ["CHARACTER", "SET"] then pure (some (← objectName)) else pure none
  return .convert value (some type) charset

/-- A conversion to a type, after one of the words for it. -/
def cast (g : Grammar) (word : String) : Parser Expr := parens do
  let value ← g.full
  keyword "AS"
  return .cast word value (← dataType)

/-- A test for rows, after its keyword. -/
def existsRow (g : Grammar) (negated : Bool) : Parser Expr :=
  return .existsRow negated (← parens g.query)

/-- A part of a time, after its keyword. -/
def extract (g : Grammar) : Parser Expr := parens do
  let unit ← timePart
  unless ← keyword? "FROM" do fail (.fault "Expected 'FROM' or ','" none)
  return .extract unit (← g.full)

/-- Rounding up or down, after its keyword. -/
def rounded (g : Grammar) (up : Bool) : Parser Expr := parens do
  let value ← g.full
  if ← keyword? "TO" then return .rounded up value (" TO " ++ (← timePart))
  if ← sign? .comma then
    match ← literal with
    | .number digits long => return .rounded up value (", " ++ (Literal.number digits long).written)
    | _ => fail (.fault "Scale field can only be of number type" none)
  return .rounded up value ""

/-- The place of one text in another, after its keyword; else a function of that name. -/
def position (g : Grammar) (name : Ident) : Parser Expr :=
  orElse
    (parens do
      let needle ← g.expr Strength.compare
      keyword "IN"
      return .position needle (← g.full))
    (call g [name])

/-- A part of a text, after its keyword. -/
def substring (g : Grammar) (short : Bool) : Parser Expr := parens do
  let value ← g.full
  let commas ← sign? .comma
  let start ← if commas then pure (some (← g.full)) else exprAfter? g "FROM"
  let length ← if (← keyword? "FOR") || (← sign? .comma) then pure (some (← g.full)) else pure none
  return .substring short commas value start length

/-- A text with a part replaced, after its keyword. -/
def overlay (g : Grammar) : Parser Expr := parens do
  let value ← g.full
  keyword "PLACING"
  let new ← g.full
  keyword "FROM"
  let start ← g.full
  return .overlay value new start (← exprAfter? g "FOR")

/-- A text without some characters at its ends, after its keyword. -/
def trimmed (g : Grammar) : Parser Expr := parens do
  let side ← match ← oneOf? ["BOTH", "LEADING", "TRAILING"] with
    | some "BOTH" => pure (some TrimSide.both)
    | some "LEADING" => pure (some TrimSide.leading)
    | some _ => pure (some TrimSide.trailing)
    | none => pure none
  let value ← g.full
  if ← keyword? "FROM" then return .trimmed side (← g.full) (some value)
  return .trimmed side value none

/-- A full text search, after its keyword. -/
def fullText : Parser Expr := do
  let columns ← columnNames
  keyword "AGAINST"
  parens do
    let text ← literal
    let expansion ← if ← keywords? ["IN", "NATURAL", "LANGUAGE", "MODE"] then
        if ← keywords? ["WITH", "QUERY", "EXPANSION"] then
          pure "IN NATURAL LANGUAGE MODE WITH QUERY EXPANSION"
        else pure "IN NATURAL LANGUAGE MODE"
      else if ← keywords? ["IN", "BOOLEAN", "MODE"] then pure "IN BOOLEAN MODE"
      else if ← keywords? ["WITH", "QUERY", "EXPANSION"] then pure "WITH QUERY EXPANSION"
      else pure ""
    return .fullText columns text expansion

/-- A negation, after its keyword. -/
def negation (g : Grammar) : Parser Expr := do
  if ← keyword? "EXISTS" then existsRow g true
  else return .unary .not (← g.expr Strength.not)

/-- What a word means as a keyword that starts an expression, after the word; none if it is no such
keyword there. -/
def keywordExpr? (g : Grammar) (name : Ident) (parenAhead : Bool) : Option (Parser Expr) :=
  match name.keyword with
  | "TRUE" => some (return .literal (.boolean true))
  | "FALSE" => some (return .literal (.boolean false))
  | "NULL" => some (return .literal .null)
  | "CURRENT_TIMESTAMP" | "CURRENT_TIME" | "CURRENT_DATE" | "LOCALTIME" | "LOCALTIMESTAMP" =>
    some do
      if ← sign? .leftParen then return .call (← callArgs g (bareCall [name] true))
      return .call (bareCall [name] false)
  | "CASE" => some (choice g)
  | "CONVERT" => some (convert g)
  | "CAST" => some (cast g "CAST")
  | "TRY_CAST" => some (cast g "TRY_CAST")
  | "SAFE_CAST" => some (cast g "SAFE_CAST")
  | "EXISTS" => some (existsRow g false)
  | "EXTRACT" => some (extract g)
  | "CEIL" => some (rounded g true)
  | "FLOOR" => some (rounded g false)
  | "POSITION" => if parenAhead then some (position g name) else none
  | "SUBSTR" => some (substring g true)
  | "SUBSTRING" => some (substring g false)
  | "OVERLAY" => some (overlay g)
  | "TRIM" => some (trimmed g)
  | "INTERVAL" => some (interval g)
  | "NOT" => some (negation g)
  | "MATCH" => some fullText
  | _ => none

/-- Keywords that are never read as names where they start an expression. -/
def neverNames : List String := ["EXISTS", "INTERVAL", "STRUCT", "TRIM"]

/-- A word that is no keyword there, after the word: a function, a text with its character set, or
a name. -/
def nameExpr (g : Grammar) (name : Ident) : Parser Expr := do
  match ← peek with
  | some ⟨.sign .leftParen, _⟩ => call g [name]
  | some ⟨.literal (.text kind value), _⟩ =>
    if name.value.startsWith "_" && (kind == .single || kind == .double || kind == .hex) then
      let _ ← next
      return .introduced name (.literal (.text kind value))
    return .name name
  | _ => return .name name

/-- What the first parser reads; if it fails, what the second reads, and if that fails too, the
error of the first. -/
def preferring (first second : Parser Expr) : Parser Expr := fun tokens =>
  match first tokens with
  | .ok found => .ok found
  | .error e =>
    match second tokens with
    | .ok found => .ok found
    | .error _ => .error e

/-- An expression that starts with a word, after the word. A keyword whose own form does not fit is
read as a name, if it may be one. -/
def wordExpr (g : Grammar) (name : Ident) : Parser Expr := do
  match keywordExpr? g name (← isSign .leftParen) with
  | none => nameExpr g name
  | some form =>
    if neverNames.contains name.keyword then form else preferring form (nameExpr g name)

/-- A literal of a type, or a span of time. -/
def typedLiteral (g : Grammar) : Parser Expr := do
  if ← keyword? "INTERVAL" then interval g
  else
    match ← dataType with
    | .custom .. => expected "a data type name"
    | type => return .typed type (← literal)

/-- What starts with an opening parenthesis, after it: a query, a row or a nested expression. -/
def parenExpr (g : Grammar) : Parser Expr := do
  let e ← if ← isQueryAhead then pure (.subquery (← g.query)) else do
    match ← commaList g.full with
    | [inner] => pure (.nested inner)
    | items => pure (.tuple items)
  sign .rightParen
  return e

/-- An operand without what may follow it. -/
def operandStart (g : Grammar) : Parser Expr := do
  match ← attempt (typedLiteral g) with
  | some e => return e
  | none =>
    match ← peek with
    | some ⟨.word name, _⟩ =>
      let _ ← next
      wordExpr g name
    | some ⟨.literal value, _⟩ =>
      let _ ← next
      return .literal value
    | some ⟨.sign .colon, _⟩ | some ⟨.sign .atSign, _⟩ => return .literal (← literal)
    | some ⟨.sign .minus, _⟩ =>
      let _ ← next
      return .unary .minus (← g.expr Strength.product)
    | some ⟨.sign .plus, _⟩ =>
      let _ ← next
      return .unary .plus (← g.expr Strength.product)
    | some ⟨.sign .leftParen, _⟩ =>
      let _ ← next
      parenExpr g
    | _ => expected "an expression"

/-- The names of parts, if all of them are names. -/
def allNames? : List Expr → Option (List Ident)
  | [] => some []
  | .name id :: rest => (allNames? rest).map (id :: ·)
  | _ => none

/-- A value with its parts: a dotted name, a function with a qualified name, or an access. -/
def accessed (root : Expr) (parts : List Expr) : Expr :=
  if parts.isEmpty then root
  else
    let general := .access root parts
    match root with
    | .name id =>
      match allNames? parts with
      | some ids => .dotted (id :: ids)
      | none =>
        match parts.getLast?, allNames? parts.dropLast with
        | some (.call function), some ids =>
          .call { function with name := id :: ids ++ function.name }
        | _, _ => general
    | _ => general

/-- The parts behind a value. A period before a star is left where it is. -/
def parts (g : Grammar) : Parser (List Expr) := do
  let found ← many do
    let ahead ← peek
    let behind ← peekAt 1
    match ahead, behind with
    | some ⟨.sign .period, _⟩, some ⟨.sign .star, _⟩ => return none
    | some ⟨.sign .period, _⟩, some ⟨.literal (.text .single value), _⟩ =>
      let _ ← next
      let _ ← next
      return some [Expr.name ⟨value, some .single⟩]
    | some ⟨.sign .period, _⟩, _ =>
      let _ ← next
      match ← g.expr Strength.period with
      | .access root more => return some (root :: more)
      | .dotted ids => return some (ids.map Expr.name)
      | e => return some [e]
    | _, _ => return none
  return found.flatten

/-- An operand with its collation and its parts. -/
def operand (g : Grammar) : Parser Expr := do
  let start ← operandStart g
  let e ← if ← keyword? "COLLATE" then pure (Expr.collate start (← objectName)) else pure start
  return accessed e (← parts g)

/-- A test behind `IS`. -/
def isTest (g : Grammar) (left : Expr) : Parser Expr := do
  let negated (rest : List String) : Parser (Option Bool) := do
    if ← keywords? rest then return some false
    if ← keywords? ("NOT" :: rest) then return some true
    return none
  if let some no ← negated ["NULL"] then return .isTest left no .null
  if let some no ← negated ["TRUE"] then return .isTest left no .true
  if let some no ← negated ["FALSE"] then return .isTest left no .false
  if let some no ← negated ["UNKNOWN"] then return .isTest left no .unknown
  if let some no ← negated ["DISTINCT", "FROM"] then return .distinctFrom left no (← g.full)
  expected "[NOT] NULL | TRUE | FALSE | DISTINCT | [form] NORMALIZED FROM after IS"

/-- Membership in a query or a list, after its keyword. -/
def membership (g : Grammar) (left : Expr) (negated : Bool) : Parser Expr := parens do
  match ← attempt (queryBody g) with
  | some body => return .inQuery left negated body
  | none => return .inList left negated (← commaList g.full)

/-- A test for an interval, after its keyword. -/
def between (g : Grammar) (left : Expr) (negated : Bool) : Parser Expr := do
  let low ← g.expr Strength.compare
  keyword "AND"
  return .between left negated low (← g.expr Strength.compare)

/-- A test for a pattern, after its words. -/
def like (g : Grammar) (left : Expr) (negated : Bool) (op : LikeOp) : Parser Expr := do
  let any ← if op == .similarTo then pure false else keyword? "ANY"
  let pattern ← g.expr Strength.pattern
  return .like left negated op any pattern (← after? "ESCAPE" textLiteral)

/-- A test that may be negated. -/
def predicate (g : Grammar) (left : Expr) : Parser Expr := do
  let negated ← keyword? "NOT"
  if ← keyword? "REGEXP" then return .regexp left negated false (← g.expr Strength.pattern)
  if ← keyword? "RLIKE" then return .regexp left negated true (← g.expr Strength.pattern)
  if ← keyword? "IN" then membership g left negated
  else if ← keyword? "BETWEEN" then between g left negated
  else if ← keyword? "LIKE" then like g left negated .like
  else if ← keyword? "ILIKE" then like g left negated .ilike
  else if ← keywords? ["SIMILAR", "TO"] then like g left negated .similarTo
  else expected "IN or BETWEEN after NOT"

/-- Whether an operator compares, so that it may be quantified. -/
def comparesValues : BinaryOp → Bool
  | .eq | .notEq | .lt | .ltEq | .gt | .gtEq | .matches | .iMatches | .notMatches | .notIMatches
  | .resembles | .iResembles | .notResembles | .notIResembles => true
  | _ => false

/-- The right side of an operator of a strength, which may be quantified. -/
def rightSide (g : Grammar) (left : Expr) (op : BinaryOp) (strength : Nat) (start : Position) :
    Parser Expr := do
  match ← oneOf? ["ANY", "ALL", "SOME"] with
  | none => return .binary left op (← g.expr strength)
  | some word =>
    unless ← isSign .leftParen do sign .leftParen
    let isQuery := match ← peekAt 1 with
      | some lexeme => ["SELECT", "WITH"].contains lexeme.token.keyword
      | none => false
    let right ← if isQuery then g.expr strength else parens (g.expr strength)
    unless comparesValues op do
      fail (.fault ("Expected one of [=, >, <, =>, =<, !=, ~, ~*, !~, !~*, ~~, ~~*, !~~, !~~*] " ++
        "as comparison operator, found: " ++ op.written) (some start))
    let quantifier := match word with
      | "ALL" => Quantifier.all
      | "ANY" => .any
      | _ => .some
    return .quantified left op quantifier right

/-- How an error names a sign that binds like an operator and is none. -/
def signName : Sign → String
  | .doubleAmpersand => "Overlap"
  | .caretAt => "CaretAt"
  | .shiftLeft => "ShiftLeft"
  | .shiftRight => "ShiftRight"
  | .bang => "ExclamationMark"
  | .leftBracket => "LBracket"
  | s => s.written

/-- How an error names a word that binds like an operator and is none. -/
def wordName (name : Ident) : String :=
  "Word(Word \x7b value: \"" ++ name.value ++ "\", quote_style: None, keyword: " ++ name.keyword ++
    " \x7d)"

/-- One operator of a strength and its right side, behind a left side. -/
def step (g : Grammar) (left : Expr) (strength : Nat) : Parser Expr := do
  match ← peek with
  | some ⟨.sign s, start⟩ =>
    if s == .doubleColon then
      let _ ← next
      return .doubleColon left (← dataType)
    match signOp? s with
    | some op =>
      let _ ← next
      rightSide g left op strength start
    | none => fail (.noOperator (signName s) start)
  | some ⟨.word name, start⟩ =>
    match name.keyword with
    | "DIV" =>
      let _ ← next
      return .binary left .integerDivide (← g.full)
    | "AND" =>
      let _ ← next
      rightSide g left .and strength start
    | "OR" =>
      let _ ← next
      rightSide g left .or strength start
    | "XOR" =>
      let _ ← next
      rightSide g left .xor strength start
    | "OVERLAPS" =>
      let _ ← next
      rightSide g left .overlaps strength start
    | "IS" =>
      let _ ← next
      isTest g left
    | "AT" =>
      keywords ["AT", "TIME", "ZONE"]
      return .atTimeZone left (← g.expr strength)
    | "MEMBER" =>
      let _ ← next
      unless ← keyword? "OF" do expected "OF after MEMBER"
      return .memberOf left (← parens g.full)
    | "NOT" | "IN" | "BETWEEN" | "LIKE" | "ILIKE" | "SIMILAR" | "REGEXP" | "RLIKE" =>
      predicate g left
    | _ => fail (.noOperator (wordName name) start)
  | _ => expected "an operator"

/-- The operators behind an expression that bind more strongly than a strength, at most as many as
`fuel` has items. -/
def stepsFuel (g : Grammar) (strength : Nat) : (fuel : List Lexeme) → Expr → Parser Expr
  | [], left => return left
  | _ :: fuel, left => do
    let ahead ← nextStrength
    if ahead ≤ strength || (← isSign .period) then return left
    stepsFuel g strength fuel (← step g left ahead)

/-- An expression of operators that bind more strongly than a strength. Every operator reads a
token, so that the tokens that are left suffice as fuel. -/
def expr (g : Grammar) (strength : Nat) : Parser Expr := do
  let left ← operand g
  stepsFuel g strength (← get) left

/-- The parsers for a text with at most `depth` levels of expressions and queries. -/
def grammar : (depth : Nat) → Grammar
  | 0 => ⟨fun _ => fail .tooDeep, fail .tooDeep⟩
  | depth + 1 =>
    ⟨fun strength tokens => expr (grammar depth) strength tokens,
      fun tokens => query (grammar depth) tokens⟩

/-- The number of levels that a text may have. -/
def maxDepth : Nat := 50

end SqlFootprint.Sql.Parser
