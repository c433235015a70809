import SqlFootprint.Sql.Written

/-! # Compact text of conditions

A filter is written without blanks around comparing and computing signs; words keep theirs, and
every text stands between single quotes. What has no compact form of its own is written in
canonical form. A star stands for columns and has no place in a filter. -/

namespace SqlFootprint.Sql

/-- Why an expression has no text as a filter. -/
inductive RestoreError where
  /-- It holds a star; the text is the star as it is written. -/
  | unsupported (text : String)
  deriving DecidableEq, Repr

/-- The message of an error. -/
def RestoreError.message : RestoreError → String
  | .unsupported text => "expression cannot be rendered as a filter: " ++ text

/-- The compact text of an operator: signs of comparison and arithmetic stand close, and all others
between blanks. -/
def BinaryOp.compact : BinaryOp → String
  | .eq => "=" | .notEq => "!=" | .lt => "<" | .ltEq => "<=" | .gt => ">" | .gtEq => ">="
  | .nullSafeEq => "<=>"
  | .plus => "+" | .minus => "-" | .times => "*" | .divide => "/" | .modulo => "%"
  | .bitAnd => "&" | .bitOr => "|" | .bitXor => "^"
  | .and => " AND " | .or => " OR " | .xor => " XOR " | .integerDivide => " DIV "
  | other => " " ++ other.written ++ " "

/-- The compact text of a literal. -/
def Literal.compact : Literal → String
  | .text .single value | .text .double value | .text .national value => Text.doubled '\x27' value
  | .boolean true => "TRUE"
  | .boolean false => "FALSE"
  | other => other.written

mutual

/-- The compact text of an expression, or the leftmost star that has none. -/
def Expr.compact : Expr → Except RestoreError String
  | .literal value => .ok value.compact
  | .introduced charset value => do return charset.written ++ (← value.compact)
  | .binary left op right => do
    let l ← left.compact
    let r ← right.compact
    return l ++ op.compact ++ r
  | .unary op arg => do return op.written ++ (← arg.compact)
  | .nested inner => do return "(" ++ (← inner.compact) ++ ")"
  | .isTest arg negated truth =>
    match negated, truth with
    | _, .null => do return (← arg.compact) ++ " IS " ++ notWord negated ++ "NULL"
    | false, .true => do return (← arg.compact) ++ " IS TRUE"
    | false, .false => do return (← arg.compact) ++ " IS FALSE"
    | _, _ => .ok (Expr.isTest arg negated truth).written
  | .inList arg negated items => do
    let a ← arg.compact
    let list ← compactItems items
    return a ++ " " ++ notWord negated ++ "IN (" ++ ",".intercalate list ++ ")"
  | .inQuery arg negated body => do
    return (← arg.compact) ++ " " ++ notWord negated ++ "IN (" ++ body.written ++ ")"
  | .between arg negated low high => do
    let a ← arg.compact
    let l ← low.compact
    let h ← high.compact
    return a ++ " " ++ notWord negated ++ "BETWEEN " ++ l ++ " AND " ++ h
  | .like arg negated op any pattern escape =>
    match op, escape with
    | .like, none => do
      let a ← arg.compact
      let p ← pattern.compact
      return a ++ " " ++ notWord negated ++ "LIKE " ++ p
    | _, _ => .ok (Expr.like arg negated op any pattern escape).written
  | .wildcard => .error (.unsupported Expr.wildcard.written)
  | .tableWildcard parts => .error (.unsupported (Expr.tableWildcard parts).written)
  | other => .ok other.written
termination_by structural e => e

/-- The compact texts of expressions. -/
def compactItems : List Expr → Except RestoreError (List String)
  | [] => .ok []
  | e :: es => do
    let text ← e.compact
    return text :: (← compactItems es)
termination_by structural es => es

end

end SqlFootprint.Sql
