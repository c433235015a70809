/-! # Operators

Each operator has one canonical word or sign. -/

namespace SqlFootprint.Sql

/-- Operators between two operands. -/
inductive BinaryOp where
  | eq | notEq | lt | ltEq | gt | gtEq | nullSafeEq
  | plus | minus | times | divide | modulo | integerDivide
  | bitAnd | bitOr | bitXor
  | and | or | xor
  | concat | assign | arrow | longArrow
  | containedBy | contains | pathExists | pathMatch
  | matches | iMatches | notMatches | notIMatches
  | resembles | iResembles | notResembles | notIResembles
  | overlaps
  deriving DecidableEq, Repr

/-- The canonical spelling of an operator. -/
def BinaryOp.written : BinaryOp → String
  | .eq => "=" | .notEq => "<>" | .lt => "<" | .ltEq => "<=" | .gt => ">" | .gtEq => ">="
  | .nullSafeEq => "<=>"
  | .plus => "+" | .minus => "-" | .times => "*" | .divide => "/" | .modulo => "%"
  | .integerDivide => "DIV"
  | .bitAnd => "&" | .bitOr => "|" | .bitXor => "^"
  | .and => "AND" | .or => "OR" | .xor => "XOR"
  | .concat => "||" | .assign => ":=" | .arrow => "->" | .longArrow => "->>"
  | .containedBy => "<@" | .contains => "@>" | .pathExists => "@?" | .pathMatch => "@@"
  | .matches => "~" | .iMatches => "~*" | .notMatches => "!~" | .notIMatches => "!~*"
  | .resembles => "~~" | .iResembles => "~~*" | .notResembles => "!~~" | .notIResembles => "!~~*"
  | .overlaps => "OVERLAPS"

/-- Operators before their operand. -/
inductive UnaryOp where
  | not | minus | plus
  deriving DecidableEq, Repr

/-- The canonical text before the operand; the word stands apart from it, the signs do not. -/
def UnaryOp.written : UnaryOp → String
  | .not => "NOT "
  | .minus => "-"
  | .plus => "+"

/-- What `IS` tests for. -/
inductive Truth where
  | null | true | false | unknown
  deriving DecidableEq, Repr

/-- The word after `IS`. -/
def Truth.written : Truth → String
  | .null => "NULL"
  | .true => "TRUE"
  | .false => "FALSE"
  | .unknown => "UNKNOWN"

/-- The pattern operators that take an escape character. -/
inductive LikeOp where
  | like | ilike | similarTo
  deriving DecidableEq, Repr

/-- The words of a pattern operator. -/
def LikeOp.written : LikeOp → String
  | .like => "LIKE"
  | .ilike => "ILIKE"
  | .similarTo => "SIMILAR TO"

/-- How many rows of a set a comparison has to hold for. -/
inductive Quantifier where
  | any | some | all
  deriving DecidableEq, Repr

/-- The word of a quantifier. -/
def Quantifier.written : Quantifier → String
  | .any => "ANY"
  | .some => "SOME"
  | .all => "ALL"

/-- The word `NOT` and a blank, where an operator is negated. -/
def notWord (negated : Bool) : String := if negated then "NOT " else ""

/-- What happens to the rows of two queries. -/
inductive SetOp where
  | union | except | intersect | minus
  deriving DecidableEq, Repr

/-- The word of a set operation. -/
def SetOp.written : SetOp → String
  | .union => "UNION"
  | .except => "EXCEPT"
  | .intersect => "INTERSECT"
  | .minus => "MINUS"

/-- The kinds of join. -/
inductive JoinKind where
  | plain | inner | left | leftOuter | right | rightOuter | full | cross | crossApply | outerApply
  | semi | leftSemi | rightSemi | anti | leftAnti | rightAnti | straight
  deriving DecidableEq, Repr

/-- The words of a join. -/
def JoinKind.written : JoinKind → String
  | .plain => "JOIN" | .inner => "INNER JOIN"
  | .left => "LEFT JOIN" | .leftOuter => "LEFT OUTER JOIN"
  | .right => "RIGHT JOIN" | .rightOuter => "RIGHT OUTER JOIN"
  | .full => "FULL JOIN" | .cross => "CROSS JOIN"
  | .crossApply => "CROSS APPLY" | .outerApply => "OUTER APPLY"
  | .semi => "SEMI JOIN" | .leftSemi => "LEFT SEMI JOIN" | .rightSemi => "RIGHT SEMI JOIN"
  | .anti => "ANTI JOIN" | .leftAnti => "LEFT ANTI JOIN" | .rightAnti => "RIGHT ANTI JOIN"
  | .straight => "STRAIGHT_JOIN"

end SqlFootprint.Sql
