import SqlFootprint.Text.Quoted

/-! # Literal values

A number keeps the digits it was written with. A text keeps its value, without quotes and with
escapes resolved, and the kind of literal it came from. -/

namespace SqlFootprint.Sql

/-- The kinds of quoted literal. -/
inductive TextKind where
  /-- A text in single quotes. -/
  | single
  /-- A text in double quotes. -/
  | double
  /-- A national text, introduced by N. -/
  | national
  /-- Hexadecimal digits, introduced by X or 0x. -/
  | hex
  /-- Bits in single quotes, introduced by B. -/
  | bits
  /-- Bits in double quotes, introduced by B. -/
  | doubleBits
  deriving DecidableEq, Repr

/-- A literal value. -/
inductive Literal where
  /-- A number, by its digits; `long` marks a trailing L. -/
  | number (digits : String) (long : Bool)
  /-- A quoted literal. -/
  | text (kind : TextKind) (value : String)
  /-- A truth value. -/
  | boolean (value : Bool)
  /-- The missing value. -/
  | null
  /-- A parameter to be filled in later. -/
  | placeholder (name : String)
  deriving DecidableEq, Repr

/-- A quoted literal in canonical form. -/
def TextKind.written : TextKind → String → String
  | .single, value => Text.widened '\x27' value
  | .double, value => Text.widened '\x22' value
  | .national, value => "N'" ++ value ++ "'"
  | .hex, value => "X'" ++ value ++ "'"
  | .bits, value => "B'" ++ value ++ "'"
  | .doubleBits, value => "B\"" ++ value ++ "\""

/-- A literal in canonical form. -/
def Literal.written : Literal → String
  | .number digits long => if long then digits ++ "L" else digits
  | .text kind value => kind.written value
  | .boolean true => "true"
  | .boolean false => "false"
  | .null => "NULL"
  | .placeholder name => name

end SqlFootprint.Sql
