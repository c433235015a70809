import SqlFootprint.Sql.Literal
import SqlFootprint.Sql.Name

/-! # Tokens

The text of a statement is read as words, literals and signs. Every token knows where it starts. -/

namespace SqlFootprint.Sql

/-- A place in a text: line and column, both counted from one. -/
structure Position where
  /-- The line. -/
  line : Nat
  /-- The column, in characters. -/
  column : Nat
  deriving DecidableEq, Repr

/-- The place of the first character. -/
def Position.start : Position := ⟨1, 1⟩

/-- The place behind a character. -/
def Position.next (p : Position) (c : Char) : Position :=
  if c = '\n' then ⟨p.line + 1, 1⟩ else ⟨p.line, p.column + 1⟩

/-- The place behind some characters. -/
def Position.advance (p : Position) (cs : List Char) : Position := cs.foldl Position.next p

/-- Signs: operators and punctuation. -/
inductive Sign where
  | leftParen | rightParen | comma | semicolon | period
  | colon | doubleColon | assign
  | plus | minus | star | slash | percent
  | eq | doubleEq | rightArrow | notEq | bang | doubleBang
  | bangTilde | bangTildeStar | bangDoubleTilde | bangDoubleTildeStar
  | lt | ltEq | nullSafeEq | shiftLeft | arrowAt
  | gt | gtEq | shiftRight
  | pipe | doublePipe | squareRoot | cubeRoot
  | ampersand | doubleAmpersand | caret | caretAt
  | tilde | tildeStar | doubleTilde | doubleTildeStar
  | arrow | longArrow
  | atSign | doubleAt | atArrow | atQuestion
  | leftBracket | rightBracket | leftBrace | rightBrace | backslash
  deriving DecidableEq, Repr

/-- The characters of a sign. -/
def Sign.written : Sign → String
  | .leftParen => "(" | .rightParen => ")" | .comma => "," | .semicolon => ";" | .period => "."
  | .colon => ":" | .doubleColon => "::" | .assign => ":="
  | .plus => "+" | .minus => "-" | .star => "*" | .slash => "/" | .percent => "%"
  | .eq => "=" | .doubleEq => "==" | .rightArrow => "=>" | .notEq => "<>" | .bang => "!"
  | .doubleBang => "!!"
  | .bangTilde => "!~" | .bangTildeStar => "!~*" | .bangDoubleTilde => "!~~"
  | .bangDoubleTildeStar => "!~~*"
  | .lt => "<" | .ltEq => "<=" | .nullSafeEq => "<=>" | .shiftLeft => "<<" | .arrowAt => "<@"
  | .gt => ">" | .gtEq => ">=" | .shiftRight => ">>"
  | .pipe => "|" | .doublePipe => "||" | .squareRoot => "|/" | .cubeRoot => "||/"
  | .ampersand => "&" | .doubleAmpersand => "&&" | .caret => "^" | .caretAt => "^@"
  | .tilde => "~" | .tildeStar => "~*" | .doubleTilde => "~~" | .doubleTildeStar => "~~*"
  | .arrow => "->" | .longArrow => "->>"
  | .atSign => "@" | .doubleAt => "@@" | .atArrow => "@>" | .atQuestion => "@?"
  | .leftBracket => "[" | .rightBracket => "]" | .leftBrace => "\x7b" | .rightBrace => "\x7d"
  | .backslash => "\\"

/-- A token. -/
inductive Token where
  /-- A word: a keyword, or a name with or without quotes. -/
  | word (name : Ident)
  /-- A number, a quoted literal or a placeholder. -/
  | literal (value : Literal)
  /-- A sign. -/
  | sign (sign : Sign)
  /-- A character that starts no other token. -/
  | other (c : Char)
  deriving DecidableEq, Repr

/-- A token as an error message shows it. -/
def Token.shown : Token → String
  | .word ⟨value, none⟩ => value
  | .word ⟨value, some mark⟩ => mark.char.toString ++ value ++ mark.char.toString
  | .literal (.text .single value) => "'" ++ value ++ "'"
  | .literal (.text .double value) => "\"" ++ value ++ "\""
  | .literal value => value.written
  | .sign s => s.written
  | .other c => c.toString

/-- A token and the place where it starts. -/
structure Lexeme where
  /-- The token. -/
  token : Token
  /-- Where it starts. -/
  start : Position
  deriving DecidableEq, Repr

/-- The capital ASCII letters that a character stands for in a keyword; a few letters beyond ASCII
have them as their capitals. -/
def capitals (c : Char) : List Char :=
  if 'a' ≤ c && c ≤ 'z' then [c.toUpper]
  else match c.toNat with
    | 0xDF => ['S', 'S'] | 0x131 => ['I'] | 0x17F => ['S']
    | 0xFB00 => ['F', 'F'] | 0xFB01 => ['F', 'I'] | 0xFB02 => ['F', 'L']
    | 0xFB03 => ['F', 'F', 'I'] | 0xFB04 => ['F', 'F', 'L']
    | 0xFB05 => ['S', 'T'] | 0xFB06 => ['S', 'T']
    | _ => [c]

/-- The keyword that a name without quotes may be; a name in quotes is none. -/
def Ident.keyword : Ident → String
  | ⟨value, none⟩ => String.ofList (value.toList.flatMap capitals)
  | ⟨_, some _⟩ => ""

/-- The keyword that a token may be; empty for anything but a word without quotes. -/
def Token.keyword : Token → String
  | .word name => name.keyword
  | _ => ""

end SqlFootprint.Sql
