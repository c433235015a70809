import SqlFootprint.Sql.Token

/-! # Syntax errors

Each cause of a syntax error is a constructor; the wording is one function. -/

namespace SqlFootprint.Sql

/-- Why a text is not a list of statements. -/
inductive SyntaxError where
  /-- Something else was expected than what was found; nothing was found at the end of the text. -/
  | expected (what : String) (found : Option Lexeme)
  /-- A quoted text without its end; the place is its opening mark. -/
  | openText (start : Position)
  /-- A quoted name without its end; the place is its opening mark. -/
  | openName (start : Position)
  /-- A comment without its end; the place is the end of the text. -/
  | openComment (stop : Position)
  /-- A period and an underscore that follow no word. -/
  | strayUnderscore (start : Position)
  /-- A token that binds like an operator and is none. -/
  | noOperator (name : String) (start : Position)
  /-- A number that is no size: it is not whole, or it is too large. -/
  | noSize (digits : String) (tooLarge : Bool) (start : Position)
  /-- Another fault, at a place that may be the end of the text. -/
  | fault (text : String) (place : Option Position)
  /-- A fault of which only the text is known. -/
  | reported (text : String)
  /-- The text is nested too deeply. -/
  | tooDeep
  deriving DecidableEq, Repr

/-- A place as a message ends with it. -/
def Position.suffix (p : Position) : String :=
  " at Line: " ++ toString p.line ++ ", Column: " ++ toString p.column

/-- A place that may be the end of the text, as a message ends with it. -/
def placeSuffix : Option Position → String
  | none => ""
  | some p => p.suffix

/-- What was found, as a message ends with it. -/
def foundSuffix : Option Lexeme → String
  | none => "EOF"
  | some lexeme => lexeme.token.shown ++ lexeme.start.suffix

/-- The cause of an error in words. -/
def SyntaxError.cause : SyntaxError → String
  | .expected what found => "Expected: " ++ what ++ ", found: " ++ foundSuffix found
  | .openText start => "Unterminated string literal" ++ start.suffix
  | .openName start => "Expected close delimiter '`' before EOF." ++ start.suffix
  | .openComment stop => "Unexpected EOF while in a multi-line comment" ++ stop.suffix
  | .strayUnderscore start => "Unexpected character '_'" ++ start.suffix
  | .noOperator name start => "No infix parser for token " ++ name ++ start.suffix
  | .noSize digits tooLarge start =>
    "Could not parse '" ++ digits ++ "' as u64: " ++
      (if tooLarge then "number too large to fit in target type"
        else "invalid digit found in string") ++ start.suffix
  | .fault text place => text ++ placeSuffix place
  | .reported text => text
  | .tooDeep => "recursion limit exceeded"

/-- The message of an error. -/
def SyntaxError.message (e : SyntaxError) : String := "sql parser error: " ++ e.cause

end SqlFootprint.Sql
