import SqlFootprint.Sql.SyntaxError

/-! # Parsers over tokens

A parser reads from a list of tokens and gives a value and the tokens behind it, or the cause of an
error. Failing keeps no trace, so that an attempt that fails leaves the tokens as they were. The one
error that no attempt takes back is a text nested too deeply. -/

namespace SqlFootprint.Sql

/-- A function from tokens to a value and the tokens left, or to an error. -/
abbrev Parser (α : Type) := StateT (List Lexeme) (Except SyntaxError) α

namespace Parser

variable {α : Type}

/-- The next token, left where it is. -/
def peek : Parser (Option Lexeme) := fun tokens => .ok (tokens.head?, tokens)

/-- The token `n` places behind the next one. -/
def peekAt (n : Nat) : Parser (Option Lexeme) := fun tokens => .ok (tokens[n]?, tokens)

/-- Reads a token. -/
def next : Parser (Option Lexeme) := fun tokens => .ok (tokens.head?, tokens.tail)

/-- Fails with a cause. -/
def fail (e : SyntaxError) : Parser α := fun _ => .error e

/-- Fails because something else was expected than the next token. -/
def expected (what : String) : Parser α := fun tokens => .error (.expected what tokens.head?)

/-- The place of the next token; none at the end. -/
def place : Parser (Option Position) := fun tokens => .ok (tokens.head?.map Lexeme.start, tokens)

/-- Fails with a text at the place of the next token. -/
def fault (text : String) : Parser α := fun tokens =>
  .error (.fault text (tokens.head?.map Lexeme.start))

/-- How many tokens are left. -/
def remaining : Parser Nat := fun tokens => .ok (tokens.length, tokens)

/-- The value of a parser, or none with the tokens as they were if it fails. -/
def attempt (p : Parser α) : Parser (Option α) := fun tokens =>
  match p tokens with
  | .ok (a, rest) => .ok (some a, rest)
  | .error .tooDeep => .error .tooDeep
  | .error _ => .ok (none, tokens)

/-- The value of the first parser; if it fails, that of the second. -/
def orElse (p q : Parser α) : Parser α := do
  match ← attempt p with
  | some a => return a
  | none => q

/-- Whether the next token is a sign. -/
def isSign (s : Sign) : Parser Bool := fun tokens =>
  .ok (tokens.head?.any (·.token == .sign s), tokens)

/-- Reads a sign if it comes next. -/
def sign? (s : Sign) : Parser Bool := fun tokens =>
  match tokens with
  | ⟨.sign t, _⟩ :: rest => .ok (if t = s then (true, rest) else (false, tokens))
  | _ => .ok (false, tokens)

/-- Reads a sign. -/
def sign (s : Sign) : Parser Unit := do
  unless ← sign? s do expected s.written

/-- The keyword that the next token may be. -/
def keywordAhead : Parser String := fun tokens =>
  .ok (match tokens with | [] => "" | lexeme :: _ => lexeme.token.keyword, tokens)

/-- Whether the next token is a keyword. -/
def isKeyword (word : String) : Parser Bool := return (← keywordAhead) == word

/-- Reads keywords if all of them come next, in order. -/
def keywords? (words : List String) : Parser Bool := fun tokens =>
  if (tokens.take words.length).map (·.token.keyword) = words then
    .ok (true, tokens.drop words.length)
  else .ok (false, tokens)

/-- Reads a keyword if it comes next. -/
def keyword? (word : String) : Parser Bool := keywords? [word]

/-- Reads a keyword. -/
def keyword (word : String) : Parser Unit := do
  unless ← keyword? word do expected word

/-- Reads keywords, in order. -/
def keywords : List String → Parser Unit
  | [] => return
  | word :: words => do
    keyword word
    keywords words

/-- Reads one of some keywords, if one comes next. -/
def oneOf? (words : List String) : Parser (Option String) := do
  let word ← keywordAhead
  if words.contains word then
    let _ ← next
    return some word
  return none

/-- Reads one of some keywords. -/
def oneOf (words : List String) : Parser String := do
  match ← oneOf? words with
  | some word => return word
  | none => expected ("one of " ++ " or ".intercalate words)

/-- Reads a value if its keyword comes next. -/
def after? (word : String) (p : Parser α) : Parser (Option α) := do
  if ← keyword? word then return some (← p)
  return none

/-- Reads values as long as the parser gives one, at most as many as `fuel` has items. -/
def manyFuel (p : Parser (Option α)) : (fuel : List Lexeme) → Parser (List α)
  | [] => return []
  | _ :: fuel => do
    match ← p with
    | none => return []
    | some a => return a :: (← manyFuel p fuel)

/-- Reads values as long as the parser gives one. It has to read a token for each, so that the
tokens that are left suffice as fuel. -/
def many (p : Parser (Option α)) : Parser (List α) := do
  manyFuel p (← get)

/-- Reads one or more values with commas between them. -/
def commaList (p : Parser α) : Parser (List α) := do
  let first ← p
  let others ← many (do if ← sign? .comma then return some (← p) else return none)
  return first :: others

/-- Reads something in parentheses. -/
def parens (p : Parser α) : Parser α := do
  sign .leftParen
  let a ← p
  sign .rightParen
  return a

end Parser

end SqlFootprint.Sql
