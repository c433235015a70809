import SqlFootprint.Sql.SyntaxError
import SqlFootprint.Text.Letter

/-! # Reading tokens

The characters of a text are cut into tokens from left to right. Each step gives the characters it
reads and the rest behind them; blanks and comments give no token. -/

namespace SqlFootprint.Sql

/-- What one step reads: a token or nothing worth one, the characters read, and the rest. -/
structure Scan where
  /-- The token, unless blanks or a comment were read. -/
  token : Option Token
  /-- The characters read. -/
  read : List Char
  /-- The characters behind them. -/
  rest : List Char

/-- A quoted text after its opening mark. -/
structure QuotedRun where
  /-- The value of the text. -/
  value : List Char
  /-- The characters read, the closing mark included. -/
  read : List Char
  /-- The characters behind them. -/
  rest : List Char

/-- Characters read in front of a run. -/
def QuotedRun.push (value read : List Char) (run : QuotedRun) : QuotedRun :=
  ⟨value ++ run.value, read ++ run.read, run.rest⟩

/-- What a character behind a backslash stands for. -/
def unescape : Char → List Char
  | '0' => ['\x00']
  | 'a' => ['\x07']
  | 'b' => ['\x08']
  | 'f' => ['\x0c']
  | 'n' => ['\n']
  | 'r' => ['\r']
  | 't' => ['\t']
  | 'Z' => ['\x1a']
  | '%' => ['\\', '%']
  | '_' => ['\\', '_']
  | c => [c]

/-- Reads a quoted text after its opening mark. A doubled mark stands for one; a backslash escapes
the character behind it, if escapes are on. `none` if the closing mark is missing. -/
def quotedRun (mark : Char) (escapes : Bool) : List Char → Option QuotedRun
  | [] => none
  | [c] => if c = mark then some ⟨[], [c], []⟩ else none
  | c :: d :: cs =>
    if c = mark then
      if d = mark then (quotedRun mark escapes cs).map (QuotedRun.push [c] [c, d])
      else some ⟨[], [c], d :: cs⟩
    else if escapes && c = '\\' then
      (quotedRun mark escapes cs).map (QuotedRun.push (unescape d) [c, d])
    else (quotedRun mark escapes (d :: cs)).map (QuotedRun.push [c] [c])

/-- Reads a comment after its opening signs, where `depth` more comments are open around it.
`none` if an end is missing. -/
def commentRun : (depth : Nat) → List Char → Option (List Char × List Char)
  | _, [] => none
  | _, [_] => none
  | depth, c :: d :: cs =>
    if c = '/' && d = '*' then
      (commentRun (depth + 1) cs).map fun (read, rest) => (c :: d :: read, rest)
    else if c = '*' && d = '/' then
      match depth with
      | 0 => some ([c, d], cs)
      | n + 1 => (commentRun n cs).map fun (read, rest) => (c :: d :: read, rest)
    else (commentRun depth (d :: cs)).map fun (read, rest) => (c :: read, rest)

/-- Reads to the end of the line, the line break included. -/
def lineRun (cs : List Char) : List Char × List Char :=
  match cs.span (· ≠ '\n') with
  | (line, []) => (line, [])
  | (line, c :: rest) => (line ++ [c], rest)

/-- Whether a name without quotes may start with a character. -/
def isNameStart (c : Char) : Bool :=
  c.isAlpha || c = '_' || c = '$' || c = '@' || (0x80 ≤ c.toNat && c.toNat ≤ 0xFFFF) ||
    Text.isHighLetter c

/-- Whether a name without quotes may go on with a character. -/
def isNamePart (c : Char) : Bool := isNameStart c || c.isDigit

/-- Whether a character is passed over between tokens. -/
def isGap (c : Char) : Bool :=
  c = ' ' || c = '\t' || c = '\n' || c = '\r' || c = '\x0b' || c = '\x0c'

/-- Whether a character is a hexadecimal digit. -/
def isHexDigit (c : Char) : Bool :=
  c.isDigit || ('a' ≤ c && c ≤ 'f') || ('A' ≤ c && c ≤ 'F')

/-- What stands directly before a token, as far as it matters for a period or a digit. -/
inductive Before where
  | word | period | other
  deriving DecidableEq, Repr

/-- What the next token finds before it. -/
def Before.of : Option Token → Before
  | some (.word _) => .word
  | some (.sign .period) => .period
  | _ => .other

/-- A word of given characters, up to the first one that is no part of a name. -/
def scanWord (first cs : List Char) : Scan :=
  let (more, rest) := cs.span isNamePart
  let read := first ++ more
  ⟨some (.word ⟨String.ofList read, none⟩), read, rest⟩

/-- The signs by their spellings, a longer one before those it starts with. -/
def signTable : List (List Char × Sign) :=
  [("(", .leftParen), (")", .rightParen), (",", .comma), (";", .semicolon),
   ("::", .doubleColon), (":=", .assign), (":", .colon),
   ("->>", .longArrow), ("->", .arrow), ("-", .minus), ("+", .plus), ("*", .star), ("/", .slash),
   ("%", .percent),
   ("=>", .rightArrow), ("==", .doubleEq), ("=", .eq),
   ("!~~*", .bangDoubleTildeStar), ("!~~", .bangDoubleTilde), ("!~*", .bangTildeStar),
   ("!~", .bangTilde), ("!=", .notEq), ("!!", .doubleBang), ("!", .bang),
   ("<=>", .nullSafeEq), ("<=", .ltEq), ("<>", .notEq), ("<<", .shiftLeft), ("<@", .arrowAt),
   ("<", .lt), (">=", .gtEq), (">>", .shiftRight), (">", .gt),
   ("||/", .cubeRoot), ("||", .doublePipe), ("|/", .squareRoot), ("|", .pipe),
   ("&&", .doubleAmpersand), ("&", .ampersand), ("^@", .caretAt), ("^", .caret),
   ("~~*", .doubleTildeStar), ("~~", .doubleTilde), ("~*", .tildeStar), ("~", .tilde),
   ("[", .leftBracket), ("]", .rightBracket), ("\x7b", .leftBrace), ("\x7d", .rightBrace),
   ("\\", .backslash)].map fun (spelling, sign) => (spelling.toList, sign)

/-- Reads a sign. -/
def scanSign? (cs : List Char) : Option Scan :=
  (signTable.find? fun entry => entry.1.isPrefixOf cs).map fun (spelling, sign) =>
    ⟨some (.sign sign), spelling, cs.drop spelling.length⟩

/-- Reads what starts with an at sign: a sign before a blank, a quote or the end, else a word. -/
def scanAt (cs : List Char) : Scan :=
  match cs with
  | '>' :: rest => ⟨some (.sign .atArrow), ['@', '>'], rest⟩
  | '?' :: rest => ⟨some (.sign .atQuestion), ['@', '?'], rest⟩
  | '@' :: [] => ⟨some (.sign .doubleAt), ['@', '@'], []⟩
  | '@' :: c :: rest =>
    if c = ' ' then ⟨some (.sign .doubleAt), ['@', '@'], c :: rest⟩
    else scanWord ['@', '@', c] rest
  | [] => ⟨some (.sign .atSign), ['@'], []⟩
  | c :: rest =>
    if c = ' ' || c = '\x27' || c = '\x22' || c = '\x60' then
      ⟨some (.sign .atSign), ['@'], c :: rest⟩
    else scanWord ['@', c] rest

/-- The digits of an exponent with its letter and sign, if some follow. -/
def exponent? (cs : List Char) : Option (List Char × List Char) :=
  let digits (before cs : List Char) : Option (List Char × List Char) :=
    match cs.span Char.isDigit with
    | ([], _) => none
    | (ds, rest) => some (before ++ ds, rest)
  match cs with
  | e :: '+' :: rest => digits [e, '+'] rest
  | e :: '-' :: rest => digits [e, '-'] rest
  | e :: rest => digits [e] rest
  | [] => none

/-- A literal token of given characters. -/
def literalScan (value : Literal) (read rest : List Char) : Scan :=
  ⟨some (.literal value), read, rest⟩

/-- Reads what starts with a digit or a period: a number, a hexadecimal literal, a period, or a
word that starts with digits. -/
def scanNumber (before : Before) (cs : List Char) : Scan :=
  let (whole, afterWhole) := cs.span Char.isDigit
  match whole, afterWhole with
  | ['0'], 'x' :: hex =>
    let (digits, rest) := hex.span isHexDigit
    literalScan (.text .hex (String.ofList digits)) (['0', 'x'] ++ digits) rest
  | _, _ =>
    let (point, afterPoint) : List Char × List Char :=
      match afterWhole with
      | '.' :: rest => (['.'], rest)
      | rest => ([], rest)
    if whole ++ point = ['.'] && before = .word then ⟨some (.sign .period), ['.'], afterPoint⟩
    else
      let (fraction, afterFraction) := afterPoint.span Char.isDigit
      let digits := whole ++ point ++ fraction
      if digits = ['.'] then ⟨some (.sign .period), ['.'], afterFraction⟩
      else
        let number (digits rest : List Char) : Scan :=
          match rest with
          | 'L' :: more => literalScan (.number (String.ofList digits) true) (digits ++ ['L']) more
          | _ => literalScan (.number (String.ofList digits) false) digits rest
        let word (digits rest : List Char) : Scan :=
          ⟨some (.word ⟨String.ofList digits, none⟩), digits, rest⟩
        match afterFraction with
        | c :: _ =>
          if c = 'e' || c = 'E' then
            let (digits, rest) := match exponent? afterFraction with
              | some (power, rest) => (digits ++ power, rest)
              | none => (digits, afterFraction)
            if before = .period then word digits rest else number digits rest
          else if isNamePart c then scanWord digits afterFraction
          else number digits afterFraction
        | [] => number digits []

/-- Reads a quoted literal after the letters that introduce it. -/
def scanText (p : Position) (letters : List Char) (kind : TextKind) (mark : Char)
    (escapes : Bool) (cs : List Char) : Except SyntaxError Scan :=
  match quotedRun mark escapes cs with
  | some run =>
    .ok (literalScan (.text kind (String.ofList run.value)) (letters ++ mark :: run.read) run.rest)
  | none => .error (.openText (p.advance letters))

/-- One step of reading, at a character and the characters behind it. -/
def scan (before : Before) (p : Position) (c : Char) (cs : List Char) : Except SyntaxError Scan :=
  if isGap c then .ok ⟨none, [c], cs⟩
  else match c, cs with
  | 'b', '\x27' :: rest | 'B', '\x27' :: rest => scanText p [c] .bits '\x27' false rest
  | 'b', '\x22' :: rest | 'B', '\x22' :: rest => scanText p [c] .doubleBits '\x22' false rest
  | 'n', '\x27' :: rest | 'N', '\x27' :: rest => scanText p [c] .national '\x27' true rest
  | 'x', '\x27' :: rest | 'X', '\x27' :: rest => scanText p [c] .hex '\x27' true rest
  | '\x27', _ => scanText p [] .single '\x27' true cs
  | '\x22', _ => scanText p [] .double '\x22' true cs
  | '\x60', _ =>
    match quotedRun '\x60' false cs with
    | some run =>
      .ok ⟨some (.word ⟨String.ofList run.value, some .backtick⟩), c :: run.read, run.rest⟩
    | none => .error (.openName p)
  | '.', '_' :: _ =>
    if before = .word then .ok ⟨some (.sign .period), [c], cs⟩ else .error (.strayUnderscore p)
  | '-', '-' :: ' ' :: _ | '#', _ =>
    let (read, rest) := lineRun cs
    .ok ⟨none, c :: read, rest⟩
  | '/', '*' :: rest =>
    match commentRun 0 rest with
    | some (read, rest) => .ok ⟨none, c :: '*' :: read, rest⟩
    | none => .error (.openComment (p.advance (c :: cs)))
  | '@', _ => .ok (scanAt cs)
  | '?', _ =>
    let (digits, rest) := cs.span Text.isNumeral
    .ok (literalScan (.placeholder (String.ofList (c :: digits))) (c :: digits) rest)
  | _, _ =>
    if c.isDigit || c = '.' then .ok (scanNumber before (c :: cs))
    else match scanSign? (c :: cs) with
      | some s => .ok s
      | none =>
        if isNameStart c then .ok (scanWord [c] cs) else .ok ⟨some (.other c), [c], cs⟩

/-- The tokens of a text from a place on, by at most `fuel` steps. -/
def lexFrom : (fuel : Nat) → Before → Position → List Char → Except SyntaxError (List Lexeme)
  | 0, _, _, _ => .ok []
  | _ + 1, _, _, [] => .ok []
  | fuel + 1, before, p, c :: cs => do
    let step ← scan before p c cs
    let lexemes ← lexFrom fuel (.of step.token) (p.advance step.read) step.rest
    return match step.token with
      | none => lexemes
      | some token => ⟨token, p⟩ :: lexemes

/-- The tokens of a text. Each step reads at least one character. -/
def lex (text : String) : Except SyntaxError (List Lexeme) :=
  lexFrom text.length .other .start text.toList

end SqlFootprint.Sql
