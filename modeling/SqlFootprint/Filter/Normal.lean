import SqlFootprint.Filter.Restore
import SqlFootprint.Footprint
import SqlFootprint.Text.Blank
import SqlFootprint.Text.Substring
import SqlFootprint.Text.WordChar

/-! # The normal form of a filter

The text of a condition goes through four passes: the marks around names are removed, the character
sets in front of texts are removed, second names are written as tables, and the word between
conditions is written in lower case. Each pass works on the characters alone. -/

namespace SqlFootprint.Filter

open Text

/-! ## Names without marks -/

/-- The characters that are no mark around a name. -/
def dropMarks (cs : List Char) : List Char := cs.filter (· ≠ '\x60')

/-! ## Texts without character sets -/

/-- Reads a text after its opening quote, where two quotes are one inside. If no closing quote is
left, the text ends at the first quote of the last pair. -/
def closedText : List Char → Option (List Char × List Char)
  | [] => none
  | [c] => if c = '\x27' then some ([c], []) else none
  | c :: d :: cs =>
    if c = '\x27' then
      if d = '\x27' then
        match closedText cs with
        | some (text, rest) => some (c :: d :: text, rest)
        | none => some ([c], d :: cs)
      else some ([c], d :: cs)
    else
      match closedText (d :: cs) with
      | some (text, rest) => some (c :: text, rest)
      | none => none

/-- Whether a name of a character set may go on with a character. -/
def isCharsetPart (c : Char) : Bool := c.isAlpha || c.isDigit

/-- The text in quotes behind a character set at the front, and the number of characters of both. -/
def introducedText? : List Char → Option (List Char × Nat)
  | u :: first :: cs =>
    if u = '_' && first.isAlpha then
      let name := cs.takeWhile isCharsetPart
      let gap := (cs.drop name.length).takeWhile isBlank
      match cs.drop (name.length + gap.length) with
      | q :: body =>
        if q = '\x27' then
          match closedText body with
          | some (text, _) => some (q :: text, 2 + name.length + gap.length + 1 + text.length)
          | none => none
        else none
      | [] => none
    else none
  | _ => none

/-- The text after `skip` characters without the character sets in front of texts. A character set
does not begin inside a word; `inWord` tells whether the character before is part of one. -/
def dropCharsetsFrom : (skip : Nat) → (inWord : Bool) → List Char → List Char
  | _, _, [] => []
  | skip + 1, _, c :: cs => dropCharsetsFrom skip (isWordChar c) cs
  | 0, inWord, c :: cs =>
    match if inWord then none else introducedText? (c :: cs) with
    | some (text, length) => text ++ dropCharsetsFrom (length - 1) (isWordChar c) cs
    | none => c :: dropCharsetsFrom 0 (isWordChar c) cs

/-- The text without the character sets in front of texts. -/
def dropCharsets (cs : List Char) : List Char := dropCharsetsFrom 0 false cs

/-! ## Tables for second names -/

/-- Whether a second name may begin behind a character. -/
def isBoundary (c : Char) : Bool := !(c.isAlpha || c.isDigit || c = '_' || c = '$')

/-- The first second name that stands in front with a period behind it, and its table. -/
def aliasAhead? (aliases : Aliases) (cs : List Char) : Option (String × String) :=
  aliases.find? fun (asName, _) => (asName.toList ++ ['.']).isPrefixOf cs

/-- The text after `skip` characters with a table for every second name in front of a period.
A second name stands at the start of the whole text or behind a boundary, and one boundary serves
one name. -/
def substituteFrom (aliases : Aliases) : (skip : Nat) → (atStart : Bool) → List Char → List Char
  | _, _, [] => []
  | skip + 1, _, _ :: cs => substituteFrom aliases skip false cs
  | 0, atStart, c :: cs =>
    match if atStart then aliasAhead? aliases (c :: cs) else none with
    | some (asName, table) =>
      table.toList ++ '.' :: substituteFrom aliases asName.length false cs
    | none =>
      match if isBoundary c then aliasAhead? aliases cs else none with
      | some (asName, table) =>
        c :: table.toList ++ '.' :: substituteFrom aliases (asName.length + 1) false cs
      | none => c :: substituteFrom aliases 0 false cs

/-- The text with a table for every second name in front of a period. -/
def substituteAliases (aliases : Aliases) (text : String) : String :=
  if aliases.isEmpty then text
  else String.ofList (substituteFrom aliases 0 true text.toList)

/-! ## All passes -/

/-- The text of a condition in normal form. -/
def normalize (aliases : Aliases) (text : String) : String :=
  let plain := String.ofList (dropCharsets (dropMarks text.toList))
  replace (substituteAliases aliases plain) " AND " " and "

/-- A condition as a filter in normal form. -/
def render (aliases : Aliases) (condition : Sql.Expr) : Except Sql.RestoreError String := do
  return normalize aliases (← condition.compact)

/-- A condition as a filter in normal form; empty if there is none or it has no text. -/
def renderOrEmpty (aliases : Aliases) : Option Sql.Expr → String
  | none => ""
  | some condition =>
    match render aliases condition with
    | .ok filter => filter
    | .error _ => ""

/-- What is told of a condition that has no text. -/
def dropped? (aliases : Aliases) : Option Sql.Expr → Option String
  | none => none
  | some condition =>
    match render aliases condition with
    | .ok _ => none
    | .error e => some ("Dropping WHERE filter that could not be rendered: " ++ e.message)

end SqlFootprint.Filter
