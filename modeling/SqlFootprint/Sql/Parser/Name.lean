import SqlFootprint.Sql.Expr
import SqlFootprint.Sql.Parser.Basic

/-! # Parsing names, literals and data types

The parts of a text that hold no expressions: names with their qualifiers, second names, values, and
the types of columns and casts. -/

namespace SqlFootprint.Sql.Parser

/-- A name: a word, or a text in quotes used as one. -/
def ident : Parser Ident := fun tokens =>
  match tokens with
  | ⟨.word name, _⟩ :: rest => .ok (name, rest)
  | ⟨.literal (.text .single value), _⟩ :: rest => .ok (⟨value, some .single⟩, rest)
  | ⟨.literal (.text .double value), _⟩ :: rest => .ok (⟨value, some .double⟩, rest)
  | _ => .error (.expected "identifier" tokens.head?)

/-- A name with its qualifiers. -/
def objectName : Parser ObjectName := do
  let first ← ident
  let others ← many (do if ← sign? .period then return some (← ident) else return none)
  return first :: others

/-- Names in parentheses. -/
def identList : Parser (List Ident) := parens (commaList ident)

/-- Qualified names in parentheses, where a list of columns has to stand. -/
def columnNames : Parser (List ObjectName) := do
  unless ← isSign .leftParen do expected "a list of columns in parentheses"
  parens (commaList objectName)

/-- Names in parentheses, where a list of columns has to stand. -/
def columnList : Parser (List Ident) := do
  unless ← isSign .leftParen do expected "a list of columns in parentheses"
  identList

/-- Names in parentheses, if there are any. -/
def columnList? : Parser (List Ident) := do
  if ← isSign .leftParen then identList else return []

/-- The name of a parameter, after a sign at a place. The name stands right behind the sign. -/
def parameter (sign : Sign) (start : Position) : Parser Literal := fun tokens =>
  match tokens with
  | lexeme :: rest =>
    if lexeme.start = start.advance sign.written.toList then
      match lexeme.token with
      | .word name => .ok (.placeholder (sign.written ++ name.value), rest)
      | .literal (.number digits false) => .ok (.placeholder (sign.written ++ digits), rest)
      | _ => .error (.expected "placeholder" (some lexeme))
    else .error (.expected "placeholder" (some lexeme))
  | [] => .error (.expected "placeholder" none)

/-- A literal value. -/
def literal : Parser Literal := fun tokens =>
  match tokens with
  | ⟨.literal value, _⟩ :: rest => .ok (value, rest)
  | ⟨.word name, _⟩ :: rest =>
    match name.keyword with
    | "TRUE" => .ok (.boolean true, rest)
    | "FALSE" => .ok (.boolean false, rest)
    | "NULL" => .ok (.null, rest)
    | _ => .error (.expected "a concrete value" tokens.head?)
  | ⟨.sign s, start⟩ :: rest =>
    if s = .colon || s = .atSign then parameter s start rest
    else .error (.expected "a value" tokens.head?)
  | _ => .error (.expected "a value" tokens.head?)

/-- A text in quotes. -/
def textLiteral : Parser String := fun tokens =>
  match tokens with
  | ⟨.literal (.text .single value), _⟩ :: rest => .ok (value, rest)
  | ⟨.literal (.text .double value), _⟩ :: rest => .ok (value, rest)
  | ⟨.word name, _⟩ :: rest => .ok (name.value, rest)
  | _ => .error (.expected "literal string" tokens.head?)

/-- The number that decimal digits stand for. -/
def valueOfDigits (digits : List Char) : Nat :=
  digits.foldl (fun n c => 10 * n + (c.toNat - '0'.toNat)) 0

/-- The least whole number that is too large for a size: it does not fit in 64 bits. -/
def sizeBound : Nat := 18446744073709551616

/-- A size: a whole number, in as few digits as it has. Digits that are too many are a fault ahead
of a character that is no digit. -/
def wholeNumber : Parser String := fun tokens =>
  match tokens with
  | ⟨.literal (.number digits _), start⟩ :: rest =>
    let n := valueOfDigits (digits.toList.takeWhile Char.isDigit)
    if sizeBound ≤ n then .error (.noSize digits true start)
    else if digits.toList.all Char.isDigit then .ok (toString n, rest)
    else .error (.noSize digits false start)
  | _ => .error (.expected "literal int" tokens.head?)

/-- The size of a type: one number in parentheses, if given. -/
def size? : Parser (Option String) := do
  if ← sign? .leftParen then
    let n ← wholeNumber
    sign .rightParen
    return some n
  return none

/-- The size of a number type: one or two numbers in parentheses, if given. -/
def numberSize? : Parser (Option String) := do
  if ← sign? .leftParen then
    let n ← wholeNumber
    let scale ← if ← sign? .comma then pure ("," ++ (← wholeNumber)) else pure ""
    sign .rightParen
    return some (n ++ scale)
  return none

/-- The length of a text type: a number with its unit, or the greatest length, if given. -/
def textSize? : Parser (Option String) := do
  if ← sign? .leftParen then
    let text ← if ← keyword? "MAX" then pure "MAX" else do
      let n ← wholeNumber
      match ← oneOf? ["CHARACTERS", "OCTETS"] with
      | some unit => pure (n ++ " " ++ unit)
      | none => pure n
    sign .rightParen
    return some text
  return none

/-- Whether a time of a type has a time zone, in words. -/
def timeZone? : Parser String := do
  if ← keyword? "WITH" then
    keywords ["TIME", "ZONE"]
    return " WITH TIME ZONE"
  if ← keyword? "WITHOUT" then
    keywords ["TIME", "ZONE"]
    return " WITHOUT TIME ZONE"
  return ""

/-- The values of an enumerated type. -/
def enumValues : Parser String := do
  let values ← parens <| commaList do
    let value ← textLiteral
    let number ← if ← sign? .eq then pure (" = " ++ (← literal).written) else pure ""
    return Text.widened '\x27' value ++ number
  return ", ".intercalate values

/-- The modifiers of a type of its own. -/
def modifiers? : Parser (List String) := do
  if ← sign? .leftParen then
    let found ← many do
      match ← next with
      | some ⟨.word name, _⟩ => return some [name.written]
      | some ⟨.literal (.number digits _), _⟩ => return some [digits]
      | some ⟨.literal (.text .single value), _⟩ => return some [value]
      | some ⟨.sign .comma, _⟩ => return some []
      | some ⟨.sign .rightParen, _⟩ => return none
      | found => fail (.expected "type modifiers" found)
    return found.flatten
  return []

/-- Types without a size. -/
def plainTypes : List String :=
  ["BOOLEAN", "BOOL", "REAL", "FLOAT4", "FLOAT8", "FLOAT32", "FLOAT64", "UUID", "DATE", "DATE32",
   "JSON", "JSONB", "TEXT", "TINYTEXT", "MEDIUMTEXT", "LONGTEXT", "TINYBLOB", "MEDIUMBLOB",
   "LONGBLOB", "BYTEA", "REGCLASS", "INT16", "INT32", "INT64", "INT128", "INT256", "UINT8",
   "UINT16", "UINT32", "UINT64", "UINT128", "UINT256"]

/-- Types with one number as their size. -/
def sizedTypes : List String :=
  ["FLOAT", "BINARY", "BLOB", "BYTES", "DATETIME", "STRING", "CLOB", "VARBIT"]

/-- Whole number types, which may be unsigned. -/
def integerTypes : List String :=
  ["TINYINT", "SMALLINT", "MEDIUMINT", "INT", "INTEGER", "BIGINT", "INT2", "INT4", "INT8"]

/-- Number types with digits behind the point. -/
def decimalTypes : List String := ["NUMERIC", "DECIMAL", "DEC", "BIGNUMERIC", "BIGDECIMAL"]

/-- The rest of a known type behind its keyword; none if the keyword is no known type. -/
def knownType? (word : String) : Option (Parser DataType) :=
  if plainTypes.contains word then some (return .known word none "")
  else if sizedTypes.contains word then some do return .known word (← size?) ""
  else if integerTypes.contains word then some do
    let size ← size?
    match ← oneOf? ["UNSIGNED", "SIGNED"] with
    | some "UNSIGNED" => return .known word size " UNSIGNED"
    | _ => return .known word size ""
  else if decimalTypes.contains word then some do return .known word (← numberSize?) ""
  else match word with
  | "DOUBLE" => some do
    if ← keyword? "PRECISION" then return .known "DOUBLE PRECISION" none ""
    return .known "DOUBLE" (← numberSize?) ""
  | "VARCHAR" | "NVARCHAR" | "VARBINARY" => some do return .known word (← textSize?) ""
  | "CHAR" | "CHARACTER" => some do
    if ← keyword? "VARYING" then return .known (word ++ " VARYING") (← textSize?) ""
    if ← keywords? ["LARGE", "OBJECT"] then return .known (word ++ " LARGE OBJECT") (← size?) ""
    return .known word (← textSize?) ""
  | "BIT" => some do
    if ← keyword? "VARYING" then return .known "BIT VARYING" (← size?) ""
    return .known "BIT" (← size?) ""
  | "TIMESTAMP" | "TIME" => some do
    let size ← size?
    return .known word size (← timeZone?)
  | "ENUM" => some do return .known "ENUM" (some (← enumValues)) ""
  | "SET" => some do
    let values ← parens (commaList (textLiteral))
    return .known "SET" (some (", ".intercalate (values.map (Text.widened '\x27')))) ""
  | "SIGNED" | "UNSIGNED" => some do
    if ← keyword? "INTEGER" then return .known (word ++ " INTEGER") none ""
    return .known word none ""
  | _ => none

/-- A data type. -/
def dataType : Parser DataType := do
  match ← peek with
  | some ⟨.word name, _⟩ =>
    match knownType? name.keyword with
    | some rest =>
      let _ ← next
      rest
    | none =>
      let name ← objectName
      return .custom name (← modifiers?)
  | _ => expected "a data type name"

/-- A column named by an alias. -/
def aliasColumn : Parser AliasColumn := do
  let name ← ident
  return ⟨name, ← attempt dataType⟩

/-- The columns that an alias names, in parentheses, if there are any. -/
def aliasColumns : Parser (List AliasColumn) := do
  if ← isSign .leftParen then parens (commaList aliasColumn) else return []

/-- Words that are no second name of a table unless `AS` stands before them. -/
def tableAliasReserved : List String :=
  ["WITH", "EXPLAIN", "ANALYZE", "SELECT", "WHERE", "GROUP", "SORT", "HAVING", "ORDER", "PIVOT",
   "UNPIVOT", "TOP", "LATERAL", "VIEW", "LIMIT", "OFFSET", "FETCH", "UNION", "EXCEPT", "INTERSECT",
   "MINUS", "ON", "JOIN", "INNER", "CROSS", "FULL", "LEFT", "RIGHT", "NATURAL", "USING", "CLUSTER",
   "DISTRIBUTE", "GLOBAL", "ANTI", "SEMI", "RETURNING", "OUTER", "ASOF", "MATCH_CONDITION", "SET",
   "QUALIFY", "WINDOW", "END", "FOR", "PARTITION", "PREWHERE", "SETTINGS", "FORMAT", "START",
   "CONNECT", "MATCH_RECOGNIZE", "SAMPLE", "TABLESAMPLE", "FROM", "OPEN", "USE", "IGNORE", "FORCE",
   "STRAIGHT_JOIN"]

/-- Words that are no name of a projected value unless `AS` stands before them. -/
def columnAliasReserved : List String :=
  ["WITH", "EXPLAIN", "ANALYZE", "SELECT", "WHERE", "GROUP", "SORT", "HAVING", "ORDER", "TOP",
   "LATERAL", "VIEW", "LIMIT", "OFFSET", "FETCH", "UNION", "EXCEPT", "EXCLUDE", "INTERSECT",
   "MINUS", "CLUSTER", "DISTRIBUTE", "RETURNING", "FROM", "INTO", "END"]

/-- A second name, if there is one: any word behind `AS`, else a word that is not reserved. -/
def secondName? (reserved : List String) : Parser (Option Ident) := do
  let explicit ← keyword? "AS"
  match ← peek with
  | some ⟨.word name, _⟩ =>
    if explicit || !reserved.contains name.keyword then
      let _ ← next
      return some name
    return none
  | some ⟨.literal (.text .single value), _⟩ =>
    let _ ← next
    return some ⟨value, some .single⟩
  | some ⟨.literal (.text .double value), _⟩ =>
    let _ ← next
    return some ⟨value, some .double⟩
  | _ => if explicit then expected "an identifier after AS" else return none

/-- The second name of a table or query, if there is one. -/
def tableAlias? : Parser (Option TableAlias) := do
  match ← secondName? tableAliasReserved with
  | some name => return some ⟨name, ← aliasColumns⟩
  | none => return none

end SqlFootprint.Sql.Parser
