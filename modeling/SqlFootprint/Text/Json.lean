/-! # JSON values and their indented text

A value is written over several lines: every item of a list and every field of an object on a line
of its own, two blanks deeper than what holds it. An empty list or object stays on one line. -/

namespace SqlFootprint.Text

/-- A JSON value without numbers. The fields of an object keep their order. -/
inductive Json where
  /-- The missing value. -/
  | null
  /-- A text. -/
  | text (value : String)
  /-- A list. -/
  | list (items : List Json)
  /-- An object. -/
  | object (fields : List (String × Json))

namespace Json

/-- A hexadecimal digit in lower case. -/
def hexDigit (n : Nat) : Char := Nat.digitChar n

/-- One character of a text: the quote mark, the backslash and the controls below U+0020 are
escaped, by a letter where there is one. -/
def escapeChar (c : Char) : List Char :=
  if c = '\x22' then ['\\', '\x22']
  else if c = '\\' then ['\\', '\\']
  else if c = '\x08' then ['\\', 'b']
  else if c = '\t' then ['\\', 't']
  else if c = '\n' then ['\\', 'n']
  else if c = '\x0c' then ['\\', 'f']
  else if c = '\r' then ['\\', 'r']
  else if c.toNat < 0x20 then
    ['\\', 'u', '0', '0', hexDigit (c.toNat / 16), hexDigit (c.toNat % 16)]
  else [c]

/-- A text between quote marks. -/
def quote (s : String) : String :=
  "\"" ++ String.ofList (s.toList.flatMap escapeChar) ++ "\""

/-- A line break and the blanks of a depth. -/
def newLine (depth : Nat) : String := String.ofList ('\n' :: List.replicate (2 * depth) ' ')

/-- Written items, each on a line of a depth of its own, with commas behind all but the last. -/
def lines (depth : Nat) : List String → String
  | [] => ""
  | [item] => newLine depth ++ item
  | item :: items => newLine depth ++ item ++ "," ++ lines depth items

mutual

/-- A value as indented text, where the line it begins on has a depth. -/
def pretty (depth : Nat) : Json → String
  | .null => "null"
  | .text value => quote value
  | .list items =>
    if items.isEmpty then "[]"
    else "[" ++ lines (depth + 1) (prettyItems (depth + 1) items) ++ newLine depth ++ "]"
  | .object fields =>
    if fields.isEmpty then "\x7b\x7d"
    else "\x7b" ++ lines (depth + 1) (prettyFields (depth + 1) fields) ++ newLine depth ++ "\x7d"
termination_by structural value => value

/-- The items of a list as indented text. -/
def prettyItems (depth : Nat) : List Json → List String
  | [] => []
  | item :: items => item.pretty depth :: prettyItems depth items
termination_by structural items => items

/-- A field of an object as indented text. -/
def prettyField (depth : Nat) : String × Json → String
  | (key, value) => quote key ++ ": " ++ value.pretty depth
termination_by structural field => field

/-- The fields of an object as indented text. -/
def prettyFields (depth : Nat) : List (String × Json) → List String
  | [] => []
  | field :: fields => prettyField depth field :: prettyFields depth fields
termination_by structural fields => fields

end

/-- A list of texts. -/
def texts (items : List String) : Json := .list (items.map .text)

@[simp] theorem pretty_null (depth : Nat) : pretty depth .null = "null" := rfl

@[simp] theorem pretty_text (depth : Nat) (s : String) : pretty depth (.text s) = quote s := rfl

end Json

end SqlFootprint.Text
