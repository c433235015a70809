import SqlFootprint.Sql.Name

/-! # Data types

A type the language knows is held as its parts in canonical spelling; any other name stands for a
type of its own. -/

namespace SqlFootprint.Sql

/-- A data type as a cast or a column definition names it. -/
inductive DataType where
  /-- A known type: its name, the text of its size in parentheses, and what follows the size. -/
  | known (name : String) (size : Option String) (suffix : String)
  /-- A type of another name, with its modifiers. -/
  | custom (name : ObjectName) (modifiers : List String)
  deriving DecidableEq, Repr

/-- A data type in canonical form. -/
def DataType.written : DataType → String
  | .known name none suffix => name ++ suffix
  | .known name (some size) suffix => name ++ "(" ++ size ++ ")" ++ suffix
  | .custom name [] => ObjectName.written name
  | .custom name modifiers => ObjectName.written name ++ "(" ++ ", ".intercalate modifiers ++ ")"

end SqlFootprint.Sql
