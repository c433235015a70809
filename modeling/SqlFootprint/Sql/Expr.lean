import SqlFootprint.Sql.DataType
import SqlFootprint.Sql.Literal
import SqlFootprint.Sql.Operator

/-! # Expressions and queries

The trees of the language that hold expressions. An expression may contain a query and a query
contains expressions, so all of them form one family of types. Parts that hold no expression
(names, types, literals) are kept apart from it. -/

namespace SqlFootprint.Sql

/-- A column named by an alias, with the type it may be given there. -/
structure AliasColumn where
  /-- The name of the column. -/
  name : Ident
  /-- Its type, where one is given. -/
  type : Option DataType
  deriving DecidableEq, Repr

/-- The second name of a table or query, and names for its columns. -/
structure TableAlias where
  /-- The second name. -/
  name : Ident
  /-- The names of the columns; empty if they keep theirs. -/
  columns : List AliasColumn
  deriving DecidableEq, Repr

/-- The side of a text that trimming works on. -/
inductive TrimSide where
  | both | leading | trailing
  deriving DecidableEq, Repr

/-- A column of a table read out of a document. -/
inductive DocumentColumn where
  /-- A running number. -/
  | ordinality (name : Ident)
  /-- A value at a path, or whether there is one, and what to do on absence and on error. -/
  | value (name : Ident) (type : DataType) (test : Bool) (path : Literal)
      (onEmpty onError : Option String)
  /-- Columns below a path, in canonical form. -/
  | below (path : Literal) (columns : String)
  deriving DecidableEq, Repr

/-- A hint on the indexes to use for a table: its words and the indexes. -/
structure IndexHint where
  /-- What to do with the indexes, and where. -/
  action : String
  /-- The indexes. -/
  indexes : List Ident
  deriving DecidableEq, Repr

/-- Whether equal values count once. -/
inductive Duplicates where
  | all | distinct
  deriving DecidableEq, Repr

/-- One end of the rows around the current row of a window. -/
inductive FrameEnd where
  /-- The current row. -/
  | current
  /-- The first row. -/
  | first
  /-- The last row. -/
  | last
  /-- A number of rows before the current one. -/
  | before
  /-- A number of rows after the current one. -/
  | after
  deriving DecidableEq, Repr

/-- The rows around the current row of a window: what is counted, and the ends. -/
structure Frame where
  /-- The word for what is counted. -/
  unit : String
  /-- The first end. -/
  start : FrameEnd
  /-- The last end; the current row if not given. -/
  stop : Option FrameEnd
  deriving DecidableEq, Repr

/-- How the limit of a query is written. -/
inductive LimitForm where
  /-- With a word before the start, and perhaps one behind it. -/
  | words (behind : String)
  /-- With the start first and a comma behind it. -/
  | comma
  deriving DecidableEq, Repr

mutual

/-- An expression. -/
inductive Expr where
  /-- A name standing alone. -/
  | name (id : Ident)
  /-- A name with its qualifiers, the column last. -/
  | dotted (parts : List Ident)
  /-- All columns. -/
  | wildcard
  /-- All columns of one table. -/
  | tableWildcard (parts : List Ident)
  /-- A literal value. -/
  | literal (value : Literal)
  /-- A value with the character set it is written in. -/
  | introduced (charset : Ident) (value : Expr)
  /-- Two operands with an operator between them. -/
  | binary (left : Expr) (op : BinaryOp) (right : Expr)
  /-- An operator and its operand. -/
  | unary (op : UnaryOp) (arg : Expr)
  /-- An expression in parentheses. -/
  | nested (inner : Expr)
  /-- A test for a truth value or for absence. -/
  | isTest (arg : Expr) (negated : Bool) (truth : Truth)
  /-- A comparison that treats absence as a value. -/
  | distinctFrom (left : Expr) (negated : Bool) (right : Expr)
  /-- Membership in a list. -/
  | inList (arg : Expr) (negated : Bool) (items : List Expr)
  /-- Membership in the rows of a query. -/
  | inQuery (arg : Expr) (negated : Bool) (body : QueryBody)
  /-- A test for an interval, ends included. -/
  | between (arg : Expr) (negated : Bool) (low high : Expr)
  /-- A test for a pattern, with the escape character it may have. -/
  | like (arg : Expr) (negated : Bool) (op : LikeOp) (any : Bool) (pattern : Expr)
      (escape : Option String)
  /-- A test for a regular expression, under one of the two words for it. -/
  | regexp (arg : Expr) (negated : Bool) (rlike : Bool) (pattern : Expr)
  /-- A comparison with any or all values of a set. -/
  | quantified (left : Expr) (op : BinaryOp) (quantifier : Quantifier) (right : Expr)
  /-- Membership in a document array. -/
  | memberOf (value array : Expr)
  /-- A time in another time zone. -/
  | atTimeZone (time zone : Expr)
  /-- A choice between values. -/
  | choice (operand : Option Expr) (arms : List CaseArm) (otherwise : Option Expr)
  /-- A conversion to a type, by one of the words for it. -/
  | cast (word : String) (arg : Expr) (type : DataType)
  /-- A conversion to a type, written behind the value. -/
  | doubleColon (arg : Expr) (type : DataType)
  /-- A conversion to a type or to a character set. -/
  | convert (arg : Expr) (type : Option DataType) (charset : Option ObjectName)
  /-- A part of a time. -/
  | extract (unit : String) (arg : Expr)
  /-- Rounding to a whole number, up or down, or to the text of a scale. -/
  | rounded (up : Bool) (arg : Expr) (scale : String)
  /-- The place of one text in another. -/
  | position (needle haystack : Expr)
  /-- A part of a text: short or long word, commas or words between the arguments. -/
  | substring (short commas : Bool) (arg : Expr) (start length : Option Expr)
  /-- A text with a part of it replaced by another. -/
  | overlay (arg new start : Expr) (length : Option Expr)
  /-- A text without some characters at its ends. -/
  | trimmed (side : Option TrimSide) (arg : Expr) (what : Option Expr)
  /-- An expression with a collation. -/
  | collate (arg : Expr) (collation : ObjectName)
  /-- A test for rows. -/
  | existsRow (negated : Bool) (query : Query)
  /-- A query as a value. -/
  | subquery (query : Query)
  /-- Several values as one row. -/
  | tuple (items : List Expr)
  /-- A function call. -/
  | call (function : Call)
  /-- A full text search: columns, text, and the words of its mode. -/
  | fullText (columns : List ObjectName) (text : Literal) (mode : String)
  /-- A span of time, with its unit. -/
  | interval (value : Expr) (unit : String)
  /-- A literal of a type. -/
  | typed (type : DataType) (value : Literal)
  /-- Parts of a value that is not a plain name. -/
  | access (root : Expr) (parts : List Expr)

/-- One case of a choice. -/
structure CaseArm where
  /-- When the case is taken. -/
  condition : Expr
  /-- The value then. -/
  result : Expr

/-- One argument of a function, with the label it may have. -/
inductive Arg where
  /-- A value. -/
  | value (label : String) (arg : Expr)
  /-- All columns, or all columns of one table. -/
  | wildcard (label : String) (qualifier : List Ident)

/-- A function with its arguments and the rows it works on. -/
structure Call where
  /-- The name of the function. -/
  name : ObjectName
  /-- Whether there are parentheses at all. -/
  parens : Bool
  /-- Whether equal arguments count once, if said. -/
  duplicates : Option Duplicates
  /-- The arguments. -/
  args : List Arg
  /-- The order of the rows among the arguments. -/
  order : List OrderKey
  /-- The limit on the rows among the arguments. -/
  limit : Option Expr
  /-- The text between the rows. -/
  separator : Option Literal
  /-- The order of the rows within a group. -/
  within : List OrderKey
  /-- What to do with absent values, in words. -/
  nulls : String
  /-- The window it works on. -/
  window : Window

/-- The window of a function. -/
inductive Window where
  /-- No window. -/
  | none
  /-- A window defined elsewhere. -/
  | named (name : Ident)
  /-- A window defined in place: the window it is based on, what the rows are grouped by, their
  order, the rows around the current one, and the numbers that the ends of these need. -/
  | inline (base : Option Ident) (partition : List Expr) (order : List OrderKey)
      (frame : Option Frame) (counts : List Expr)

/-- One key of an order. -/
structure OrderKey where
  /-- What is compared. -/
  key : Expr
  /-- Whether larger values come first, if said. -/
  descending : Option Bool
  /-- Whether absent values come first, if said. -/
  nullsFirst : Option Bool

/-- One item of a projection. -/
inductive SelectItem where
  /-- A value, with the name it may be given. -/
  | value (expr : Expr) (asName : Option Ident)
  /-- All columns, or all columns of one table. -/
  | wildcard (qualifier : List Ident)

/-- One source of rows. -/
inductive Source where
  /-- A named table, with its partitions, second name and index hints. -/
  | table (name : ObjectName) (partitions : List Ident) (asName : Option TableAlias)
      (hints : List IndexHint)
  /-- A named table that is given arguments. -/
  | tableCall (name : ObjectName) (args : List Arg) (asName : Option TableAlias)
      (hints : List IndexHint)
  /-- A query, perhaps one that sees the sources before it. -/
  | derived (lateral : Bool) (query : Query) (asName : Option TableAlias)
  /-- A join tree in parentheses. -/
  | nested (tree : JoinTree) (asName : Option TableAlias)
  /-- A table read out of a document. -/
  | document (value : Expr) (path : Literal) (columns : List DocumentColumn)
      (asName : Option TableAlias)
  /-- A function that sees the sources before it. -/
  | routine (name : ObjectName) (args : List Arg) (asName : Option TableAlias)
  /-- A value used as a table. -/
  | ofValue (value : Expr) (asName : Option TableAlias)

/-- What ties the rows of a join together. -/
inductive JoinConstraint where
  /-- A condition. -/
  | on (condition : Expr)
  /-- Columns of both sides. -/
  | using (columns : List ObjectName)
  /-- All columns of the same name. -/
  | natural
  /-- Nothing. -/
  | none

/-- One step of a join tree. -/
structure Join where
  /-- The kind of join. -/
  kind : JoinKind
  /-- The source joined. -/
  target : Source
  /-- What ties its rows to the rows before. -/
  constraint : JoinConstraint

/-- A source and the sources joined to it, from left to right. -/
structure JoinTree where
  /-- The first source. -/
  base : Source
  /-- The joins. -/
  joins : List Join

/-- One SELECT block. -/
structure Select where
  /-- Whether equal rows count once. -/
  distinct : Bool
  /-- The text of a row count before the projection. -/
  top : Option String
  /-- The projection. -/
  items : List SelectItem
  /-- The table the rows go into, with its words. -/
  into : Option String
  /-- The sources. -/
  sources : List JoinTree
  /-- The condition on the rows. -/
  selection : Option Expr
  /-- Whether all plain columns of the projection are keys of the groups. -/
  groupAll : Bool
  /-- The keys of the groups. -/
  groupKeys : List Expr
  /-- The words that modify the grouping. -/
  groupWords : List String
  /-- The condition on the groups. -/
  having : Option Expr
  /-- The names of the windows defined for the block. -/
  windowNames : List Ident
  /-- The windows, in the order of their names. -/
  windows : List Window

/-- The body of a query. -/
inductive QueryBody where
  /-- One block. -/
  | select (block : Select)
  /-- Rows given in place, each a tuple. -/
  | values (rowWord : Bool) (rows : List Expr)
  /-- A query in parentheses. -/
  | nested (query : Query)
  /-- Two bodies combined. -/
  | combined (left : QueryBody) (op : SetOp) (quantifier : String) (right : QueryBody)

/-- A query with a name, to be used by another query. -/
structure CommonTable where
  /-- Its name and the names of its columns. -/
  asName : TableAlias
  /-- The query. -/
  query : Query
  /-- The source it is said to come from. -/
  origin : Option Ident

/-- A query. -/
structure Query where
  /-- Whether the named queries may use themselves. -/
  recursive : Bool
  /-- The named queries. -/
  tables : List CommonTable
  /-- The body. -/
  body : QueryBody
  /-- The order of the rows. -/
  order : List OrderKey
  /-- How many rows it gives. -/
  limit : Option Expr
  /-- How many rows it passes over first. -/
  offset : Option Expr
  /-- How the limit is written. -/
  limitForm : LimitForm
  /-- The words of the locks on the rows. -/
  locks : List String

end

end SqlFootprint.Sql
