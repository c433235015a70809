import SqlFootprint.Footprint.Sources
import SqlFootprint.Proofs.Filter.Resolution

/-! # Where columns are qualified in a text

A text of the language is cut into pieces: the qualifiers in front of columns, each with the second
names that the blocks around it give, and the text between them. The pieces of a tree are found by
the same walk that writes it, with pieces in place of texts. A name counts as a qualifier if it is a
plain word, stands alone in front of the column, and may begin where it stands: the parts of a value
behind a period, and what is written right behind a word, do not begin with one. -/

namespace SqlFootprint.Filter

open Sql

/-! ## Pieces -/

/-- A qualifier in front of a column. -/
structure Reference where
  /-- The name in front of the column. -/
  qualifier : Ident
  /-- The name is a plain word. -/
  plain : qualifier.isPlain = true
  /-- The second names given by the blocks around it, the innermost first. -/
  scopes : List Aliases
  deriving DecidableEq, Repr

/-- A piece of a text. -/
inductive Piece where
  /-- A text that is no qualifier. -/
  | text (s : String)
  /-- A qualifier with its period. -/
  | qualifier (reference : Reference)
  deriving DecidableEq, Repr

/-- A piece as it is written. -/
def Piece.written : Piece → String
  | .text s => s
  | .qualifier reference => reference.qualifier.written ++ "."

/-- Pieces as they are written. -/
def spell : List Piece → String
  | [] => ""
  | piece :: pieces => piece.written ++ spell pieces

/-- A text as its only piece. -/
def lit (s : String) : List Piece := [.text s]

/-- Pieces of items with a text between them. -/
def joinPieces (separator : String) : List (List Piece) → List Piece
  | [] => []
  | [pieces] => pieces
  | pieces :: more => pieces ++ lit separator ++ joinPieces separator more

/-- Pieces of items separated by a comma and a blank. -/
def commaPieces (items : List (List Piece)) : List Piece := joinPieces ", " items

/-- Pieces of a list in parentheses. -/
def parenPieces (items : List (List Piece)) : List Piece := lit "(" ++ commaPieces items ++ lit ")"

/-- Pieces of a clause with a list, if the list is not empty. -/
def clausePieces (words : String) (items : List (List Piece)) : List Piece :=
  if items.isEmpty then [] else lit words ++ commaPieces items

/-- Pieces where no qualifier may begin: a qualifier in front is no more than a text. -/
def closed : List Piece → List Piece
  | [] => []
  | .text s :: pieces => .text s :: (if s.isEmpty then closed pieces else pieces)
  | .qualifier reference :: pieces => .text (reference.qualifier.written ++ ".") :: pieces

/-- Whether a text ends with a character behind which a qualifier may begin. -/
def endsGap (s : String) : Bool := s.toList.getLast?.any isGap

/-- Pieces behind a label. A qualifier may begin there if there is no label or it ends with a gap.
-/
def behindLabel (label : String) (pieces : List Piece) : List Piece :=
  lit label ++ (if label.isEmpty || endsGap label then pieces else closed pieces)

/-- Pieces of a name with its qualifiers. -/
def dottedPieces (scopes : List Aliases) : List Ident → List Piece
  | [front, back] =>
    if h : front.isPlain then [.qualifier ⟨front, h, scopes⟩, .text back.written]
    else lit (ObjectName.written [front, back])
  | parts => lit (ObjectName.written parts)

/-- Pieces of all columns of a table. -/
def starPieces (scopes : List Aliases) : List Ident → List Piece
  | [front] =>
    if h : front.isPlain then [.qualifier ⟨front, h, scopes⟩, .text "*"]
    else lit (ObjectName.written [front] ++ ".*")
  | parts => lit (ObjectName.written parts ++ ".*")

/-- Pieces of one end of a frame; the pieces of the numbers left over come with it. -/
def frameEndPieces : FrameEnd → List (List Piece) → List Piece × List (List Piece)
  | .current, counts => (lit "CURRENT ROW", counts)
  | .first, counts => (lit "UNBOUNDED PRECEDING", counts)
  | .last, counts => (lit "UNBOUNDED FOLLOWING", counts)
  | .before, counts => (counts.headD [] ++ lit " PRECEDING", counts.tail)
  | .after, counts => (counts.headD [] ++ lit " FOLLOWING", counts.tail)

/-- Pieces of the frame of a window, given those of the numbers of its ends. -/
def framePieces (frame : Frame) (counts : List (List Piece)) : List Piece :=
  let first := frameEndPieces frame.start counts
  match frame.stop with
  | none => lit frame.unit ++ lit " " ++ first.1
  | some stop =>
    lit frame.unit ++ lit " BETWEEN " ++ first.1 ++ lit " AND " ++ (frameEndPieces stop first.2).1

/-- Pieces of the limit of a query, given those of its count and its start. -/
def limitPieces : LimitForm → (limit offset : Option (List Piece)) → List Piece
  | .comma, limit, offset => lit " LIMIT " ++ offset.getD [] ++ lit ", " ++ limit.getD []
  | .words behind, limit, offset =>
    (match limit with | none => [] | some count => lit " LIMIT " ++ count) ++
      (match offset with
        | none => []
        | some start => lit " OFFSET " ++ start ++ lit (spaced behind))

/-- The second names that hold for the order and the limit of a query: those of its block, if it has
only one, in front of those around it. -/
def bodyScopes (scopes : List Aliases) : QueryBody → List Aliases
  | .select block => leafAliases (sourceLeaves block.sources) :: scopes
  | _ => scopes

end SqlFootprint.Filter

namespace SqlFootprint

open SqlFootprint.Filter Sql

/-! ## Pieces of trees -/

mutual

/-- Pieces of an expression. -/
def Sql.Expr.pieces (scopes : List Aliases) : Expr → List Piece
  | .name id => lit id.written
  | .dotted parts => dottedPieces scopes parts
  | .wildcard => lit "*"
  | .tableWildcard parts => starPieces scopes parts
  | .literal value => lit value.written
  | .introduced charset value => lit charset.written ++ lit " " ++ value.pieces scopes
  | .binary left op right =>
    left.pieces scopes ++ lit " " ++ lit op.written ++ lit " " ++ right.pieces scopes
  | .unary op arg => lit op.written ++ arg.pieces scopes
  | .nested inner => lit "(" ++ inner.pieces scopes ++ lit ")"
  | .isTest arg negated truth =>
    arg.pieces scopes ++ lit " IS " ++ lit (notWord negated) ++ lit truth.written
  | .distinctFrom left negated right =>
    left.pieces scopes ++ lit " IS " ++ lit (notWord negated) ++ lit "DISTINCT FROM " ++
      right.pieces scopes
  | .inList arg negated items =>
    arg.pieces scopes ++ lit " " ++ lit (notWord negated) ++ lit "IN " ++
      parenPieces (exprsPieces scopes items)
  | .inQuery arg negated body =>
    arg.pieces scopes ++ lit " " ++ lit (notWord negated) ++ lit "IN (" ++ body.pieces scopes ++
      lit ")"
  | .between arg negated low high =>
    arg.pieces scopes ++ lit " " ++ lit (notWord negated) ++ lit "BETWEEN " ++ low.pieces scopes ++
      lit " AND " ++ high.pieces scopes
  | .like arg negated op any pattern escape =>
    arg.pieces scopes ++ lit " " ++ lit (notWord negated) ++ lit op.written ++ lit " " ++
      lit (if any then "ANY " else "") ++ pattern.pieces scopes ++
      lit (match escape with | none => "" | some c => " ESCAPE '" ++ c ++ "'")
  | .regexp arg negated rlike pattern =>
    arg.pieces scopes ++ lit " " ++ lit (notWord negated) ++
      lit (if rlike then "RLIKE " else "REGEXP ") ++ pattern.pieces scopes
  | .quantified left op quantifier right =>
    left.pieces scopes ++ lit " " ++ lit op.written ++ lit " " ++ lit quantifier.written ++
      (match right with
        | .subquery query => lit "(" ++ query.pieces scopes ++ lit ")"
        | other => lit "(" ++ other.pieces scopes ++ lit ")")
  | .memberOf value array =>
    value.pieces scopes ++ lit " MEMBER OF(" ++ array.pieces scopes ++ lit ")"
  | .atTimeZone time zone => time.pieces scopes ++ lit " AT TIME ZONE " ++ zone.pieces scopes
  | .choice operand arms otherwise =>
    lit "CASE" ++ (match operand with | none => [] | some e => lit " " ++ e.pieces scopes) ++
      armsPieces scopes arms ++
      (match otherwise with | none => [] | some e => lit " ELSE " ++ e.pieces scopes) ++ lit " END"
  | .cast word arg type =>
    lit word ++ lit "(" ++ arg.pieces scopes ++ lit " AS " ++ lit type.written ++ lit ")"
  | .doubleColon arg type => arg.pieces scopes ++ lit "::" ++ lit type.written
  | .convert arg type charset =>
    lit "CONVERT(" ++ arg.pieces scopes ++
      lit (match type, charset with
        | some t, none => ", " ++ t.written
        | some t, some c => ", " ++ t.written ++ " CHARACTER SET " ++ ObjectName.written c
        | none, some c => " USING " ++ ObjectName.written c
        | none, none => "") ++ lit ")"
  | .extract unit arg => lit "EXTRACT(" ++ lit unit ++ lit " FROM " ++ arg.pieces scopes ++ lit ")"
  | .rounded up arg scale =>
    lit (if up then "CEIL(" else "FLOOR(") ++ arg.pieces scopes ++ lit scale ++ lit ")"
  | .position needle haystack =>
    lit "POSITION(" ++ needle.pieces scopes ++ lit " IN " ++ haystack.pieces scopes ++ lit ")"
  | .substring short commas arg start length =>
    lit (if short then "SUBSTR(" else "SUBSTRING(") ++ arg.pieces scopes ++
      (match start with
        | none => []
        | some e => lit (if commas then ", " else " FROM ") ++ e.pieces scopes) ++
      (match length with
        | none => []
        | some e => lit (if commas then ", " else " FOR ") ++ e.pieces scopes) ++ lit ")"
  | .overlay arg new start length =>
    lit "OVERLAY(" ++ arg.pieces scopes ++ lit " PLACING " ++ new.pieces scopes ++ lit " FROM " ++
      start.pieces scopes ++
      (match length with | none => [] | some e => lit " FOR " ++ e.pieces scopes) ++ lit ")"
  | .trimmed side arg what =>
    lit "TRIM(" ++ lit (match side with | none => "" | some s => s.written) ++
      (match what with | none => [] | some e => e.pieces scopes ++ lit " FROM ") ++
      arg.pieces scopes ++ lit ")"
  | .collate arg collation =>
    arg.pieces scopes ++ lit " COLLATE " ++ lit (ObjectName.written collation)
  | .existsRow negated query =>
    lit (notWord negated) ++ lit "EXISTS (" ++ query.pieces scopes ++ lit ")"
  | .subquery query => lit "(" ++ query.pieces scopes ++ lit ")"
  | .tuple items => parenPieces (exprsPieces scopes items)
  | .call function => function.pieces scopes
  | .fullText columns text mode =>
    lit "MATCH " ++ parenPieces (columns.map (dottedPieces scopes)) ++ lit " AGAINST (" ++
      lit text.written ++ lit (spaced mode) ++ lit ")"
  | .interval value unit => lit "INTERVAL " ++ value.pieces scopes ++ lit " " ++ lit unit
  | .typed type value => lit (type.written ++ " " ++ value.written)
  | .access root parts => root.pieces scopes ++ partsPieces scopes parts
termination_by structural e => e

/-- Pieces of expressions. -/
def exprsPieces (scopes : List Aliases) : List Expr → List (List Piece)
  | [] => []
  | e :: es => e.pieces scopes :: exprsPieces scopes es
termination_by structural es => es

/-- Pieces of the parts of a value, each behind a period. -/
def partsPieces (scopes : List Aliases) : List Expr → List Piece
  | [] => []
  | e :: es => lit "." ++ closed (e.pieces scopes) ++ partsPieces scopes es
termination_by structural es => es

/-- Pieces of the cases of a choice. -/
def armsPieces (scopes : List Aliases) : List CaseArm → List Piece
  | [] => []
  | arm :: arms => arm.pieces scopes ++ armsPieces scopes arms
termination_by structural arms => arms

/-- Pieces of a case. -/
def Sql.CaseArm.pieces (scopes : List Aliases) : CaseArm → List Piece
  | ⟨condition, result⟩ =>
    lit " WHEN " ++ condition.pieces scopes ++ lit " THEN " ++ result.pieces scopes
termination_by structural arm => arm

/-- Pieces of an argument. -/
def Sql.Arg.pieces (scopes : List Aliases) : Arg → List Piece
  | .value label arg => behindLabel label (arg.pieces scopes)
  | .wildcard label [] => lit label ++ lit "*"
  | .wildcard label qualifier => behindLabel label (starPieces scopes qualifier)
termination_by structural arg => arg

/-- Pieces of arguments. -/
def argsPieces (scopes : List Aliases) : List Arg → List (List Piece)
  | [] => []
  | arg :: args => arg.pieces scopes :: argsPieces scopes args
termination_by structural args => args

/-- Pieces of a function call. -/
def Sql.Call.pieces (scopes : List Aliases) : Call → List Piece
  | ⟨name, parens, duplicates, args, order, limit, separator, within, nulls, window⟩ =>
    lit (ObjectName.written name) ++
      (if parens then
        lit "(" ++ lit (duplicatesWord duplicates) ++ commaPieces (argsPieces scopes args) ++
          clausePieces " ORDER BY " (keysPieces scopes order) ++
          (match limit with | none => [] | some e => lit " LIMIT " ++ e.pieces scopes) ++
          lit (match separator with | none => "" | some text => " SEPARATOR " ++ text.written) ++
          lit ")"
      else []) ++
      (if within.isEmpty then []
        else lit " WITHIN GROUP (ORDER BY " ++ commaPieces (keysPieces scopes within) ++ lit ")") ++
      lit (spaced nulls) ++ lit (overWord window) ++ window.pieces scopes
termination_by structural call => call

/-- Pieces of a window. -/
def Sql.Window.pieces (scopes : List Aliases) : Window → List Piece
  | .none => []
  | .named name => lit name.written
  | .inline base partition order frame counts =>
    lit "(" ++ joinPieces " "
      ((match base with | none => [] | some name => [lit name.written]) ++
        (if partition.isEmpty then []
          else [lit "PARTITION BY " ++ commaPieces (exprsPieces scopes partition)]) ++
        (if order.isEmpty then []
          else [lit "ORDER BY " ++ commaPieces (keysPieces scopes order)]) ++
        (match frame with
          | none => []
          | some f => [framePieces f (exprsPieces scopes counts)])) ++ lit ")"
termination_by structural window => window

/-- Pieces of a key of an order. -/
def Sql.OrderKey.pieces (scopes : List Aliases) : OrderKey → List Piece
  | ⟨key, descending, nullsFirst⟩ => key.pieces scopes ++ lit (orderWords descending nullsFirst)
termination_by structural key => key

/-- Pieces of the keys of an order. -/
def keysPieces (scopes : List Aliases) : List OrderKey → List (List Piece)
  | [] => []
  | key :: keys => key.pieces scopes :: keysPieces scopes keys
termination_by structural keys => keys

/-- Pieces of an item of a projection. -/
def Sql.SelectItem.pieces (scopes : List Aliases) : SelectItem → List Piece
  | .value expr none => expr.pieces scopes
  | .value expr (some name) => expr.pieces scopes ++ lit " AS " ++ lit name.written
  | .wildcard [] => lit "*"
  | .wildcard qualifier => starPieces scopes qualifier
termination_by structural item => item

/-- Pieces of a projection. -/
def itemsPieces (scopes : List Aliases) : List SelectItem → List (List Piece)
  | [] => []
  | item :: items => item.pieces scopes :: itemsPieces scopes items
termination_by structural items => items

/-- Pieces of a source. -/
def Sql.Source.pieces (scopes : List Aliases) : Source → List Piece
  | .table name partitions asName hints =>
    lit (ObjectName.written name ++
      (if partitions.isEmpty then "" else "PARTITION (" ++ commaNames partitions ++ ")") ++
      asAlias asName ++ indexHints hints)
  | .tableCall name args asName hints =>
    lit (ObjectName.written name) ++ parenPieces (argsPieces scopes args) ++ lit (asAlias asName) ++
      lit (indexHints hints)
  | .derived lateral query asName =>
    lit (if lateral then "LATERAL (" else "(") ++ query.pieces scopes ++ lit ")" ++
      lit (asAlias asName)
  | .nested tree asName => lit "(" ++ tree.pieces scopes ++ lit ")" ++ lit (asAlias asName)
  | .document value path columns asName =>
    lit "JSON_TABLE(" ++ value.pieces scopes ++ lit ", " ++ lit path.written ++ lit " COLUMNS" ++
      lit (parenList (columns.map DocumentColumn.written)) ++ lit ")" ++ lit (asAlias asName)
  | .routine name args asName =>
    lit "LATERAL " ++ lit (ObjectName.written name) ++ parenPieces (argsPieces scopes args) ++
      lit (asAlias asName)
  | .ofValue value asName =>
    lit "TABLE(" ++ value.pieces scopes ++ lit ")" ++ lit (asAlias asName)
termination_by structural source => source

/-- Pieces of what stands behind the target of a join. -/
def Sql.JoinConstraint.pieces (scopes : List Aliases) : JoinConstraint → List Piece
  | .on condition => lit " ON " ++ condition.pieces scopes
  | .using columns => lit " USING" ++ parenPieces (columns.map (dottedPieces scopes))
  | .natural => []
  | .none => []
termination_by structural constraint => constraint

/-- Pieces of one step of a join tree. -/
def Sql.Join.pieces (scopes : List Aliases) : Join → List Piece
  | ⟨kind, target, constraint⟩ =>
    lit " " ++ lit (match constraint with | .natural => "NATURAL " | _ => "") ++ lit kind.written ++
      lit " " ++ target.pieces scopes ++ constraint.pieces scopes
termination_by structural join => join

/-- Pieces of the joins of a tree. -/
def joinsPieces (scopes : List Aliases) : List Join → List Piece
  | [] => []
  | join :: joins => join.pieces scopes ++ joinsPieces scopes joins
termination_by structural joins => joins

/-- Pieces of a join tree. -/
def Sql.JoinTree.pieces (scopes : List Aliases) : JoinTree → List Piece
  | ⟨base, joins⟩ => base.pieces scopes ++ joinsPieces scopes joins
termination_by structural tree => tree

/-- Pieces of join trees. -/
def treesPieces (scopes : List Aliases) : List JoinTree → List (List Piece)
  | [] => []
  | tree :: trees => tree.pieces scopes :: treesPieces scopes trees
termination_by structural trees => trees

/-- Pieces of the definitions of windows, without their names. -/
def windowsPieces (scopes : List Aliases) : List Window → List (List Piece)
  | [] => []
  | window :: windows => window.pieces scopes :: windowsPieces scopes windows
termination_by structural windows => windows

/-- Pieces of a block. Its sources give second names to all of it. -/
def Sql.Select.pieces (scopes : List Aliases) : Select → List Piece
  | ⟨distinct, top, items, into, sources, selection, groupAll, groupKeys, groupWords, having,
      windowNames, windows⟩ =>
    let own := leafAliases (sourceLeaves sources) :: scopes
    lit "SELECT" ++ lit (if distinct then " DISTINCT" else "") ++
      lit (match top with | none => "" | some text => " " ++ text) ++ lit " " ++
      commaPieces (itemsPieces own items) ++
      lit (match into with | none => "" | some text => " INTO " ++ text) ++
      clausePieces " FROM " (treesPieces own sources) ++
      (match selection with | none => [] | some e => lit " WHERE " ++ e.pieces own) ++
      (if groupAll then lit " GROUP BY ALL"
        else clausePieces " GROUP BY " (exprsPieces own groupKeys)) ++
      lit (String.join (groupWords.map spaced)) ++
      (match having with | none => [] | some e => lit " HAVING " ++ e.pieces own) ++
      clausePieces " WINDOW "
        (List.zipWith (fun name window => lit name.written ++ lit " AS " ++ window)
          windowNames (windowsPieces own windows))
termination_by structural block => block

/-- Pieces of the body of a query. -/
def Sql.QueryBody.pieces (scopes : List Aliases) : QueryBody → List Piece
  | .select block => block.pieces scopes
  | .values rowWord rows =>
    lit "VALUES " ++ commaPieces ((exprsPieces scopes rows).map fun row =>
      if rowWord then lit "ROW" ++ closed row else row)
  | .nested query => lit "(" ++ query.pieces scopes ++ lit ")"
  | .combined left op quantifier right =>
    left.pieces scopes ++ lit " " ++ lit op.written ++ lit (spaced quantifier) ++ lit " " ++
      right.pieces scopes
termination_by structural body => body

/-- Pieces of a query with a name. -/
def Sql.CommonTable.pieces (scopes : List Aliases) : CommonTable → List Piece
  | ⟨asName, query, origin⟩ =>
    lit asName.written ++ lit " AS (" ++ query.pieces scopes ++ lit ")" ++
      lit (match origin with | none => "" | some name => " FROM " ++ name.written)
termination_by structural table => table

/-- Pieces of queries with names. -/
def tablesPieces (scopes : List Aliases) : List CommonTable → List (List Piece)
  | [] => []
  | table :: tables => table.pieces scopes :: tablesPieces scopes tables
termination_by structural tables => tables

/-- Pieces of a query. -/
def Sql.Query.pieces (scopes : List Aliases) : Query → List Piece
  | ⟨recursive, tables, body, order, limit, offset, limitForm, locks⟩ =>
    let inner := bodyScopes scopes body
    (if tables.isEmpty then []
      else lit (if recursive then "WITH RECURSIVE " else "WITH ") ++
        commaPieces (tablesPieces scopes tables) ++ lit " ") ++
      body.pieces scopes ++ clausePieces " ORDER BY " (keysPieces inner order) ++
      limitPieces limitForm (match limit with | none => none | some e => some (e.pieces inner))
        (match offset with | none => none | some e => some (e.pieces inner)) ++
      lit (String.join (locks.map spaced))
termination_by structural query => query

end

/-! ## Pieces of compact text -/

mutual

/-- Pieces of the compact text of an expression. -/
def Sql.Expr.compactPieces (scopes : List Aliases) : Expr → List Piece
  | .literal value => lit value.compact
  -- the value stands right behind the word in front of it
  | .introduced charset value => lit charset.written ++ closed (value.compactPieces scopes)
  | .binary left op right =>
    left.compactPieces scopes ++ lit op.compact ++ right.compactPieces scopes
  | .unary op arg => lit op.written ++ arg.compactPieces scopes
  | .nested inner => lit "(" ++ inner.compactPieces scopes ++ lit ")"
  | .isTest arg negated truth =>
    match negated, truth with
    | _, .null => arg.compactPieces scopes ++ lit " IS " ++ lit (notWord negated) ++ lit "NULL"
    | false, .true => arg.compactPieces scopes ++ lit " IS TRUE"
    | false, .false => arg.compactPieces scopes ++ lit " IS FALSE"
    | _, _ => (Expr.isTest arg negated truth).pieces scopes
  | .inList arg negated items =>
    arg.compactPieces scopes ++ lit " " ++ lit (notWord negated) ++ lit "IN (" ++
      joinPieces "," (compactItemsPieces scopes items) ++ lit ")"
  | .inQuery arg negated body =>
    arg.compactPieces scopes ++ lit " " ++ lit (notWord negated) ++ lit "IN (" ++
      body.pieces scopes ++ lit ")"
  | .between arg negated low high =>
    arg.compactPieces scopes ++ lit " " ++ lit (notWord negated) ++ lit "BETWEEN " ++
      low.compactPieces scopes ++ lit " AND " ++ high.compactPieces scopes
  | .like arg negated op any pattern escape =>
    match op, escape with
    | .like, none =>
      arg.compactPieces scopes ++ lit " " ++ lit (notWord negated) ++ lit "LIKE " ++
        pattern.compactPieces scopes
    | _, _ => (Expr.like arg negated op any pattern escape).pieces scopes
  | other => other.pieces scopes
termination_by structural e => e

/-- Pieces of the compact texts of expressions. -/
def compactItemsPieces (scopes : List Aliases) : List Expr → List (List Piece)
  | [] => []
  | e :: es => e.compactPieces scopes :: compactItemsPieces scopes es
termination_by structural es => es

end

end SqlFootprint
