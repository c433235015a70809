import SqlFootprint.Sql.Expr

/-! # Canonical text

Every tree has one canonical text on one line: keywords in upper case, one blank around operators,
a comma and a blank between the items of a list, and `AS` before every second name. -/

namespace SqlFootprint.Sql

/-- Items separated by a comma and a blank. -/
def commaSep (items : List String) : String := ", ".intercalate items

/-- A list in parentheses. -/
def parenList (items : List String) : String := "(" ++ commaSep items ++ ")"

/-- A column named by an alias, in canonical form. -/
def AliasColumn.written (column : AliasColumn) : String :=
  match column.type with
  | none => column.name.written
  | some type => column.name.written ++ " " ++ type.written

/-- A second name with the names of its columns. -/
def TableAlias.written (asName : TableAlias) : String :=
  match asName.columns with
  | [] => asName.name.written
  | columns => asName.name.written ++ " " ++ parenList (columns.map AliasColumn.written)

/-- A second name behind what it names. -/
def asAlias : Option TableAlias → String
  | none => ""
  | some asName => " AS " ++ asName.written

/-- A word and the blank behind it. -/
def TrimSide.written : TrimSide → String
  | .both => "BOTH "
  | .leading => "LEADING "
  | .trailing => "TRAILING "

/-- A word behind a blank, if there is one. -/
def spaced (word : String) : String := if word.isEmpty then "" else " " ++ word

/-- A column of a table read out of a document, in canonical form. -/
def DocumentColumn.written : DocumentColumn → String
  | .ordinality name => name.written ++ " FOR ORDINALITY"
  | .value name type test path onEmpty onError =>
    name.written ++ " " ++ type.written ++ (if test then " EXISTS" else "") ++
      " PATH " ++ path.written ++
      (match onEmpty with | none => "" | some word => " " ++ word ++ " ON EMPTY") ++
      (match onError with | none => "" | some word => " " ++ word ++ " ON ERROR")
  | .below path columns => "NESTED PATH " ++ path.written ++ " COLUMNS (" ++ columns ++ ")"

/-- An index hint in canonical form. -/
def IndexHint.written (hint : IndexHint) : String :=
  hint.action ++ " (" ++ commaNames hint.indexes ++ ")"

/-- Index hints behind the table they are for. -/
def indexHints (hints : List IndexHint) : String :=
  String.join (hints.map fun hint => " " ++ hint.written)

/-- One end of a frame, with the number it may need; the numbers left over come with it. -/
def FrameEnd.written : FrameEnd → List String → String × List String
  | .current, counts => ("CURRENT ROW", counts)
  | .first, counts => ("UNBOUNDED PRECEDING", counts)
  | .last, counts => ("UNBOUNDED FOLLOWING", counts)
  | .before, counts => (counts.headD "" ++ " PRECEDING", counts.tail)
  | .after, counts => (counts.headD "" ++ " FOLLOWING", counts.tail)

/-- The frame of a window, given the texts of the numbers of its ends. -/
def Frame.written (frame : Frame) (counts : List String) : String :=
  let first := frame.start.written counts
  match frame.stop with
  | none => frame.unit ++ " " ++ first.1
  | some stop =>
    frame.unit ++ " BETWEEN " ++ first.1 ++ " AND " ++ (stop.written first.2).1

/-- The word for what happens to equal arguments. -/
def duplicatesWord : Option Duplicates → String
  | none => ""
  | some .all => "ALL "
  | some .distinct => "DISTINCT "

/-- The words behind a key of an order. -/
def orderWords (descending nullsFirst : Option Bool) : String :=
  (match descending with | none => "" | some true => " DESC" | some false => " ASC") ++
    (match nullsFirst with
      | none => "" | some true => " NULLS FIRST" | some false => " NULLS LAST")

/-- The limit of a query, given the texts of its count and its start. -/
def LimitForm.written : LimitForm → (limit offset : Option String) → String
  | .comma, limit, offset => " LIMIT " ++ offset.getD "" ++ ", " ++ limit.getD ""
  | .words behind, limit, offset =>
    (match limit with | none => "" | some count => " LIMIT " ++ count) ++
      (match offset with | none => "" | some start => " OFFSET " ++ start ++ spaced behind)

/-- A clause with a list, if the list is not empty. -/
def clauseList (words : String) (items : List String) : String :=
  if items.isEmpty then "" else words ++ commaSep items

/-- The word before the window of a function, if it has one. -/
def overWord : Window → String
  | .none => ""
  | _ => " OVER "

mutual

/-- An expression in canonical form. -/
def Expr.written : Expr → String
  | .name id => id.written
  | .dotted parts => ObjectName.written parts
  | .wildcard => "*"
  | .tableWildcard parts => ObjectName.written parts ++ ".*"
  | .literal value => value.written
  | .introduced charset value => charset.written ++ " " ++ value.written
  | .binary left op right => left.written ++ " " ++ op.written ++ " " ++ right.written
  | .unary op arg => op.written ++ arg.written
  | .nested inner => "(" ++ inner.written ++ ")"
  | .isTest arg negated truth => arg.written ++ " IS " ++ notWord negated ++ truth.written
  | .distinctFrom left negated right =>
    left.written ++ " IS " ++ notWord negated ++ "DISTINCT FROM " ++ right.written
  | .inList arg negated items =>
    arg.written ++ " " ++ notWord negated ++ "IN " ++ parenList (writtenExprs items)
  | .inQuery arg negated body =>
    arg.written ++ " " ++ notWord negated ++ "IN (" ++ body.written ++ ")"
  | .between arg negated low high =>
    arg.written ++ " " ++ notWord negated ++ "BETWEEN " ++ low.written ++ " AND " ++ high.written
  | .like arg negated op any pattern escape =>
    arg.written ++ " " ++ notWord negated ++ op.written ++ " " ++ (if any then "ANY " else "") ++
      pattern.written ++ (match escape with | none => "" | some c => " ESCAPE '" ++ c ++ "'")
  | .regexp arg negated rlike pattern =>
    arg.written ++ " " ++ notWord negated ++ (if rlike then "RLIKE " else "REGEXP ") ++
      pattern.written
  | .quantified left op quantifier right =>
    left.written ++ " " ++ op.written ++ " " ++ quantifier.written ++
      (match right with
        | .subquery query => "(" ++ query.written ++ ")"
        | other => "(" ++ other.written ++ ")")
  | .memberOf value array => value.written ++ " MEMBER OF(" ++ array.written ++ ")"
  | .atTimeZone time zone => time.written ++ " AT TIME ZONE " ++ zone.written
  | .choice operand arms otherwise =>
    "CASE" ++ (match operand with | none => "" | some e => " " ++ e.written) ++
      writtenArms arms ++ (match otherwise with | none => "" | some e => " ELSE " ++ e.written) ++
      " END"
  | .cast word arg type => word ++ "(" ++ arg.written ++ " AS " ++ type.written ++ ")"
  | .doubleColon arg type => arg.written ++ "::" ++ type.written
  | .convert arg type charset =>
    "CONVERT(" ++ arg.written ++
      (match type, charset with
        | some t, none => ", " ++ t.written
        | some t, some c => ", " ++ t.written ++ " CHARACTER SET " ++ ObjectName.written c
        | none, some c => " USING " ++ ObjectName.written c
        | none, none => "") ++ ")"
  | .extract unit arg => "EXTRACT(" ++ unit ++ " FROM " ++ arg.written ++ ")"
  | .rounded up arg scale => (if up then "CEIL(" else "FLOOR(") ++ arg.written ++ scale ++ ")"
  | .position needle haystack =>
    "POSITION(" ++ needle.written ++ " IN " ++ haystack.written ++ ")"
  | .substring short commas arg start length =>
    (if short then "SUBSTR(" else "SUBSTRING(") ++ arg.written ++
      (match start with
        | none => ""
        | some e => (if commas then ", " else " FROM ") ++ e.written) ++
      (match length with
        | none => ""
        | some e => (if commas then ", " else " FOR ") ++ e.written) ++ ")"
  | .overlay arg new start length =>
    "OVERLAY(" ++ arg.written ++ " PLACING " ++ new.written ++ " FROM " ++ start.written ++
      (match length with | none => "" | some e => " FOR " ++ e.written) ++ ")"
  | .trimmed side arg what =>
    "TRIM(" ++ (match side with | none => "" | some s => s.written) ++
      (match what with | none => "" | some e => e.written ++ " FROM ") ++ arg.written ++ ")"
  | .collate arg collation => arg.written ++ " COLLATE " ++ ObjectName.written collation
  | .existsRow negated query => notWord negated ++ "EXISTS (" ++ query.written ++ ")"
  | .subquery query => "(" ++ query.written ++ ")"
  | .tuple items => parenList (writtenExprs items)
  | .call function => function.written
  | .fullText columns text mode =>
    "MATCH " ++ parenList (columns.map ObjectName.written) ++ " AGAINST (" ++ text.written ++
      spaced mode ++ ")"
  | .interval value unit => "INTERVAL " ++ value.written ++ " " ++ unit
  | .typed type value => type.written ++ " " ++ value.written
  | .access root parts => root.written ++ writtenParts parts
termination_by structural e => e

/-- Expressions in canonical form. -/
def writtenExprs : List Expr → List String
  | [] => []
  | e :: es => e.written :: writtenExprs es
termination_by structural es => es

/-- The parts of a value, each behind a dot. -/
def writtenParts : List Expr → String
  | [] => ""
  | e :: es => "." ++ e.written ++ writtenParts es
termination_by structural es => es

/-- The cases of a choice. -/
def writtenArms : List CaseArm → String
  | [] => ""
  | arm :: arms => arm.written ++ writtenArms arms
termination_by structural arms => arms

/-- One case of a choice. -/
def CaseArm.written : CaseArm → String
  | ⟨condition, result⟩ => " WHEN " ++ condition.written ++ " THEN " ++ result.written
termination_by structural arm => arm

/-- One argument of a function. -/
def Arg.written : Arg → String
  | .value label arg => label ++ arg.written
  | .wildcard label [] => label ++ "*"
  | .wildcard label qualifier => label ++ ObjectName.written qualifier ++ ".*"
termination_by structural arg => arg

/-- The arguments of a function. -/
def writtenArgs : List Arg → List String
  | [] => []
  | arg :: args => arg.written :: writtenArgs args
termination_by structural args => args

/-- A function call. -/
def Call.written : Call → String
  | ⟨name, parens, duplicates, args, order, limit, separator, within, nulls, window⟩ =>
    ObjectName.written name ++
      (if parens then
        "(" ++ duplicatesWord duplicates ++ commaSep (writtenArgs args) ++
          clauseList " ORDER BY " (writtenKeys order) ++
          (match limit with | none => "" | some e => " LIMIT " ++ e.written) ++
          (match separator with | none => "" | some text => " SEPARATOR " ++ text.written) ++ ")"
      else "") ++
      (if within.isEmpty then ""
        else " WITHIN GROUP (ORDER BY " ++ commaSep (writtenKeys within) ++ ")") ++
      spaced nulls ++ overWord window ++ window.written
termination_by structural call => call

/-- A window: its name, or its definition in parentheses. -/
def Window.written : Window → String
  | .none => ""
  | .named name => name.written
  | .inline base partition order frame counts =>
    "(" ++ " ".intercalate
      ((match base with | none => [] | some name => [name.written]) ++
        (if partition.isEmpty then []
          else ["PARTITION BY " ++ commaSep (writtenExprs partition)]) ++
        (if order.isEmpty then [] else ["ORDER BY " ++ commaSep (writtenKeys order)]) ++
        (match frame with
          | none => []
          | some f => [f.written (writtenExprs counts)])) ++ ")"
termination_by structural window => window

/-- One key of an order. -/
def OrderKey.written : OrderKey → String
  | ⟨key, descending, nullsFirst⟩ => key.written ++ orderWords descending nullsFirst
termination_by structural key => key

/-- The keys of an order. -/
def writtenKeys : List OrderKey → List String
  | [] => []
  | key :: keys => key.written :: writtenKeys keys
termination_by structural keys => keys

/-- One item of a projection. -/
def SelectItem.written : SelectItem → String
  | .value expr none => expr.written
  | .value expr (some name) => expr.written ++ " AS " ++ name.written
  | .wildcard [] => "*"
  | .wildcard qualifier => ObjectName.written qualifier ++ ".*"
termination_by structural item => item

/-- A projection. -/
def writtenItems : List SelectItem → List String
  | [] => []
  | item :: items => item.written :: writtenItems items
termination_by structural items => items

/-- One source of rows. -/
def Source.written : Source → String
  | .table name partitions asName hints =>
    ObjectName.written name ++
      (if partitions.isEmpty then "" else "PARTITION (" ++ commaNames partitions ++ ")") ++
      asAlias asName ++ indexHints hints
  | .tableCall name args asName hints =>
    ObjectName.written name ++ parenList (writtenArgs args) ++ asAlias asName ++ indexHints hints
  | .derived lateral query asName =>
    (if lateral then "LATERAL (" else "(") ++ query.written ++ ")" ++ asAlias asName
  | .nested tree asName => "(" ++ tree.written ++ ")" ++ asAlias asName
  | .document value path columns asName =>
    "JSON_TABLE(" ++ value.written ++ ", " ++ path.written ++ " COLUMNS" ++
      parenList (columns.map DocumentColumn.written) ++ ")" ++ asAlias asName
  | .routine name args asName =>
    "LATERAL " ++ ObjectName.written name ++ parenList (writtenArgs args) ++ asAlias asName
  | .ofValue value asName => "TABLE(" ++ value.written ++ ")" ++ asAlias asName
termination_by structural source => source

/-- What stands behind the target of a join. -/
def JoinConstraint.written : JoinConstraint → String
  | .on condition => " ON " ++ condition.written
  | .using columns => " USING" ++ parenList (columns.map ObjectName.written)
  | .natural => ""
  | .none => ""
termination_by structural constraint => constraint

/-- One step of a join tree, behind what it joins to. -/
def Join.written : Join → String
  | ⟨kind, target, constraint⟩ =>
    " " ++ (match constraint with | .natural => "NATURAL " | _ => "") ++ kind.written ++ " " ++
      target.written ++ constraint.written
termination_by structural join => join

/-- The joins of a tree. -/
def writtenJoins : List Join → String
  | [] => ""
  | join :: joins => join.written ++ writtenJoins joins
termination_by structural joins => joins

/-- A join tree. -/
def JoinTree.written : JoinTree → String
  | ⟨base, joins⟩ => base.written ++ writtenJoins joins
termination_by structural tree => tree

/-- Join trees. -/
def writtenTrees : List JoinTree → List String
  | [] => []
  | tree :: trees => tree.written :: writtenTrees trees
termination_by structural trees => trees

/-- The definitions of windows, without their names. -/
def writtenWindows : List Window → List String
  | [] => []
  | window :: windows => window.written :: writtenWindows windows
termination_by structural windows => windows

/-- One SELECT block. -/
def Select.written : Select → String
  | ⟨distinct, top, items, into, sources, selection, groupAll, groupKeys, groupWords, having,
      windowNames, windows⟩ =>
    "SELECT" ++ (if distinct then " DISTINCT" else "") ++
      (match top with | none => "" | some text => " " ++ text) ++ " " ++
      commaSep (writtenItems items) ++
      (match into with | none => "" | some text => " INTO " ++ text) ++
      clauseList " FROM " (writtenTrees sources) ++
      (match selection with | none => "" | some e => " WHERE " ++ e.written) ++
      (if groupAll then " GROUP BY ALL" else clauseList " GROUP BY " (writtenExprs groupKeys)) ++
      String.join (groupWords.map spaced) ++
      (match having with | none => "" | some e => " HAVING " ++ e.written) ++
      clauseList " WINDOW "
        (List.zipWith (fun name window => name.written ++ " AS " ++ window)
          windowNames (writtenWindows windows))
termination_by structural block => block

/-- The body of a query. -/
def QueryBody.written : QueryBody → String
  | .select block => block.written
  | .values rowWord rows =>
    "VALUES " ++ commaSep ((writtenExprs rows).map fun row => if rowWord then "ROW" ++ row else row)
  | .nested query => "(" ++ query.written ++ ")"
  | .combined left op quantifier right =>
    left.written ++ " " ++ op.written ++ spaced quantifier ++ " " ++ right.written
termination_by structural body => body

/-- A query with a name. -/
def CommonTable.written : CommonTable → String
  | ⟨asName, query, origin⟩ =>
    asName.written ++ " AS (" ++ query.written ++ ")" ++
      (match origin with | none => "" | some name => " FROM " ++ name.written)
termination_by structural table => table

/-- Queries with names. -/
def writtenTables : List CommonTable → List String
  | [] => []
  | table :: tables => table.written :: writtenTables tables
termination_by structural tables => tables

/-- A query. -/
def Query.written : Query → String
  | ⟨recursive, tables, body, order, limit, offset, limitForm, locks⟩ =>
    (if tables.isEmpty then ""
      else (if recursive then "WITH RECURSIVE " else "WITH ") ++ commaSep (writtenTables tables) ++
        " ") ++
      body.written ++ clauseList " ORDER BY " (writtenKeys order) ++
      limitForm.written (match limit with | none => none | some e => some e.written)
        (match offset with | none => none | some e => some e.written) ++
      String.join (locks.map spaced)
termination_by structural query => query

end

end SqlFootprint.Sql
