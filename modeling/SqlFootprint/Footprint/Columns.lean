import SqlFootprint.Sql.Statement

/-! # The columns of a tree

A column is named by a name standing alone, or by the last part of a dotted name. Columns are listed
in the order in which the trees hold them, as often as they are named. -/

namespace SqlFootprint

open Sql

mutual

/-- The columns of an expression. -/
def Sql.Expr.columns : Expr → List String
  | .name id => [id.value]
  | .dotted parts => (parts.getLast?.map Ident.value).toList
  | .wildcard | .tableWildcard _ | .literal _ | .fullText _ _ _ | .typed _ _ => []
  | .introduced _ value => value.columns
  | .binary left _ right => left.columns ++ right.columns
  | .unary _ arg => arg.columns
  | .nested inner => inner.columns
  | .isTest arg _ _ => arg.columns
  | .distinctFrom left _ right => left.columns ++ right.columns
  | .inList arg _ items => arg.columns ++ exprsColumns items
  | .inQuery arg _ body => arg.columns ++ body.columns
  | .between arg _ low high => arg.columns ++ low.columns ++ high.columns
  | .like arg _ _ _ pattern _ => arg.columns ++ pattern.columns
  | .regexp arg _ _ pattern => arg.columns ++ pattern.columns
  | .quantified left _ _ right => left.columns ++ right.columns
  | .memberOf value array => value.columns ++ array.columns
  | .atTimeZone time zone => time.columns ++ zone.columns
  | .choice operand arms otherwise =>
    (match operand with | none => [] | some e => e.columns) ++ armsColumns arms ++
      (match otherwise with | none => [] | some e => e.columns)
  | .cast _ arg _ => arg.columns
  | .doubleColon arg _ => arg.columns
  | .convert arg _ _ => arg.columns
  | .extract _ arg => arg.columns
  | .rounded _ arg _ => arg.columns
  | .position needle haystack => needle.columns ++ haystack.columns
  | .substring _ _ arg start length =>
    arg.columns ++ (match start with | none => [] | some e => e.columns) ++
      (match length with | none => [] | some e => e.columns)
  | .overlay arg new start length =>
    arg.columns ++ new.columns ++ start.columns ++
      (match length with | none => [] | some e => e.columns)
  | .trimmed _ arg what => arg.columns ++ (match what with | none => [] | some e => e.columns)
  | .collate arg _ => arg.columns
  | .existsRow _ query => query.columns
  | .subquery query => query.columns
  | .tuple items => exprsColumns items
  | .call function => function.columns
  | .interval value _ => value.columns
  | .access root parts => root.columns ++ exprsColumns parts
termination_by structural e => e

/-- The columns of expressions. -/
def exprsColumns : List Expr → List String
  | [] => []
  | e :: es => e.columns ++ exprsColumns es
termination_by structural es => es

/-- The columns of the cases of a choice. -/
def armsColumns : List CaseArm → List String
  | [] => []
  | arm :: arms => arm.columns ++ armsColumns arms
termination_by structural arms => arms

/-- The columns of a case. -/
def Sql.CaseArm.columns : CaseArm → List String
  | ⟨condition, result⟩ => condition.columns ++ result.columns
termination_by structural arm => arm

/-- The columns of an argument. -/
def Sql.Arg.columns : Arg → List String
  | .value _ arg => arg.columns
  | .wildcard _ _ => []
termination_by structural arg => arg

/-- The columns of arguments. -/
def argsColumns : List Arg → List String
  | [] => []
  | arg :: args => arg.columns ++ argsColumns args
termination_by structural args => args

/-- The columns of a function call: arguments, their order and limit, the order within the group,
and the window. -/
def Sql.Call.columns : Call → List String
  | ⟨_, _, _, args, order, limit, _, within, _, window⟩ =>
    argsColumns args ++ keysColumns order ++
      (match limit with | none => [] | some e => e.columns) ++ window.columns ++ keysColumns within
termination_by structural call => call

/-- The columns of a window. -/
def Sql.Window.columns : Window → List String
  | .none => []
  | .named _ => []
  | .inline _ partition order _ counts =>
    exprsColumns partition ++ keysColumns order ++ exprsColumns counts
termination_by structural window => window

/-- The columns of a key of an order. -/
def Sql.OrderKey.columns : OrderKey → List String
  | ⟨key, _, _⟩ => key.columns
termination_by structural key => key

/-- The columns of the keys of an order. -/
def keysColumns : List OrderKey → List String
  | [] => []
  | key :: keys => key.columns ++ keysColumns keys
termination_by structural keys => keys

/-- The columns of an item of a projection. -/
def Sql.SelectItem.columns : SelectItem → List String
  | .value expr _ => expr.columns
  | .wildcard _ => []
termination_by structural item => item

/-- The columns of a projection. -/
def itemsColumns : List SelectItem → List String
  | [] => []
  | item :: items => item.columns ++ itemsColumns items
termination_by structural items => items

/-- The columns of a source. -/
def Sql.Source.columns : Source → List String
  | .table _ _ _ _ => []
  | .tableCall _ args _ _ => argsColumns args
  | .derived _ query _ => query.columns
  | .nested tree _ => tree.columns
  | .document value _ _ _ => value.columns
  | .routine _ args _ => argsColumns args
  | .ofValue value _ => value.columns
termination_by structural source => source

/-- The columns of what ties a join together. Columns joined on by name are no expressions. -/
def Sql.JoinConstraint.columns : JoinConstraint → List String
  | .on condition => condition.columns
  | .using _ => []
  | .natural => []
  | .none => []
termination_by structural constraint => constraint

/-- The columns of a join: its target, then its condition. -/
def Sql.Join.columns : Join → List String
  | ⟨_, target, constraint⟩ => target.columns ++ constraint.columns
termination_by structural join => join

/-- The columns of joins. -/
def joinsColumns : List Join → List String
  | [] => []
  | join :: joins => join.columns ++ joinsColumns joins
termination_by structural joins => joins

/-- The columns of a join tree. -/
def Sql.JoinTree.columns : JoinTree → List String
  | ⟨base, joins⟩ => base.columns ++ joinsColumns joins
termination_by structural tree => tree

/-- The columns of join trees. -/
def treesColumns : List JoinTree → List String
  | [] => []
  | tree :: trees => tree.columns ++ treesColumns trees
termination_by structural trees => trees

/-- The columns of windows. -/
def windowsColumns : List Window → List String
  | [] => []
  | window :: windows => window.columns ++ windowsColumns windows
termination_by structural windows => windows

/-- The columns of a SELECT block: projection, sources, condition, groups, windows. -/
def Sql.Select.columns : Select → List String
  | ⟨_, _, items, _, sources, selection, _, groupKeys, _, having, _, windows⟩ =>
    itemsColumns items ++ treesColumns sources ++
      (match selection with | none => [] | some e => e.columns) ++ exprsColumns groupKeys ++
      (match having with | none => [] | some e => e.columns) ++ windowsColumns windows
termination_by structural block => block

/-- The columns of a query body. -/
def Sql.QueryBody.columns : QueryBody → List String
  | .select block => block.columns
  | .values _ rows => exprsColumns rows
  | .nested query => query.columns
  | .combined left _ _ right => left.columns ++ right.columns
termination_by structural body => body

/-- The columns of a query with a name. -/
def Sql.CommonTable.columns : CommonTable → List String
  | ⟨_, query, _⟩ => query.columns
termination_by structural table => table

/-- The columns of queries with names. -/
def tablesColumns : List CommonTable → List String
  | [] => []
  | table :: tables => table.columns ++ tablesColumns tables
termination_by structural tables => tables

/-- The columns of a query: named queries, body, order, then the numbers of the limit as they are
written. -/
def Sql.Query.columns : Query → List String
  | ⟨_, tables, body, order, limit, offset, limitForm, _⟩ =>
    let counts := match limit with | none => [] | some e => e.columns
    let starts := match offset with | none => [] | some e => e.columns
    tablesColumns tables ++ body.columns ++ keysColumns order ++
      (match limitForm with | .comma => starts ++ counts | .words _ => counts ++ starts)
termination_by structural query => query

end

/-! ## Statements -/

/-- The columns that get a value. -/
def Sql.Target.columns : Target → List String
  | .column name => (name.getLast?.map Ident.value).toList
  | .row names => names.flatMap fun name => (name.getLast?.map Ident.value).toList

/-- The columns of an assignment. -/
def Sql.Assignment.columns (assignment : Assignment) : List String :=
  assignment.target.columns ++ assignment.value.columns

/-- The columns of an expression that may be missing. -/
def optionColumns : Option Expr → List String
  | none => []
  | some e => e.columns

/-- The columns of an insertion: those named for the rows, and those of the query. -/
def Sql.Insert.columnNames (insert : Insert) : List String :=
  insert.columns.map Ident.value ++
    (match insert.rows with
      | .query query => query.columns
      | .assigned _ => []
      | .defaults => [])

/-- The columns of a change of rows. -/
def Sql.Update.columns (update : Update) : List String :=
  update.target.columns ++ update.assignments.flatMap Assignment.columns ++
    treesColumns update.sources ++ optionColumns update.selection

/-- The columns of a removal of rows. -/
def Sql.Delete.columns (delete : Delete) : List String :=
  treesColumns (delete.sources ++ delete.further) ++ optionColumns delete.selection ++
    keysColumns delete.order ++ optionColumns delete.limit

/-- The columns that one change of a table is about. -/
def Sql.TableChange.columns : TableChange → List String
  | .addColumn _ column _ => [column.name.value]
  | .dropColumn _ column _ => [column.value]
  | .renameColumn old new => [old.value, new.value]
  | .changeColumn old column _ => [old.value, column.name.value]
  | .modifyColumn column _ => [column.name.value]
  | .other _ => []

end SqlFootprint
