import SqlFootprint.Footprint
import SqlFootprint.Sql.Written

/-! # Sources and their tables

The sources of a statement are trees of joins. Only their leaves matter for a footprint, read from
left to right: named tables, and sources that are no tables. -/

namespace SqlFootprint

open Sql

/-- A source that is not made of other sources. -/
inductive Leaf where
  /-- A table by its plain name, with the second name it may have. -/
  | table (name : String) (asName : Option String)
  /-- Something else, by its canonical text. -/
  | other (text : String)
  deriving DecidableEq, Repr

/-- The leaf of a named table. -/
def Leaf.ofTable (name : ObjectName) (asName : Option TableAlias) : Leaf :=
  .table (ObjectName.lastPart name) (asName.map (·.name.value))

mutual

/-- The leaves of a source. -/
def Sql.Source.leaves : Source → List Leaf
  | .table name _ asName _ => [Leaf.ofTable name asName]
  | .tableCall name _ asName _ => [Leaf.ofTable name asName]
  | .nested tree _ => tree.leaves
  | other => [.other other.written]
termination_by structural source => source

/-- The leaves of a join tree. -/
def Sql.JoinTree.leaves : JoinTree → List Leaf
  | ⟨base, joins⟩ => base.leaves ++ joinLeaves joins
termination_by structural tree => tree

/-- The leaves of what a join adds. -/
def Sql.Join.leaves : Join → List Leaf
  | ⟨_, target, _⟩ => target.leaves
termination_by structural join => join

/-- The leaves of what joins add. -/
def joinLeaves : List Join → List Leaf
  | [] => []
  | join :: joins => join.leaves ++ joinLeaves joins
termination_by structural joins => joins

end

/-- The leaves of join trees. -/
def sourceLeaves (trees : List JoinTree) : List Leaf := trees.flatMap JoinTree.leaves

/-- The table of a leaf, unless its name is empty. -/
def Leaf.table? : Leaf → Option String
  | .table name _ => if name.isEmpty then none else some name
  | .other _ => none

/-- The second name of a leaf with its table, unless one of them is empty. -/
def Leaf.alias? : Leaf → Option (String × String)
  | .table name (some asName) =>
    if name.isEmpty || asName.isEmpty then none else some (asName, name)
  | _ => none

/-- The tables of leaves, each once. -/
def leafTables (leaves : List Leaf) : List String := firsts (leaves.filterMap Leaf.table?)

/-- The second names of leaves; the last leaf that has a name decides. -/
def leafAliases (leaves : List Leaf) : Aliases := Aliases.ofList (leaves.filterMap Leaf.alias?)

/-- The event of a leaf that is no table. -/
def Leaf.event? : Leaf → Option String
  | .table .. => none
  | .other text => some ("Skipping non-table source in join tree: " ++ text)

mutual

/-- The SELECT blocks of a query body from left to right; not those inside expressions or sources,
and not those of named queries. -/
def Sql.QueryBody.blocks : QueryBody → List Select
  | .select block => [block]
  | .values .. => []
  | .nested query => query.blocks
  | .combined left _ _ right => left.blocks ++ right.blocks
termination_by structural body => body

/-- The SELECT blocks of a query from left to right. -/
def Sql.Query.blocks : Query → List Select
  | ⟨_, _, body, _, _, _, _, _⟩ => body.blocks
termination_by structural query => query

end

end SqlFootprint
