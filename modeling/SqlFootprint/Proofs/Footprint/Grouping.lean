import SqlFootprint.Proofs.Footprint.Coherence

/-! # Sources up to grouping

How sources are grouped does not matter for a footprint: whether by parentheses, joins or commas, or
by the order in which queries are combined, and neither do sources that are no tables. Join trees
that differ only in this have the same tables from left to right (`Regrouped.iff_sourceTables`).
A table is listed where its name comes first, and a second name stands for the last table that bears
it (`gathers_of_regrouped`). -/

namespace SqlFootprint

open Sql

/-! ## What is gathered from leaves -/

/-- The different items are found in the order in which they come first. -/
theorem firstsFrom_eq_append (found items : List String) :
    firstsFrom found items = found ++ (items.filter (!found.contains ·)).eraseDups := by
  induction items generalizing found with
  | nil => simp [firstsFrom]
  | cons first rest ih =>
    rw [firstsFrom_cons, List.filter_cons]
    by_cases known : found.contains first = true
    · rw [if_pos known, known, ih]
      rfl
    · have new : found.contains first = false := Bool.eq_false_iff.mpr known
      -- what differs from the items found so far and from this one
      have others : rest.filter (!(found ++ [first]).contains ·) =
          (rest.filter (!found.contains ·)).filter (!· == first) := by
        rw [List.filter_filter]
        refine List.filter_congr fun other _ => ?_
        rw [Bool.eq_iff_iff]
        simp [and_comm]
      rw [if_neg known, new, ih, others]
      simp [List.eraseDups_cons]

/-- The items found first are the items without repetitions. -/
theorem firsts_eq_eraseDups (items : List String) : firsts items = items.eraseDups := by
  have all : items.filter (!([] : List String).contains ·) = items :=
    List.filter_eq_self.mpr fun _ _ => rfl
  exact (firstsFrom_eq_append [] items).trans (by rw [all, List.nil_append])

/-- In the reversed list the last pair with a key is found. -/
theorem lookup_reverse_eq_some_iff {pairs : List (String × String)} {key value : String} :
    pairs.reverse.lookup key = some value ↔ ∃ before after,
      pairs = before ++ (key, value) :: after ∧ ∀ other, (key, other) ∉ after := by
  rw [List.lookup_eq_some_iff]
  constructor
  · rintro ⟨after, before, eq, none⟩
    refine ⟨before.reverse, after.reverse, ?_, fun other m => ?_⟩
    · rw [← List.reverse_inj, eq]
      simp
    · simpa using none _ (List.mem_reverse.mp m)
  · rintro ⟨before, after, rfl, none⟩
    refine ⟨after.reverse, before.reverse, by simp, fun pair m => ?_⟩
    obtain ⟨other, table⟩ := pair
    rw [bne_iff_ne]
    rintro rfl
    exact none table (List.mem_reverse.mp m)

namespace Leaf

/-- The name of a leaf that is a table. -/
def name? : Leaf → Option String
  | .table name _ => some name
  | .other _ => none

/-- The tables of leaves are their names but the empty one. -/
theorem filterMap_table?_eq (leaves : List Leaf) :
    leaves.filterMap table? = (leaves.filterMap name?).filter (· ≠ "") := by
  rw [List.filter_filterMap]
  refine List.filterMap_congr fun leaf _ => ?_
  cases leaf with
  | table name asName =>
    by_cases empty : name = ""
    · subst empty
      rfl
    · simp [table?, name?, empty, Option.filter]
  | other text => rfl

/-- A leaf gives a second name if it bears it and has a name itself. -/
theorem alias?_eq_some_iff {leaf : Leaf} {asName table : String} :
    leaf.alias? = some (asName, table) ↔
      leaf = .table table (some asName) ∧ asName ≠ "" ∧ table ≠ "" := by
  cases leaf with
  | other text => simp [alias?]
  | table name bears =>
    cases bears with
    | none => simp [alias?]
    | some bears =>
      by_cases empty : (name.isEmpty || bears.isEmpty) = true
      · rw [alias?, if_pos empty]
        simp only [Bool.or_eq_true, String.isEmpty_iff] at empty
        constructor
        · intro h
          cases h
        · rintro ⟨same, named, nonempty⟩
          cases same
          exact (empty.elim nonempty named).elim
      · rw [alias?, if_neg empty]
        simp only [Bool.or_eq_true, String.isEmpty_iff, not_or] at empty
        constructor
        · intro h
          cases h
          exact ⟨rfl, empty.2, empty.1⟩
        · rintro ⟨same, -⟩
          cases same
          rfl

end Leaf

/-- Tables and second names are those of leaves read from left to right. -/
structure Gathers (leaves : List Leaf) (tables : List String) (aliases : Aliases) : Prop where
  /-- The tables are the names of the leaves, without repetitions and without the empty name. -/
  tables_eq : tables = ((leaves.filterMap Leaf.name?).filter (· ≠ "")).eraseDups
  /-- A second name stands for the table of the last leaf with a name that bears it. -/
  table?_eq_some_iff : ∀ asName table, aliases.table? asName = some table ↔
    asName ≠ "" ∧ table ≠ "" ∧ ∃ before after,
      leaves = before ++ .table table (some asName) :: after ∧
        ∀ name ≠ "", .table name (some asName) ∉ after

/-- The last leaf with a name that bears a second name is that of the last pair. -/
theorem table?_leafAliases_eq_some_iff {leaves : List Leaf} {asName table : String} :
    (leafAliases leaves).table? asName = some table ↔
      asName ≠ "" ∧ table ≠ "" ∧ ∃ before after,
        leaves = before ++ .table table (some asName) :: after ∧
          ∀ name ≠ "", .table name (some asName) ∉ after := by
  rw [table?_leafAliases, lookup_reverse_eq_some_iff]
  constructor
  · rintro ⟨before, after, eq, last⟩
    obtain ⟨front, back, rfl, rfl, rest⟩ := List.filterMap_eq_append_iff.mp eq
    obtain ⟨between, leaf, behind, rfl, -, bears, rfl⟩ := List.filterMap_eq_cons_iff.mp rest
    obtain ⟨rfl, given, named⟩ := Leaf.alias?_eq_some_iff.mp bears
    refine ⟨given, named, front ++ between, behind, by simp, fun name nonempty m => ?_⟩
    exact last name (List.mem_filterMap.mpr ⟨_, m, Leaf.alias?_eq_some_iff.mpr
      ⟨rfl, given, nonempty⟩⟩)
  · rintro ⟨given, named, before, after, rfl, last⟩
    refine ⟨before.filterMap Leaf.alias?, after.filterMap Leaf.alias?, ?_, fun name m => ?_⟩
    · have bears := Leaf.alias?_eq_some_iff.mpr ⟨rfl, given, named⟩
      rw [List.filterMap_append, List.filterMap_cons_some bears]
    · obtain ⟨leaf, m, bears⟩ := List.mem_filterMap.mp m
      obtain ⟨rfl, -, nonempty⟩ := Leaf.alias?_eq_some_iff.mp bears
      exact last name nonempty m

/-- The tables and second names of a statement are those of its leaves. -/
theorem gathers_leaves (leaves : List Leaf) :
    Gathers leaves (leafTables leaves) (leafAliases leaves) where
  tables_eq := by rw [leafTables, firsts_eq_eraseDups, Leaf.filterMap_table?_eq]
  table?_eq_some_iff _ _ := table?_leafAliases_eq_some_iff

/-! ## Grouping -/

mutual

/-- The tables of a source from left to right, as they are written in it. -/
def Sql.Source.tables : Source → List Source
  | .table name partitions asName hints => [.table name partitions asName hints]
  | .tableCall name args asName hints => [.tableCall name args asName hints]
  | .nested tree _ => tree.tables
  | .derived .. | .document .. | .routine .. | .ofValue .. => []
termination_by structural source => source

/-- The tables of a join tree from left to right. -/
def Sql.JoinTree.tables : JoinTree → List Source
  | ⟨base, joins⟩ => base.tables ++ joinTables joins
termination_by structural tree => tree

/-- The table of what a join adds. -/
def Sql.Join.tables : Join → List Source
  | ⟨_, target, _⟩ => target.tables
termination_by structural join => join

/-- The tables of what joins add. -/
def joinTables : List Join → List Source
  | [] => []
  | join :: joins => join.tables ++ joinTables joins
termination_by structural joins => joins

end

/-- The tables of join trees from left to right. -/
def sourceTables (trees : List JoinTree) : List Source := trees.flatMap JoinTree.tables

/-- Join trees with the same tables from left to right: with or without parentheses around a tree,
with a join or a comma between two sources, and with or without sources that are no tables. -/
inductive Regrouped : List JoinTree → List JoinTree → Prop where
  /-- Nothing is changed. -/
  | refl (trees : List JoinTree) : Regrouped trees trees
  /-- A change is taken back. -/
  | symm {trees trees' : List JoinTree} (h : Regrouped trees trees') : Regrouped trees' trees
  /-- One change after another. -/
  | trans {trees trees' trees'' : List JoinTree} (h : Regrouped trees trees')
      (h' : Regrouped trees' trees'') : Regrouped trees trees''
  /-- Both parts of a list are changed. -/
  | append {front front' back back' : List JoinTree} (h : Regrouped front front')
      (h' : Regrouped back back') : Regrouped (front ++ back) (front' ++ back')
  /-- A comma takes the place of a join. -/
  | comma (base : Source) (before : List Join) (join : Join) (after : List Join) :
      Regrouped [⟨base, before ++ join :: after⟩] [⟨base, before⟩, ⟨join.target, after⟩]
  /-- Parentheses around a tree are left out. -/
  | parentheses (tree : JoinTree) (asName : Option TableAlias) :
      Regrouped [⟨.nested tree asName, []⟩] [tree]
  /-- A derived table is left out. -/
  | derived (lateral : Bool) (query : Query) (asName : Option TableAlias) :
      Regrouped [⟨.derived lateral query asName, []⟩] []
  /-- A table read out of a document is left out. -/
  | document (value : Expr) (path : Literal) (columns : List DocumentColumn)
      (asName : Option TableAlias) : Regrouped [⟨.document value path columns asName, []⟩] []
  /-- A function is left out. -/
  | routine (name : ObjectName) (args : List Arg) (asName : Option TableAlias) :
      Regrouped [⟨.routine name args asName, []⟩] []
  /-- A value used as a table is left out. -/
  | ofValue (value : Expr) (asName : Option TableAlias) : Regrouped [⟨.ofValue value asName, []⟩] []

namespace Regrouped

/-- A tree is regrouped to its tables, each standing alone. -/
abbrev alone (source : Source) : JoinTree := ⟨source, []⟩

mutual

/-- A source is regrouped to its tables, each standing alone. -/
theorem source_tables : (source : Source) →
    Regrouped [⟨source, []⟩] (source.tables.map alone)
  | .table .. | .tableCall .. => .refl _
  | .nested tree asName => (parentheses tree asName).trans (tree_tables tree)
  | .derived .. => derived ..
  | .document .. => document ..
  | .routine .. => routine ..
  | .ofValue .. => ofValue ..
termination_by source => sizeOf source

/-- A join tree is regrouped to its tables, each standing alone. -/
theorem tree_tables : (tree : JoinTree) → Regrouped [tree] (tree.tables.map alone)
  | ⟨base, joins⟩ => by
    rw [JoinTree.tables, List.map_append]
    exact joins_tables base joins
termination_by tree => sizeOf tree

/-- A source with joins is regrouped to its tables, each standing alone. -/
theorem joins_tables (base : Source) : (joins : List Join) →
    Regrouped [⟨base, joins⟩] (base.tables.map alone ++ (joinTables joins).map alone)
  | [] => by
    rw [joinTables, List.map_nil, List.append_nil]
    exact source_tables base
  | ⟨kind, target, constraint⟩ :: joins => by
    -- the first target starts a tree of its own, which the other joins belong to
    have apart := comma base [] ⟨kind, target, constraint⟩ joins
    rw [joinTables, Join.tables, List.map_append]
    exact apart.trans ((source_tables base).append (joins_tables target joins))
termination_by joins => sizeOf base + sizeOf joins

end

/-- Join trees are regrouped to their tables, each standing alone. -/
theorem sourceTables_map (trees : List JoinTree) :
    Regrouped trees ((sourceTables trees).map alone) := by
  induction trees with
  | nil => exact .refl []
  | cons tree trees ih =>
    rw [sourceTables, List.flatMap_cons, List.map_append]
    exact (tree_tables tree).append ih

/-- Trees are regrouped exactly if they have the same tables. -/
theorem iff_sourceTables {trees trees' : List JoinTree} :
    Regrouped trees trees' ↔ sourceTables trees = sourceTables trees' := by
  constructor
  · have append (front back : List JoinTree) :
        sourceTables (front ++ back) = sourceTables front ++ sourceTables back :=
      List.flatMap_append
    have joins (before after : List Join) :
        joinTables (before ++ after) = joinTables before ++ joinTables after := by
      induction before with
      | nil => rfl
      | cons join before ih => rw [List.cons_append, joinTables, ih, joinTables, List.append_assoc]
    intro h
    induction h with
    | refl trees => rfl
    | symm _ ih => exact ih.symm
    | trans _ _ ih ih' => exact ih.trans ih'
    | append _ _ ih ih' => rw [append, append, ih, ih']
    | comma base before join after =>
      obtain ⟨kind, target, constraint⟩ := join
      simp [sourceTables, JoinTree.tables, joins, joinTables, Join.tables]
    | parentheses tree asName => simp [sourceTables, JoinTree.tables, Source.tables, joinTables]
    | derived | document | routine | ofValue => rfl
  · intro same
    exact (sourceTables_map trees).trans (same ▸ (sourceTables_map trees').symm)

/-- What joins add is added join by join. -/
theorem joinLeaves_append (joins joins' : List Join) :
    joinLeaves (joins ++ joins') = joinLeaves joins ++ joinLeaves joins' := by
  induction joins with
  | nil => rfl
  | cons join joins ih => rw [List.cons_append, joinLeaves, ih, joinLeaves, List.append_assoc]

/-- What is read from tables alone is the same for regrouped trees. -/
theorem filterMap_sourceLeaves {trees trees' : List JoinTree} (h : Regrouped trees trees')
    {β : Type} {read? : Leaf → Option β} (skips : ∀ text, read? (.other text) = none) :
    (sourceLeaves trees).filterMap read? = (sourceLeaves trees').filterMap read? := by
  have append (front back : List JoinTree) :
      sourceLeaves (front ++ back) = sourceLeaves front ++ sourceLeaves back :=
    List.flatMap_append
  induction h with
  | refl trees => rfl
  | symm _ ih => exact ih.symm
  | trans _ _ ih ih' => exact ih.trans ih'
  | append _ _ ih ih' => rw [append, append, List.filterMap_append, List.filterMap_append, ih, ih']
  | comma base before join after =>
    obtain ⟨kind, target, constraint⟩ := join
    simp [sourceLeaves, JoinTree.leaves, joinLeaves_append, joinLeaves, Join.leaves]
  | parentheses tree asName =>
    simp [sourceLeaves, JoinTree.leaves, Source.leaves, joinLeaves]
  | derived | document | routine | ofValue => exact List.filterMap_cons_none (skips _)

end Regrouped

/-- Bodies of queries with the same tables from left to right: the sources of their blocks are
regrouped, with or without parentheses, and combined in any order of combination. -/
inductive Sql.QueryBody.Regrouped : QueryBody → QueryBody → Prop where
  /-- Nothing is changed. -/
  | refl (body : QueryBody) : Regrouped body body
  /-- A change is taken back. -/
  | symm {body body' : QueryBody} (h : Regrouped body body') : Regrouped body' body
  /-- One change after another. -/
  | trans {body body' body'' : QueryBody} (h : Regrouped body body') (h' : Regrouped body' body'') :
      Regrouped body body''
  /-- The sources of a block are regrouped. -/
  | select {block block' : Select} (h : SqlFootprint.Regrouped block.sources block'.sources) :
      Regrouped (.select block) (.select block')
  /-- Parentheses around a query are left out. -/
  | parentheses (query : Query) : Regrouped (.nested query) query.body
  /-- Both of two combined bodies are changed. -/
  | combined {left left' right right' : QueryBody} (h : Regrouped left left')
      (h' : Regrouped right right') (op op' : SetOp) (quantifier quantifier' : String) :
      Regrouped (.combined left op quantifier right) (.combined left' op' quantifier' right')
  /-- Three bodies are combined in the other order. -/
  | associate (first second third : QueryBody) (op op' : SetOp) (quantifier quantifier' : String) :
      Regrouped (.combined (.combined first op quantifier second) op' quantifier' third)
        (.combined first op quantifier (.combined second op' quantifier' third))

/-- What is read from tables alone is the same for the blocks of regrouped bodies. -/
theorem filterMap_blockLeaves {body body' : QueryBody} (h : body.Regrouped body') {β : Type}
    {read? : Leaf → Option β} (skips : ∀ text, read? (.other text) = none) :
    (blockLeaves body.blocks).filterMap read? = (blockLeaves body'.blocks).filterMap read? := by
  have append (front back : List Select) :
      blockLeaves (front ++ back) = blockLeaves front ++ blockLeaves back :=
    List.flatMap_append
  induction h with
  | refl body => rfl
  | symm _ ih => exact ih.symm
  | trans _ _ ih ih' => exact ih.trans ih'
  | select h => simpa [QueryBody.blocks, blockLeaves] using h.filterMap_sourceLeaves skips
  | parentheses query =>
    cases query
    rfl
  | combined _ _ op op' quantifier quantifier' ih ih' =>
    rw [QueryBody.blocks, QueryBody.blocks, append, append, List.filterMap_append,
      List.filterMap_append, ih, ih']
  | associate first second third op op' quantifier quantifier' =>
    simp [QueryBody.blocks]

/-! ## Statements -/

/-- Statements of one kind that pick out rows of the same tables, up to the grouping of sources. -/
inductive Sql.Statement.Regrouped : Statement → Statement → Prop where
  /-- The body of a query is regrouped. -/
  | query {query query' : Query} (h : query.body.Regrouped query'.body) :
      Regrouped (.query query) (.query query')
  /-- The sources of a change of rows are regrouped. -/
  | update {update update' : Update}
      (h : SqlFootprint.Regrouped (update.target :: update.sources)
        (update'.target :: update'.sources)) : Regrouped (.update update) (.update update')
  /-- The sources of a removal of rows are regrouped. -/
  | delete {delete delete' : Delete}
      (h : SqlFootprint.Regrouped (delete.sources ++ delete.further)
        (delete'.sources ++ delete'.further)) : Regrouped (.delete delete) (.delete delete')

/-- What is read from tables alone is the same for regrouped statements, which do the same. -/
theorem filterMap_leaves {statement statement' : Statement} (h : statement.Regrouped statement') :
    statement.rowsAction? = statement'.rowsAction? ∧
    ∀ {β : Type} {read? : Leaf → Option β}, (∀ text, read? (.other text) = none) →
      statement.leaves.filterMap read? = statement'.leaves.filterMap read? := by
  cases h with
  | @query query query' h =>
    refine ⟨rfl, fun skips => ?_⟩
    cases query
    cases query'
    exact filterMap_blockLeaves h skips
  | update h => exact ⟨rfl, fun skips => h.filterMap_sourceLeaves skips⟩
  | delete h =>
    refine ⟨rfl, fun skips => ?_⟩
    have same := h.filterMap_sourceLeaves skips
    simpa [sourceLeaves, Statement.leaves] using same

/-- The tables of a statement that picks out rows are the names of its leaves, and a second name
stands for the last leaf that bears it, where leaves without a name and empty second names are
passed over. Regrouped statements have the same tables and second names. -/
theorem gathers_of_regrouped {statement : Statement} {action : Action}
    (rows : statement.rowsAction? = some action) :
    Gathers statement.leaves statement.footprint.tables statement.footprint.aliases ∧
      ∀ {statement' : Statement}, statement.Regrouped statement' →
        statement'.footprint.tables = statement.footprint.tables ∧
          statement'.footprint.aliases = statement.footprint.aliases := by
  obtain ⟨columns, footprint⟩ := footprint_of_rowsAction? rows
  refine ⟨?_, fun {statement'} h => ?_⟩
  · rw [footprint]
    exact gathers_leaves statement.leaves
  · obtain ⟨acts, same⟩ := filterMap_leaves h
    obtain ⟨columns', footprint'⟩ := footprint_of_rowsAction? (acts ▸ rows)
    rw [footprint, footprint']
    constructor
    · show leafTables _ = leafTables _
      rw [leafTables, leafTables, same fun _ => rfl]
    · show leafAliases _ = leafAliases _
      rw [leafAliases, leafAliases, same fun _ => rfl]

/-- The query of all columns of some sources. -/
def allColumns (sources : List JoinTree) : Statement :=
  .query (.ofBody (.select (.ofSources sources none)))

/-- The sources `(a AS x JOIN b) JOIN c AS x`. -/
def joinedLeft : JoinTree :=
  ⟨.nested ⟨(namedTable "a" (some "x")).base, [⟨.plain, (namedTable "b" none).base, .none⟩]⟩ none,
    [⟨.plain, (namedTable "c" (some "x")).base, .none⟩]⟩

/-- The sources `a AS x JOIN (b JOIN c AS x)`. -/
def joinedRight : JoinTree :=
  ⟨(namedTable "a" (some "x")).base,
    [⟨.plain, .nested ⟨(namedTable "b" none).base,
      [⟨.plain, (namedTable "c" (some "x")).base, .none⟩]⟩ none, .none⟩]⟩

/-- The second name of two joined tables stands for the last of them, wherever the parentheses. -/
theorem gathers_joinedLeft : (allColumns [joinedLeft]).rowsAction? = some .select ∧
    Gathers (allColumns [joinedLeft]).leaves ["a", "b", "c"] [("x", "c")] ∧
      (allColumns [joinedRight]).footprint.tables = ["a", "b", "c"] ∧
        (allColumns [joinedRight]).footprint.aliases = [("x", "c")] := by
  have rows : (allColumns [joinedLeft]).rowsAction? = some .select := rfl
  have tables : (allColumns [joinedLeft]).footprint.tables = ["a", "b", "c"] := by decide +kernel
  have aliases : (allColumns [joinedLeft]).footprint.aliases = [("x", "c")] := by decide +kernel
  have moved : (allColumns [joinedLeft]).Regrouped (allColumns [joinedRight]) :=
    .query (.select (Regrouped.iff_sourceTables.mpr rfl))
  obtain ⟨gathers, same⟩ := gathers_of_regrouped rows
  rw [tables, aliases] at gathers same
  exact ⟨rows, gathers, same moved⟩

/-- Not every second name stands for the table of the last leaf that bears it: the empty one of the
table `t` is passed over. -/
theorem not_forall_lastLeaf : ¬∀ statement : Statement, statement.rowsAction?.isSome →
    ∀ asName table before after,
      statement.leaves = before ++ .table table (some asName) :: after →
        (∀ name, .table name (some asName) ∉ after) →
          statement.footprint.aliases.table? asName = some table := by
  intro all
  have found := all (allColumns [namedTable "t" (some "")]) rfl "" "t" [] [] rfl (by simp)
  exact absurd found (by decide +kernel)

end SqlFootprint
