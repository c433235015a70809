import SqlFootprint.Proofs.Footprint.NamedSources

/-! # Queries of several blocks

The condition of a query is that of its first block, while the tables and second names are those of
all blocks (`leaves_query`). A second name that several sources bear stands for the table of the
last of them (`table?_leafAliases`). -/

namespace SqlFootprint

open Sql

/-! ## Tables and second names of all blocks -/

/-- The leaves of the sources of blocks. -/
def blockLeaves (blocks : List Select) : List Leaf :=
  blocks.flatMap fun block => sourceLeaves block.sources

section

variable {query : Query} {first : Select} {rest : List Select}
    (blocks : query.blocks = first :: rest)

include blocks

/-- The leaves of a query are those of its first block and of the others. -/
theorem leaves_query : (Statement.query query).leaves =
    sourceLeaves first.sources ++ blockLeaves rest := by
  show blockLeaves query.blocks = _
  rw [blocks]
  rfl

/-- The condition of a query is that of its first block. -/
theorem selection_query : (Statement.query query).selection = first.selection := by
  show query.blocks.head?.bind Select.selection = _
  rw [blocks]
  rfl

/-- The tables of a query are those of its first block and of the others. -/
theorem mem_tables_query {table : String} : table ∈ (Statement.query query).tables ↔
    table ∈ leafTables (sourceLeaves first.sources) ∨ table ∈ leafTables (blockLeaves rest) := by
  rw [Statement.tables, leaves_query blocks]
  simp only [leafTables, mem_firsts, List.filterMap_append, List.mem_append]

end

/-- No item is found twice. -/
theorem nodup_firsts (items : List String) : (firsts items).Nodup := by
  have keeps (found items : List String) (h : found.Nodup) : (firstsFrom found items).Nodup := by
    induction items generalizing found with
    | nil => exact h
    | cons item items ih =>
      rw [firstsFrom_cons]
      split
      · exact ih found h
      · next new =>
        refine ih _ (List.nodup_append.mpr ⟨h, List.nodup_singleton item, ?_⟩)
        intro other m last mem
        rw [List.mem_singleton.mp mem]
        rintro rfl
        exact new (List.contains_iff_mem.mpr m)
  exact keeps [] items List.nodup_nil

/-- A second name stands for the table that it was given to last. -/
theorem Aliases.table?_insertAll (aliases : Aliases) (pairs : List (String × String))
    (asName : String) : (aliases.insertAll pairs).table? asName =
      (pairs.reverse.lookup asName).or (aliases.table? asName) := by
  induction pairs generalizing aliases with
  | nil => rfl
  | cons pair pairs ih =>
    obtain ⟨name, table⟩ := pair
    show ((aliases.insert name table).insertAll pairs).table? asName = _
    rw [ih, Aliases.table?_insert, List.reverse_cons, List.lookup_append]
    cases pairs.reverse.lookup asName with
    | some found => rfl
    | none =>
      by_cases same : asName = name
      · simp [same]
      · have ne : (asName == name) = false := beq_eq_false_iff_ne.mpr same
        simp [same, List.lookup_cons, ne]

/-- A second name stands for the table of the last leaf that bears it. -/
theorem table?_leafAliases (leaves : List Leaf) (asName : String) :
    (leafAliases leaves).table? asName =
      (leaves.filterMap Leaf.alias?).reverse.lookup asName := by
  have := Aliases.table?_insertAll [] (leaves.filterMap Leaf.alias?) asName
  rwa [show Aliases.table? [] asName = none from rfl, Option.or_none] at this

/-! ## Simple queries -/

/-- A source that is a table, perhaps with a second name. -/
def namedTable (table : String) (asName : Option String) : JoinTree :=
  ⟨.table [⟨table, none⟩] [] (asName.map fun name => ⟨⟨name, none⟩, []⟩) [], []⟩

/-- The block that takes all columns of the rows that meet a condition. -/
def Sql.Select.ofSources (sources : List JoinTree) (selection : Option Expr) : Select where
  distinct := false
  top := none
  items := [.wildcard []]
  into := none
  sources
  selection
  groupAll := false
  groupKeys := []
  groupWords := []
  having := none
  windowNames := []
  windows := []

/-- The query of a body and nothing else. -/
def Sql.Query.ofBody (body : QueryBody) : Query where
  recursive := false
  tables := []
  body
  order := []
  limit := none
  offset := none
  limitForm := .words ""
  locks := []

end SqlFootprint
