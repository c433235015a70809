import SqlFootprint.Proofs.Footprint.Blocks

/-! # Coherence of footprints

A footprint is read field by field: the filter is cut by the tables, second names are looked up, a
plan begins with the table that a statement works on. All of this relies on how the fields fit
together (`Footprint.IsCoherent`), and they do for every statement (`isCoherent_footprint`). -/

namespace SqlFootprint

open Sql

/-- The fields of a footprint fit together. -/
structure Footprint.IsCoherent (footprint : Footprint) : Prop where
  /-- No table is listed twice. -/
  distinct : footprint.tables.Nodup
  /-- Every table has a name. -/
  named : ∀ table ∈ footprint.tables, table ≠ ""
  /-- No second name is empty, and each stands for a listed table. -/
  aliases : ∀ pair ∈ footprint.aliases, pair.1 ≠ "" ∧ pair.2 ∈ footprint.tables
  /-- Only a statement that changes or removes rows works on a table, and that is the first one. -/
  primary : ∀ table, footprint.primary = some table ↔
    (footprint.action = some .update ∨ footprint.action = some .delete) ∧
      footprint.tables.head? = some table
  /-- Only a statement that picks out rows has a condition or second names. -/
  rows : footprint.filter ≠ "" ∨ footprint.aliases ≠ [] →
    footprint.action = some .select ∨ footprint.action = some .update ∨
      footprint.action = some .delete
  /-- A statement that does nothing touches nothing. -/
  idle : footprint.action = none → footprint.tables = [] ∧ footprint.columns = [] ∧
    footprint.filter = "" ∧ footprint.aliases = []

/-! ## Tables and second names -/

/-- The tables of leaves have names. -/
theorem ne_empty_of_mem_leafTables {leaves : List Leaf} {table : String}
    (h : table ∈ leafTables leaves) : table ≠ "" := by
  obtain ⟨leaf, -, found⟩ := List.mem_filterMap.mp (mem_firsts.mp h)
  cases leaf with
  | other text => cases found
  | table name asName =>
    rw [Leaf.table?] at found
    split_ifs at found with empty
    obtain rfl := Option.some.inj found
    exact fun none => empty (String.isEmpty_iff.mpr none)

/-- Tables by their names have names. -/
theorem ne_empty_of_mem_namedTables {names : List ObjectName} {table : String}
    (h : table ∈ namedTables names) : table ≠ "" := by
  rintro rfl
  exact Bool.false_ne_true (List.mem_filter.mp (mem_firsts.mp h)).2

/-- A second name is not empty and stands for a table of the statement. -/
theorem mem_aliases {statement : Statement} {pair : String × String}
    (h : pair ∈ statement.aliases) : pair.1 ≠ "" ∧ pair.2 ∈ statement.tables := by
  rcases Aliases.mem_insertAll h with given | before
  · obtain ⟨leaf, m, found⟩ := List.mem_filterMap.mp given
    -- a leaf with a second name has a table
    cases leaf with
    | other text => cases found
    | table name asName =>
      cases asName with
      | none => cases found
      | some asName =>
        rw [Leaf.alias?] at found
        split_ifs at found with empty
        obtain ⟨named, aliased⟩ := Bool.or_eq_false_iff.mp (Bool.eq_false_iff.mpr empty)
        cases found
        refine ⟨fun none => ?_, mem_firsts.mpr (List.mem_filterMap.mpr ⟨_, m, ?_⟩)⟩
        · rw [String.isEmpty_iff.mpr none] at aliased
          cases aliased
        · rw [Leaf.table?, named, if_neg Bool.false_ne_true]
  · cases before

/-! ## The kinds of statement -/

/-- The footprint of a statement that picks out rows is coherent. -/
theorem isCoherent_rowsFootprint {action : Action}
    (picks : action = .select ∨ action = .update ∨ action = .delete) (columns : List String)
    (statement : Statement) : (rowsFootprint action columns statement).IsCoherent where
  distinct := nodup_firsts _
  named _ := ne_empty_of_mem_leafTables
  aliases _ := mem_aliases
  primary table := by
    rcases picks with rfl | rfl | rfl <;> simp [rowsFootprint, Action.isMutation]
  rows _ := picks.imp (congrArg some) (Or.imp (congrArg some) (congrArg some))
  idle none := nomatch none

/-- The footprint of a statement about whole tables is coherent. -/
theorem isCoherent_tablesFootprint {action : Action} (whole : action.isMutation = false)
    (names : List ObjectName) (columns : List String) :
    (tablesFootprint action names columns).IsCoherent where
  distinct := nodup_firsts _
  named _ := ne_empty_of_mem_namedTables
  aliases _ m := nomatch m
  primary table := by
    constructor
    · intro some
      cases some
    · rintro ⟨update | delete, -⟩
      · rw [Option.some.inj update] at whole
        cases whole
      · rw [Option.some.inj delete] at whole
        cases whole
  rows given := (given.elim (· rfl) (· rfl)).elim
  idle none := nomatch none

/-- The footprint of every statement is coherent. -/
theorem isCoherent_footprint (statement : Statement) : statement.footprint.IsCoherent := by
  cases statement with
  | insert s => exact isCoherent_tablesFootprint rfl _ _
  | update s => exact isCoherent_rowsFootprint (.inr (.inl rfl)) _ _
  | delete s => exact isCoherent_rowsFootprint (.inr (.inr rfl)) _ _
  | query s => exact isCoherent_rowsFootprint (.inl rfl) _ _
  | alterTable s => exact isCoherent_tablesFootprint rfl _ _
  | createTable s => exact isCoherent_tablesFootprint rfl _ _
  | dropTable s => exact isCoherent_tablesFootprint rfl _ _
  | truncate s => exact isCoherent_tablesFootprint rfl _ _
  | other text =>
    exact
      { distinct := List.nodup_nil
        named := fun _ m => nomatch m
        aliases := fun _ m => nomatch m
        primary := fun table => by simp [Statement.footprint, Footprint.empty]
        rows := fun given => (given.elim (· rfl) (· rfl)).elim
        idle := fun _ => ⟨rfl, rfl, rfl, rfl⟩ }

end SqlFootprint
