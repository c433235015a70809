import Mathlib.Data.List.Nodup
import SqlFootprint.Footprint.Statement
import SqlFootprint.Proofs.Filter.Comparison

/-! # Statements over named tables

A statement that picks out rows of named tables by a conjunction of comparisons. Its tables, second
names and filter are read off its sources and its condition: the tables are the different tables of
the sources in their order, and a second name stands for the table of its source as long as no other
source has it (`Selects.table_eq`). -/

namespace SqlFootprint

open SqlFootprint.Filter Sql

/-! ## Different items -/

/-- The items found so far with the new ones among further items. -/
def firstsFrom (found items : List String) : List String :=
  items.foldl (fun found item => if found.contains item then found else found ++ [item]) found

theorem firstsFrom_cons (found : List String) (item : String) (items : List String) :
    firstsFrom found (item :: items) =
      firstsFrom (if found.contains item then found else found ++ [item]) items := rfl

/-- Nothing but the items given is found, and each of them is. -/
theorem mem_firstsFrom {item : String} {found items : List String} :
    item ∈ firstsFrom found items ↔ item ∈ found ∨ item ∈ items := by
  induction items generalizing found with
  | nil => simp [firstsFrom]
  | cons first rest ih =>
    rw [firstsFrom_cons, ih, List.mem_cons]
    split
    · -- an item that was found before is found without its second occurrence
      next known =>
      have mem : first ∈ found := List.contains_iff_mem.mp known
      constructor
      · rintro (m | m)
        · exact Or.inl m
        · exact Or.inr (Or.inr m)
      · rintro (m | rfl | m)
        · exact Or.inl m
        · exact Or.inl mem
        · exact Or.inr m
    · simp [or_assoc]

/-- What was found first stays in front. -/
theorem prefix_firstsFrom (found items : List String) : found <+: firstsFrom found items := by
  induction items generalizing found with
  | nil => exact List.prefix_rfl
  | cons first rest ih =>
    rw [firstsFrom_cons]
    split
    · exact ih found
    · exact (List.prefix_append found [first]).trans (ih _)

/-- Items that are all different are all found. -/
theorem firstsFrom_of_nodup {found items : List String} (h : (found ++ items).Nodup) :
    firstsFrom found items = found ++ items := by
  induction items generalizing found with
  | nil => simp [firstsFrom]
  | cons first rest ih =>
    have new : ¬found.contains first = true := by
      intro known
      have mem := List.contains_iff_mem.mp known
      exact (List.nodup_append.mp h).2.2 first mem first List.mem_cons_self rfl
    have assoc : found ++ first :: rest = found ++ [first] ++ rest := by simp
    rw [firstsFrom_cons, if_neg new, assoc]
    exact ih (assoc ▸ h)

/-- The items of a list are those found in it. -/
theorem mem_firsts {item : String} {items : List String} : item ∈ firsts items ↔ item ∈ items := by
  show item ∈ firstsFrom [] items ↔ _
  simp [mem_firstsFrom]

/-- The first item is found first. -/
theorem head?_firsts (item : String) (items : List String) :
    (firsts (item :: items)).head? = some item := by
  obtain ⟨rest, eq⟩ := prefix_firstsFrom [item] items
  show (firstsFrom [item] items).head? = _
  rw [← eq]
  rfl

/-- Different items are found as they are. -/
theorem firsts_of_nodup {items : List String} (h : items.Nodup) : firsts items = items :=
  firstsFrom_of_nodup h

/-! ## Second names given one after the other -/

namespace Aliases

/-- The second names so far with further ones given one after the other. -/
def insertAll (aliases : Aliases) (pairs : List (String × String)) : Aliases :=
  pairs.foldl (fun aliases (asName, table) => aliases.insert asName table) aliases

/-- A pair is new or was there before. -/
theorem mem_insert {asName table : String} {aliases : Aliases} {pair : String × String}
    (h : pair ∈ aliases.insert asName table) : pair = (asName, table) ∨ pair ∈ aliases := by
  induction aliases with
  | nil => exact Or.inl (List.mem_singleton.mp h)
  | cons first rest ih =>
    obtain ⟨key, value⟩ := first
    rw [insert] at h
    -- the new pair replaces the first one, goes in front of it, or goes further back
    split at h
    · rcases List.mem_cons.mp h with rfl | m
      · exact Or.inl rfl
      · exact Or.inr (List.mem_cons_of_mem _ m)
    · split at h
      · rcases List.mem_cons.mp h with rfl | m
        · exact Or.inl rfl
        · exact Or.inr m
      · rcases List.mem_cons.mp h with rfl | m
        · exact Or.inr List.mem_cons_self
        · rcases ih m with rfl | m
          · exact Or.inl rfl
          · exact Or.inr (List.mem_cons_of_mem _ m)

/-- A pair was given or was there before. -/
theorem mem_insertAll {pairs : List (String × String)} {aliases : Aliases} {pair : String × String}
    (h : pair ∈ aliases.insertAll pairs) : pair ∈ pairs ∨ pair ∈ aliases := by
  induction pairs generalizing aliases with
  | nil => exact Or.inr h
  | cons first rest ih =>
    rcases ih h with m | m
    · exact Or.inl (List.mem_cons_of_mem _ m)
    · rcases mem_insert m with rfl | m
      · exact Or.inl List.mem_cons_self
      · exact Or.inr m

/-- A second name that is not given again keeps its table. -/
theorem table?_insertAll_of_notMem {pairs : List (String × String)} {asName : String}
    (h : asName ∉ pairs.map Prod.fst) (aliases : Aliases) :
    (aliases.insertAll pairs).table? asName = aliases.table? asName := by
  induction pairs generalizing aliases with
  | nil => rfl
  | cons first rest ih =>
    obtain ⟨ne, hrest⟩ := not_or.mp (mt List.mem_cons.mpr h)
    show ((aliases.insert first.1 first.2).insertAll rest).table? asName = _
    rw [ih hrest, table?_insert, if_neg ne]

/-- A second name that is given once stands for its table. -/
theorem table?_insertAll_of_mem {pairs : List (String × String)}
    (distinct : (pairs.map Prod.fst).Nodup) {asName table : String} (h : (asName, table) ∈ pairs)
    (aliases : Aliases) : (aliases.insertAll pairs).table? asName = some table := by
  induction pairs generalizing aliases with
  | nil => cases h
  | cons first rest ih =>
    obtain ⟨new, hrest⟩ := List.nodup_cons.mp distinct
    show ((aliases.insert first.1 first.2).insertAll rest).table? asName = _
    rcases List.mem_cons.mp h with rfl | m
    · -- no later pair takes the second name away
      rw [table?_insertAll_of_notMem new, table?_insert, if_pos rfl]
    · exact ih hrest m _

end Aliases

/-! ## Named sources -/

/-- A named table with a second name of its own. -/
structure NamedSource where
  /-- The table. -/
  table : Word
  /-- The second name. -/
  asName : Word
  deriving DecidableEq

/-- The leaf of a named source. -/
def NamedSource.leaf (source : NamedSource) : Leaf := .table source.table (some source.asName)

/-- A plain word is not empty. -/
theorem isEmpty_word (w : Word) : w.1.isEmpty = false := by
  obtain ⟨c, cs, eq, -⟩ := exists_cons_of_isPlainWord w.2
  apply Bool.eq_false_iff.mpr
  intro empty
  rw [String.isEmpty_iff.mp empty] at eq
  cases eq

/-- A reading that succeeds on the leaf of every named source is made source by source. -/
theorem filterMap_leaf {β : Type} {read? : Leaf → Option β} {read : NamedSource → β}
    (h : ∀ source : NamedSource, read? source.leaf = some (read source))
    (sources : List NamedSource) :
    (sources.map NamedSource.leaf).filterMap read? = sources.map read := by
  have always : read? ∘ NamedSource.leaf = some ∘ read := funext h
  rw [List.filterMap_map, always, List.filterMap_eq_map]

/-- The tables of named sources. -/
theorem filterMap_table? (sources : List NamedSource) :
    (sources.map NamedSource.leaf).filterMap Leaf.table? = sources.map fun s => s.table.1 :=
  filterMap_leaf (fun source => by simp [NamedSource.leaf, Leaf.table?, isEmpty_word]) sources

/-- The second names of named sources with their tables. -/
theorem filterMap_alias? (sources : List NamedSource) :
    (sources.map NamedSource.leaf).filterMap Leaf.alias? =
      sources.map fun s => (s.asName.1, s.table.1) :=
  filterMap_leaf (fun source => by simp [NamedSource.leaf, Leaf.alias?, isEmpty_word]) sources

/-! ## Statements over named sources -/

/-- What a statement does that picks out rows of its sources by a condition. -/
def Sql.Statement.rowsAction? : Statement → Option Action
  | .update _ => some .update
  | .delete _ => some .delete
  | .query _ => some .select
  | _ => none

/-- A statement that picks out rows has a footprint of rows. -/
theorem footprint_of_rowsAction? {statement : Statement} {action : Action}
    (h : statement.rowsAction? = some action) :
    ∃ columns, statement.footprint = rowsFootprint action columns statement := by
  cases statement with
  | update s =>
    obtain rfl : Action.update = action := Option.some.inj h
    exact ⟨s.columns, rfl⟩
  | delete s =>
    obtain rfl : Action.delete = action := Option.some.inj h
    exact ⟨s.columns, rfl⟩
  | query s =>
    obtain rfl : Action.select = action := Option.some.inj h
    exact ⟨s.columns, rfl⟩
  | insert s => cases h
  | alterTable s => cases h
  | createTable s => cases h
  | dropTable s => cases h
  | truncate s => cases h
  | other text => cases h

/-- A statement picks out rows of named sources by a conjunction of comparisons with their columns.
No two sources have the same second name. -/
structure Selects (statement : Statement) (sources : List NamedSource)
    (condition : Conjunction Comparison) : Prop where
  /-- The sources are the leaves, from left to right. -/
  leaves : statement.leaves = sources.map NamedSource.leaf
  /-- The second names differ. -/
  distinct : (sources.map fun s => s.asName.1).Nodup
  /-- The conjunction is the condition. -/
  selection : statement.selection = some (condition.toExpr Comparison.toExpr)
  /-- Every comparison is with a column of one of the sources. -/
  known : ∀ comparison ∈ condition.items, ∃ source ∈ sources, source.asName = comparison.source

namespace Selects

variable {statement : Statement} {sources : List NamedSource} {condition : Conjunction Comparison}

section

variable (h : Selects statement sources condition)

include h

/-- The tables are the different tables of the sources. -/
theorem tables_eq : statement.tables = firsts (sources.map fun s => s.table.1) := by
  rw [Statement.tables, leafTables, h.leaves, filterMap_table?]

/-- There is a source, and its table comes first. -/
theorem exists_tables_eq_cons : ∃ first others rest,
    sources = first :: others ∧ statement.tables = first.table.1 :: rest := by
  cases sources with
  | nil =>
    -- the first comparison would be with no source
    obtain ⟨comparison, more, eq⟩ := List.exists_cons_of_ne_nil condition.items_ne_nil
    obtain ⟨source, mem, -⟩ := h.known comparison (eq ▸ List.mem_cons_self)
    cases mem
  | cons first others =>
    obtain ⟨rest, tables⟩ := List.head?_eq_some_iff.mp
      (head?_firsts first.table.1 (others.map fun s => s.table.1))
    exact ⟨first, others, rest, rfl, h.tables_eq.trans tables⟩

/-- A second name with its table comes from a source. -/
theorem exists_of_mem_aliases {pair : String × String} (m : pair ∈ statement.aliases) :
    ∃ source ∈ sources, (source.asName.1, source.table.1) = pair := by
  rw [Statement.aliases, leafAliases, h.leaves, filterMap_alias?] at m
  rcases Aliases.mem_insertAll m with given | before
  · exact List.mem_map.mp given
  · cases before

/-- The second names are plain words. -/
theorem plainAliases : PlainAliases statement.aliases := by
  intro pair m
  obtain ⟨source, -, rfl⟩ := h.exists_of_mem_aliases m
  exact source.asName.2

/-- The tables of the second names are plain words. -/
theorem plainTables : PlainTables statement.aliases := by
  intro pair m
  obtain ⟨source, -, rfl⟩ := h.exists_of_mem_aliases m
  exact source.table.2

/-- A comparison is about the table of its source. -/
theorem table_eq {source : NamedSource} (m : source ∈ sources) {comparison : Comparison}
    (same : source.asName = comparison.source) :
    comparison.table statement.aliases = source.table := by
  have given : (source.asName.1, source.table.1) ∈ sources.map fun s => (s.asName.1, s.table.1) :=
    List.mem_map_of_mem m
  have distinct : ((sources.map fun s => (s.asName.1, s.table.1)).map Prod.fst).Nodup := by
    rw [List.map_map]
    exact h.distinct
  have found : statement.aliases.table? comparison.source = some source.table.1 := by
    rw [Statement.aliases, leafAliases, h.leaves, filterMap_alias?, ← same]
    exact Aliases.table?_insertAll_of_mem distinct given []
  rw [Comparison.table, found, Option.getD_some]

/-- A comparison is about no table but the given one if its table ends with it, where this holds of
the source that the comparison is with. -/
theorem table_eq_of_suffix {comparison : Comparison} (m : comparison ∈ condition.items)
    {table : Word} (apart : ∀ source ∈ sources, source.asName = comparison.source →
      table.1.toList <:+ source.table.1.toList → source.table = table)
    (suffix : table.1.toList <:+ (comparison.table statement.aliases).toList) :
    comparison.table statement.aliases = table := by
  obtain ⟨source, mem, same⟩ := h.known comparison m
  rw [h.table_eq mem same] at suffix ⊢
  exact congrArg Subtype.val (apart source mem same suffix)

/-- A comparison is about one of the tables. -/
theorem table_mem {comparison : Comparison} (m : comparison ∈ condition.items) :
    comparison.table statement.aliases ∈ statement.tables := by
  obtain ⟨source, mem, same⟩ := h.known comparison m
  rw [h.table_eq mem same, h.tables_eq, mem_firsts]
  exact List.mem_map_of_mem mem

/-- The filter is the list of the comparisons, each with its table. -/
theorem filter_eq :
    renderOrEmpty statement.aliases statement.selection =
      conjunction.intercalate (condition.items.map (Comparison.resolved statement.aliases)) := by
  rw [h.selection, renderOrEmpty, render_conjunction h.plainTables h.plainAliases]

/-- Of two sources with the same second name, there is only one. -/
theorem eq_of_asName_eq {s t : NamedSource} (hs : s ∈ sources) (ht : t ∈ sources)
    (same : s.asName = t.asName) : s = t :=
  List.inj_on_of_nodup_map h.distinct hs ht (congrArg Subtype.val same)

end

end Selects

/-! ## Deletions -/

/-- A named source as it stands among the sources of a statement. -/
def NamedSource.toSource (source : NamedSource) : Source :=
  .table [⟨source.table, none⟩] [] (some ⟨⟨source.asName, none⟩, []⟩) []

/-- A deletion from the first of some named sources. -/
def deletion (sources : List NamedSource) (condition : Conjunction Comparison) : Statement :=
  .delete
    { targets := (sources.take 1).map fun s => [⟨s.asName, none⟩]
      sources := sources.map fun s => ⟨s.toSource, []⟩
      further := []
      selection := some (condition.toExpr Comparison.toExpr)
      returning := []
      order := []
      limit := none }

/-- A deletion picks out rows of its sources by its condition. -/
theorem selects_deletion {sources : List NamedSource} {condition : Conjunction Comparison}
    (distinct : (sources.map fun s => s.asName.1).Nodup)
    (known : ∀ comparison ∈ condition.items, ∃ source ∈ sources,
      source.asName = comparison.source) :
    Selects (deletion sources condition) sources condition where
  leaves := by
    have leaf (source : NamedSource) : JoinTree.leaves ⟨source.toSource, []⟩ = [source.leaf] := rfl
    show sourceLeaves (sources.map fun s => ⟨s.toSource, []⟩) ++ [] = _
    rw [sourceLeaves, List.append_nil, List.flatMap_map]
    simp only [leaf]
    exact List.map_eq_flatMap.symm
  distinct := distinct
  selection := rfl
  known := known

end SqlFootprint
