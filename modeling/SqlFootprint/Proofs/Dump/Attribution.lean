import SqlFootprint.Dump.Plan
import SqlFootprint.Proofs.Footprint.NamedSources

/-! # Which comparisons a command saves rows by

Of a plan only the commands save rows, one for each exported table (`directives_plan`). For a
statement over tables with different names, the command for a table filters by the comparisons with
that table and by nothing else (`directives_of_selects`), although the plan is made from the text of
the whole condition. -/

namespace SqlFootprint.Dump

open SqlFootprint.Filter Sql

/-! ## The commands of a plan -/

/-- The remarks on exact rows are no commands. -/
theorem filter_exactRows (settings : Settings) (table : String) (tables : List String)
    (filter : String) : (exactRows settings table tables filter).filter Line.isDirective = [] :=
  rfl

/-- There is one command for each exported table, with the part of the filter for that table. -/
theorem directives_plan (settings : Settings) {footprint : Footprint}
    (h : footprint.tables.isEmpty = false) :
    (plan settings footprint).filter Line.isDirective =
      (exported footprint).map fun table =>
        directive settings table (forTable footprint.filter table footprint.tables) := by
  have one (table : String) : (tablePlan settings footprint table).filter Line.isDirective =
      [directive settings table (forTable footprint.filter table footprint.tables)] := by
    unfold tablePlan
    rw [List.filter_append]
    -- remarks may stand in front of the command
    split
    · rw [filter_exactRows]
      rfl
    · rfl
  rw [plan, h, if_neg Bool.false_ne_true, List.filter_flatMap, List.map_eq_flatMap]
  exact congrArg (List.flatMap · _) (funext one)

/-- A statement that changes rows exports its first table, and any other that picks out rows all. -/
theorem exported_rowsFootprint (action : Action) (columns : List String) {statement : Statement}
    {first : String} {rest : List String} (h : statement.tables = first :: rest) :
    exported (rowsFootprint action columns statement) =
      if action.isMutation then [first] else statement.tables := by
  cases action <;> simp [exported, rowsFootprint, Footprint.isMutation, Action.isMutation, h]

/-- A statement that picks out rows has one command for each table it exports, with the part of its
condition for that table. -/
theorem directives_of_rowsAction? {statement : Statement} {action : Action}
    (acts : statement.rowsAction? = some action) {first : String} {rest : List String}
    (h : statement.tables = first :: rest) (settings : Settings) :
    (plan settings statement.footprint).filter Line.isDirective =
      (if action.isMutation then [first] else statement.tables).map fun table =>
        directive settings table (forTable
          (renderOrEmpty statement.aliases statement.selection) table statement.tables) := by
  obtain ⟨columns, footprint⟩ := footprint_of_rowsAction? acts
  have nonempty : (rowsFootprint action columns statement).tables.isEmpty = false := by
    show statement.tables.isEmpty = false
    rw [h]
    rfl
  rw [footprint, directives_plan settings nonempty, exported_rowsFootprint action columns h]
  rfl

/-! ## Statements over different tables -/

/-- The command that saves the rows of a source that meet some comparisons. -/
def command (settings : Settings) (source : NamedSource) (own : List Comparison) : Line :=
  let condition :=
    match own with
    | [] => ""
    | own => " --where=\"" ++ " and ".intercalate (own.map Comparison.condition) ++ "\""
  .directive ("mysqldump" ++ settings.connection.options ++ condition ++ " " ++
    settings.connection.database ++ " " ++ source.table)

/-- A filter made of comparisons is absent exactly if there are none. -/
theorem directive_intercalate (settings : Settings) (source : NamedSource)
    (own : List Comparison) :
    directive settings source.table (conjunction.intercalate (own.map Comparison.condition)) =
      command settings source own := by
  have empty : (conjunction.intercalate (own.map Comparison.condition)).isEmpty =
      (own.map Comparison.condition).isEmpty := by
    apply isEmpty_intercalate
    intro text m
    obtain ⟨comparison, -, rfl⟩ := List.mem_map.mp m
    exact comparison.condition_ne_empty
  unfold directive
  rw [empty]
  cases own with
  | nil => rfl
  | cons first rest => rfl

/-- The sources whose tables are exported: of a statement that changes rows the first, of any other
statement all. -/
def exportedSources (action : Action) (sources : List NamedSource) : List NamedSource :=
  if action.isMutation then sources.take 1 else sources

section

variable {statement : Statement} {sources : List NamedSource} {condition : Conjunction Comparison}

/-- Where tables differ, the comparisons about a table are those with its source. -/
theorem table_eq_iff (h : Selects statement sources condition)
    (different : (sources.map fun s => s.table.1).Nodup) {source : NamedSource}
    (m : source ∈ sources) {comparison : Comparison} (mem : comparison ∈ condition.items) :
    comparison.table statement.aliases = source.table ↔ comparison.source = source.asName := by
  obtain ⟨other, mother, same⟩ := h.known comparison mem
  rw [h.table_eq mother same, ← same]
  -- tables differ and so do second names: either of them tells the source
  constructor
  · intro eq
    rw [List.inj_on_of_nodup_map different mother m eq]
  · intro eq
    rw [h.eq_of_asName_eq mother m eq]

/-- The part of the filter for the table of a source is the list of the comparisons with it. -/
theorem forTable_of_selects (h : Selects statement sources condition) (two : 2 ≤ sources.length)
    (different : (sources.map fun s => s.table.1).Nodup)
    (apart : ∀ s ∈ sources, ∀ t ∈ sources, s.table.1.toList <:+ t.table.1.toList →
      s.table = t.table) {source : NamedSource} (m : source ∈ sources) :
    forTable (renderOrEmpty statement.aliases statement.selection) source.table statement.tables =
      conjunction.intercalate
        ((condition.items.filter (·.source = source.asName)).map Comparison.condition) := by
  have tables : statement.tables = sources.map fun s => s.table.1 := by
    rw [h.tables_eq, firsts_of_nodup different]
  have several : 2 ≤ statement.tables.length := by
    rw [tables, List.length_map]
    exact two
  have ends : ∀ comparison ∈ condition.items,
      source.table.1.toList <:+ (comparison.table statement.aliases).toList →
        comparison.table statement.aliases = source.table := fun _ mem =>
    h.table_eq_of_suffix mem fun other mother _ suffix => (apart source m other mother suffix).symm
  have own : condition.items.filter (·.table statement.aliases = source.table.1) =
      condition.items.filter (·.source = source.asName) :=
    List.filter_congr fun comparison mem => by simp only [table_eq_iff h different m mem]
  rw [h.filter_eq, forTable_intercalate h.plainTables condition.items_ne_nil several
    (fun _ mem => h.table_mem mem) ends, own]

end

/-- Every command filters by the comparisons with its own source and no others, in their order and
without the name of the table, and has no filter exactly if there are none. Tables differ, and the
name of none ends with that of another; a second name may be the name of another table. -/
theorem directives_of_selects {statement : Statement} {sources : List NamedSource}
    {condition : Conjunction Comparison} (h : Selects statement sources condition)
    (two : 2 ≤ sources.length)
    (different : (sources.map fun s => s.table.1).Nodup)
    (apart : ∀ s ∈ sources, ∀ t ∈ sources, s.table.1.toList <:+ t.table.1.toList →
      s.table = t.table) {action : Action} (acts : statement.rowsAction? = some action)
    (settings : Settings) :
    (plan settings statement.footprint).filter Line.isDirective =
      (exportedSources action sources).map fun source =>
        command settings source (condition.items.filter (·.source = source.asName)) := by
  obtain ⟨first, others, rest, cut, head⟩ := h.exists_tables_eq_cons
  have tables : statement.tables = sources.map fun s => s.table.1 := by
    rw [h.tables_eq, firsts_of_nodup different]
  -- tables are exported as their sources come, since no table comes twice
  have exports : (if action.isMutation then [first.table.1] else statement.tables) =
      (exportedSources action sources).map fun s => s.table.1 := by
    rw [exportedSources]
    by_cases changes : action.isMutation = true
    · rw [if_pos changes, if_pos changes, cut]
      rfl
    · rw [if_neg changes, if_neg changes, tables]
  rw [directives_of_rowsAction? acts head, exports, List.map_map]
  refine List.map_congr_left fun source m => ?_
  have mem : source ∈ sources := by
    unfold exportedSources at m
    split at m
    · exact List.mem_of_mem_take m
    · exact m
  show directive settings source.table (forTable (renderOrEmpty statement.aliases
    statement.selection) source.table statement.tables) = _
  rw [forTable_of_selects h two different apart mem, directive_intercalate]

/-! ## Second names that are each other's tables -/

/-- The settings of which nothing is said. -/
def Settings.default : Settings := ⟨Connection.default, defaultKeyColumn, defaultTempDir⟩

/-- The tables `users` and `posts`, each under the name of the other. -/
def crossedSources : List NamedSource :=
  [⟨⟨"users", by decide⟩, ⟨"posts", by decide⟩⟩, ⟨⟨"posts", by decide⟩, ⟨"users", by decide⟩⟩]

/-- The condition `posts.x=1 AND (users.y<2 AND posts.z<=>4)`. -/
def crossedConjunction : Conjunction Comparison :=
  let one : WholeNumber := ⟨false, "1", by decide, by decide⟩
  let two : WholeNumber := ⟨false, "2", by decide, by decide⟩
  let four : WholeNumber := ⟨false, "4", by decide, by decide⟩
  .both (.single ⟨⟨"posts", by decide⟩, ⟨"x", by decide⟩, .eq, one⟩)
    (.both (.single ⟨⟨"users", by decide⟩, ⟨"y", by decide⟩, .lt, two⟩)
      (.single ⟨⟨"posts", by decide⟩, ⟨"z", by decide⟩, .nullSafeEq, four⟩))

/-- The deletion from `users` saves the rows with `x=1 and z<=>4`. -/
theorem directives_crossed :
    (plan .default (deletion crossedSources crossedConjunction).footprint).filter
        Line.isDirective =
      [.directive "mysqldump --where=\"x=1 and z<=>4\" database_name users"] := by
  have selects : Selects (deletion crossedSources crossedConjunction) crossedSources
      crossedConjunction := selects_deletion (by decide) (by decide)
  rw [directives_of_selects selects (by decide) (by decide) (by decide) rfl .default]
  rfl

end SqlFootprint.Dump
