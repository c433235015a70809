import SqlFootprint.Proofs.Dump.Attribution
import SqlFootprint.Proofs.Filter.Reading

/-! # Which rows of the changed table are saved

A statement changes rows of its first source. The rows that are saved are those that meet every
comparison about the table of that source (`passes_forTable_iff`), whichever second name the
comparison uses: sources of the same table are not told apart. Hence a row that is changed is saved
unless it fails a comparison with another source of its table (`passes_first_iff`). -/

namespace SqlFootprint.Dump

open SqlFootprint.Filter Sql

/-! ## Rows that satisfy a condition -/

section

variable {V : Type} (meets : Comparator → V → Int → Bool)

/-- One row for each source satisfies a condition. The rows are given by the second names of the
sources, and `meets` tells how a value compares with a number. -/
def Satisfies (rows : Word → String → V) : Conjunction Comparison → Prop
  | .single comparison => comparison.reading.Meets meets (rows comparison.source)
  | .both left right => Satisfies rows left ∧ Satisfies rows right

/-- Rows satisfy a conjunction exactly if they meet each of its comparisons. -/
theorem satisfies_iff {rows : Word → String → V} {condition : Conjunction Comparison} :
    Satisfies meets rows condition ↔
      ∀ comparison ∈ condition.items, comparison.reading.Meets meets (rows comparison.source) := by
  induction condition with
  | single comparison => simp [Satisfies, Conjunction.items]
  | both left right ihl ihr =>
    rw [Satisfies, ihl, ihr, Conjunction.items, List.forall_mem_append]

end

/-! ## Rows that pass the filter of a table -/

section

variable {statement : Statement} {sources : List NamedSource} {condition : Conjunction Comparison}
variable {V : Type} (meets : Comparator → V → Int → Bool)

/-- A row of a table passes the part of the filter for that table exactly if it meets every
comparison about the table. -/
theorem passes_forTable_iff (h : Selects statement sources condition) {table : String}
    (mem : table ∈ statement.tables)
    (apart : ∀ comparison ∈ condition.items,
      table.toList <:+ (comparison.table statement.aliases).toList →
        comparison.table statement.aliases = table) (row : String → V) :
    Passes meets table row
        (forTable (renderOrEmpty statement.aliases statement.selection) table statement.tables) ↔
      ∀ comparison ∈ condition.items, comparison.table statement.aliases = table →
        comparison.reading.Meets meets row := by
  rw [h.filter_eq]
  by_cases several : 2 ≤ statement.tables.length
  · have space (comparison : Comparison) : ' ' ∉ comparison.condition.toList :=
      space_notMem (notMem_of_isClose comparison.isClose_condition).1
    rw [forTable_intercalate h.plainTables condition.items_ne_nil several
        (fun _ m => h.table_mem m) apart,
      passes_intercalate meets row (fun c _ => space c) fun c _ => readComparison?_condition]
    simp [List.mem_filter]
  · -- with a single table the filter stays as it is, and every comparison is about that table
    have single : ∀ comparison ∈ condition.items, comparison.table statement.aliases = table := by
      intro comparison m
      have known := h.table_mem m
      obtain ⟨only, eq⟩ : ∃ only, statement.tables = [only] :=
        List.length_eq_one_iff.mp (by have := List.length_pos_of_mem mem; omega)
      rw [eq, List.mem_singleton] at known mem
      rw [known, mem]
    have read : ∀ comparison ∈ condition.items,
        readComparison? table (comparison.resolved statement.aliases) =
          some comparison.reading := by
      intro comparison m
      rw [Comparison.resolved, single comparison m, readComparison?_qualifier]
    have space : ∀ comparison ∈ condition.items,
        ' ' ∉ (comparison.resolved statement.aliases).toList := fun comparison m =>
      space_notMem_resolved h.plainTables _ _ (List.mem_map_of_mem m)
    rw [forTable_of_length_le_one _ _ (by omega), passes_intercalate meets row space read]
    constructor
    · intro all comparison m _
      exact all comparison m
    · intro all comparison m
      exact all comparison m (single comparison m)

end

/-! ## Rows of the first source -/

/-- The only command of a statement that changes rows is for the table of its first source. -/
theorem directives_of_isMutation {statement : Statement} {first : NamedSource}
    {others : List NamedSource} {condition : Conjunction Comparison}
    (h : Selects statement (first :: others) condition) {action : Action}
    (acts : statement.rowsAction? = some action) (changes : action.isMutation = true)
    (settings : Settings) :
    (plan settings statement.footprint).filter Line.isDirective =
      [directive settings first.table (forTable
        (renderOrEmpty statement.aliases statement.selection) first.table statement.tables)] := by
  obtain ⟨source, more, rest, cut, tables⟩ := h.exists_tables_eq_cons
  obtain ⟨rfl, -⟩ := List.cons.inj cut
  rw [directives_of_rowsAction? acts tables, if_pos changes, List.map_singleton]

/-- Of rows that satisfy the condition, the row of the first source passes the filter of the only
command exactly if it also meets the comparisons with the other sources of its table. A comparison
with a source of another table is left out of the filter, as long as the name of that table does not
end with the name of the first. -/
theorem passes_first_iff {V : Type} (meets : Comparator → V → Int → Bool) {statement : Statement}
    {first : NamedSource} {others : List NamedSource} {condition : Conjunction Comparison}
    (h : Selects statement (first :: others) condition) {action : Action}
    (acts : statement.rowsAction? = some action) (changes : action.isMutation = true)
    (apart : ∀ comparison ∈ condition.items, ∀ other ∈ others, other.asName = comparison.source →
      first.table.1.toList <:+ other.table.1.toList → other.table = first.table)
    (settings : Settings) (rows : Word → String → V) (satisfied : Satisfies meets rows condition) :
    ∃ filter, (plan settings statement.footprint).filter Line.isDirective =
        [directive settings first.table filter] ∧
      (Passes meets first.table (rows first.asName) filter ↔
        ∀ comparison ∈ condition.items, ∀ twin ∈ others, twin.table = first.table →
          twin.asName = comparison.source →
            comparison.reading.Meets meets (rows first.asName)) := by
  refine ⟨_, directives_of_isMutation h acts changes settings, ?_⟩
  -- the filter asks for all comparisons about the table, whichever source they are with
  have mem : first.table.1 ∈ statement.tables := by
    rw [h.tables_eq, mem_firsts]
    exact List.mem_cons_self
  have ends : ∀ comparison ∈ condition.items,
      first.table.1.toList <:+ (comparison.table statement.aliases).toList →
        comparison.table statement.aliases = first.table := by
    intro comparison m
    refine h.table_eq_of_suffix m fun source known same suffix => ?_
    rcases List.mem_cons.mp known with rfl | other
    · rfl
    · exact apart comparison m source other same suffix
  rw [passes_forTable_iff meets h mem ends]
  constructor
  · -- a comparison with another source of the table is about the table as well
    intro all comparison m twin known table same
    apply all comparison m
    rw [h.table_eq (List.mem_cons_of_mem first known) same, table]
  · intro twins comparison m table
    obtain ⟨source, known, same⟩ := h.known comparison m
    rw [h.table_eq known same] at table
    rcases List.mem_cons.mp known with rfl | other
    · -- the comparison is with the first source itself, whose row satisfies the condition
      have own := (satisfies_iff meets).mp satisfied comparison m
      rw [← same] at own
      exact own
    · exact twins comparison m source other (Subtype.ext table) same

/-! ## Two sources of one table -/

/-- The table `employees` under two names. -/
def twinSources : List NamedSource :=
  [⟨⟨"employees", by decide⟩, ⟨"e", by decide⟩⟩, ⟨⟨"employees", by decide⟩, ⟨"m", by decide⟩⟩]

/-- The condition `e.level<3 AND m.level=5`. -/
def twinConjunction : Conjunction Comparison :=
  let three : WholeNumber := ⟨false, "3", by decide, by decide⟩
  let five : WholeNumber := ⟨false, "5", by decide, by decide⟩
  .both (.single ⟨⟨"e", by decide⟩, ⟨"level", by decide⟩, .lt, three⟩)
    (.single ⟨⟨"m", by decide⟩, ⟨"level", by decide⟩, .eq, five⟩)

/-- The first source has a row of the first level, the second one of the fifth. -/
def twinRows (asName : Word) (_ : String) : Int := if asName.1 = "m" then 5 else 1

/-- The row of the first source, which is removed, would have to meet the comparison with the other
row as well. -/
theorem passes_first_iff_twin :
    ∃ filter, (plan .default (deletion twinSources twinConjunction).footprint).filter
        Line.isDirective = [directive .default "employees" filter] ∧
      (Passes Comparator.compare "employees" (twinRows ⟨"e", by decide⟩) filter ↔
        ∀ comparison ∈ twinConjunction.items, ∀ twin ∈ twinSources.tail,
          twin.table = ⟨"employees", by decide⟩ → twin.asName = comparison.source →
            comparison.reading.Meets Comparator.compare (twinRows ⟨"e", by decide⟩)) :=
  passes_first_iff Comparator.compare (selects_deletion (by decide) (by decide)) rfl rfl
    (by decide) .default twinRows ⟨rfl, rfl⟩

/-- A row that is removed need not be saved: the row of the first source does not pass the filter
that comes from the comparison with the second. -/
theorem not_passes_twin :
    Satisfies Comparator.compare twinRows twinConjunction ∧
      (plan .default (deletion twinSources twinConjunction).footprint).filter Line.isDirective =
        [directive .default "employees" "employees.level<3 and employees.level=5"] ∧
      ¬Passes Comparator.compare "employees" (twinRows ⟨"e", by decide⟩)
        "employees.level<3 and employees.level=5" := by
  refine ⟨⟨rfl, rfl⟩, rfl, ?_⟩
  rintro (empty | ⟨readings, read, all⟩)
  · exact absurd empty (by decide)
  · obtain rfl : [⟨"level", .lt, 3⟩, ⟨"level", .eq, 5⟩] = readings := Option.some.inj read
    have meets : (1 : Int) = 5 := of_decide_eq_true (all ⟨"level", .eq, 5⟩ (by decide))
    omega

end SqlFootprint.Dump
