import SqlFootprint.Proofs.Dump.Attribution
import SqlFootprint.Proofs.Filter.Carried
import SqlFootprint.Proofs.Footprint.Blocks

/-! # Tables of later blocks

The condition of a query is about the rows of its first block, while rows of the tables of all
blocks are saved. The command for a table of a later block carries what the splitter leaves of that
condition: the conditions that name the table, and those that name no table at all, since these may
be about any (`command_of_laterBlock`). Conditions that name other tables only are not carried. -/

namespace SqlFootprint

open Text Sql

namespace Dump

open SqlFootprint.Filter

/-- The command for a table that occurs only in later blocks carries, if it is not the only table,
the conditions of the first block that name it and those that mention no table, and none that
mentions other tables only. If it is the only table, the first block names none, and the command
carries its condition as it is. -/
theorem command_of_laterBlock {query : Query} {first : Select} {rest : List Select}
    (blocks : query.blocks = first :: rest) {table : String}
    (later : table ∈ leafTables (blockLeaves rest))
    (only : table ∉ leafTables (sourceLeaves first.sources)) (settings : Settings) :
    let statement := Statement.query query
    let filter := renderOrEmpty statement.aliases first.selection
    (plan settings statement.footprint).filter Line.isDirective =
        statement.tables.map (fun t => directive settings t (forTable filter t statement.tables)) ∧
      statement.tables.count table = 1 ∧
      (statement.tables = [table] →
        leafTables (sourceLeaves first.sources) = [] ∧
          forTable filter table statement.tables = filter) ∧
      (statement.tables ≠ [table] →
        ∃ carried : String → Bool,
          (∀ c, Names c table → carried c = true) ∧
          (∀ c, (∀ other ∈ statement.tables, ¬Mentions c other) → carried c = true) ∧
          (∀ c, ¬Mentions c table → (∃ other ∈ statement.tables, Mentions c other) →
            carried c = false) ∧
          forTable filter table statement.tables = conjunction.intercalate
            (((conditions filter).filter carried).map (withoutName table))) ∧
      ((∀ c ∈ conditions filter,
          ¬Mentions c table ∧ ∃ other ∈ statement.tables, Mentions c other) →
        directive settings table (forTable filter table statement.tables) =
          .directive ("mysqldump" ++ settings.connection.options ++ " " ++
            settings.connection.database ++ " " ++ table)) := by
  intro statement filter
  have listed : table ∈ statement.tables := (mem_tables_query blocks).mpr (Or.inr later)
  have once : statement.tables.count table = 1 := List.count_eq_one_of_mem (nodup_firsts _) listed
  have selection : statement.selection = first.selection := selection_query blocks
  refine ⟨?_, once, fun sole => ⟨?_, ?_⟩, fun ne => ?_, fun foreign => ?_⟩
  · have acts : statement.rowsAction? = some .select := rfl
    obtain ⟨head, others, cut⟩ := List.exists_cons_of_ne_nil (List.ne_nil_of_mem listed)
    rw [directives_of_rowsAction? acts cut settings, selection]
    rfl
  · -- a table of the first block would be listed, and it would not be this one
    refine List.eq_nil_iff_forall_not_mem.mpr fun other m => ?_
    have also : other ∈ statement.tables := (mem_tables_query blocks).mpr (Or.inl m)
    rw [sole] at also
    exact only (List.mem_singleton.mp also ▸ m)
  · rw [sole]
    exact forTable_of_length_le_one filter table (Nat.le_refl 1)
  · exact ⟨isCarried table statement.tables, fun c names => isCarried_of_names _ names,
      fun c none => isCarried_of_forall none, fun c own others => isCarried_eq_false own others,
      forTable_eq (one_lt_length_of_ne listed ne) filter⟩
  · rw [forTable_of_foreign listed foreign]
    simp [directive]

/-- The query for the rows of `users` that meet a condition, and those of `archived_users` with the
key 2. -/
def archiveUnion (condition : Expr) : Query :=
  let key : Expr := .binary (.name ⟨"id", none⟩) .eq (.literal (.number "2" false))
  .ofBody (.combined
    (.select (.ofSources [namedTable "users" (some "u")] (some condition))) .union ""
    (.select (.ofSources [namedTable "archived_users" none] (some key))))

/-- The condition `id = 1`. -/
def keyCondition : Expr := .binary (.name ⟨"id", none⟩) .eq (.literal (.number "1" false))

/-- The condition `u.id = 1 AND x = 2`. -/
def mixedCondition : Expr :=
  .binary
    (.binary (.dotted [⟨"u", none⟩, ⟨"id", none⟩]) .eq (.literal (.number "1" false))) .and
    (.binary (.name ⟨"x", none⟩) .eq (.literal (.number "2" false)))

/-- Of the condition `u.id = 1 AND x = 2`, the command for the later block carries `x=2`. -/
theorem command_archiveUnion :
    directive .default "archived_users" "x=2" ∈
      plan .default (Statement.query (archiveUnion mixedCondition)).footprint := by
  have tables : (Statement.query (archiveUnion mixedCondition)).tables =
      ["users", "archived_users"] := by
    decide +kernel
  have filter : renderOrEmpty (Statement.query (archiveUnion mixedCondition)).aliases
      (some mixedCondition) = "users.id=1 and x=2" := by
    decide +kernel
  have blocks : (archiveUnion mixedCondition).blocks =
      .ofSources [namedTable "users" (some "u")] (some mixedCondition) ::
        (archiveUnion mixedCondition).blocks.tail := rfl
  have later : "archived_users" ∈ leafTables
      (blockLeaves (archiveUnion mixedCondition).blocks.tail) := by
    decide
  obtain ⟨commands, -, -, several, -⟩ := command_of_laterBlock blocks later (by decide) .default
  rw [tables] at commands several
  obtain ⟨carried, -, unnamed, foreign, part⟩ := several (by decide)
  have pieces : conditions "users.id=1 and x=2" = ["users.id=1", "x=2"] := by decide +kernel
  have own : forTable (renderOrEmpty (Statement.query (archiveUnion mixedCondition)).aliases
      (some mixedCondition)) "archived_users" ["users", "archived_users"] = "x=2" := by
    refine part.trans ?_
    rw [show (Select.ofSources [namedTable "users" (some "u")] (some mixedCondition)).selection =
      some mixedCondition from rfl, filter, pieces, List.filter_cons_of_neg (by
        rw [foreign _ (by decide) ⟨"users", by decide⟩]
        exact Bool.false_ne_true),
      List.filter_cons_of_pos (unnamed _ (by decide))]
    rfl
  have m : directive .default "archived_users" "x=2" ∈
      (plan .default (Statement.query (archiveUnion mixedCondition)).footprint).filter
        Line.isDirective := by
    rw [commands]
    exact List.mem_map.mpr ⟨"archived_users", by decide, congrArg _ own⟩
  exact (List.mem_filter.mp m).1

/-- Whether the commands for the tables that occur only in later blocks carry nothing. -/
def CarriesNothing (settings : Settings) (query : Query) : Prop :=
  ∀ first rest, query.blocks = first :: rest → ∀ table ∈ leafTables (blockLeaves rest),
    table ∉ leafTables (sourceLeaves first.sources) →
      directive settings table "" ∈ plan settings (Statement.query query).footprint

/-- The condition `id = 1` of the first block is carried by the command for the later block. -/
theorem not_carriesNothing_archiveUnion :
    ¬CarriesNothing .default (archiveUnion keyCondition) := by
  intro h
  have := h _ _ rfl "archived_users" (by decide) (by decide)
  revert this
  decide +kernel

end Dump

end SqlFootprint
