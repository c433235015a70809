import SqlFootprint.Proofs.Dump.Attribution
import SqlFootprint.Proofs.Footprint.Coherence

/-! # The layout of a plan

Between the footprint of a statement and the commands that are run lies a choice of tables, and for
each of them the choice whether remarks are made. For the footprint of a statement there are only
three outcomes (`IsLayout`): a remark that there is nothing to save, the command for the table that
the statement works on with its remarks or without, and the commands for all tables. -/

namespace SqlFootprint.Dump

open SqlFootprint.Filter Sql

/-- The command for a table, with the part of the condition that is about it. -/
def commandFor (settings : Settings) (footprint : Footprint) (table : String) : Line :=
  directive settings table (forTable footprint.filter table footprint.tables)

/-- The outcomes of planning for a footprint. -/
inductive IsLayout (settings : Settings) (footprint : Footprint) : List Line → Prop where
  /-- Without tables, there is one remark that says so. -/
  | nothing (none : footprint.tables = []) :
    IsLayout settings footprint [.note "No tables found in SQL statement"]
  /-- A statement that changes or removes rows has the command for its first table, with no remarks
  in front of it or seven. -/
  | first {table : String} {others : List String} {remarks : List String}
    (listed : footprint.tables = table :: others)
    (changes : footprint.action = some .update ∨ footprint.action = some .delete)
    (count : remarks.length = 0 ∨ remarks.length = 7) :
    IsLayout settings footprint (remarks.map Line.note ++ [commandFor settings footprint table])
  /-- Any other statement has one command for each table, in their order. -/
  | every (nonempty : footprint.tables ≠ [])
    (keeps : footprint.action ≠ some .update ∧ footprint.action ≠ some .delete) :
    IsLayout settings footprint (footprint.tables.map (commandFor settings footprint))

/-- The remarks on exact rows are seven. -/
theorem exists_remarks_exactRows (settings : Settings) (table : String) (tables : List String)
    (filter : String) : ∃ remarks : List String,
      exactRows settings table tables filter = remarks.map Line.note ∧ remarks.length = 7 :=
  ⟨[_, _, _, _, _, _, _], rfl, rfl⟩

/-- Whether an action changes rows that are there. -/
theorem isMutation_iff {footprint : Footprint} : footprint.isMutation = true ↔
    footprint.action = some .update ∨ footprint.action = some .delete := by
  unfold Footprint.isMutation
  cases footprint.action with
  | none => simp
  | some action => cases action <;> simp [Action.isMutation]

/-- A statement that changes or removes rows has the command for its first table behind the remarks
that are made. -/
theorem plan_of_isMutation (settings : Settings) {footprint : Footprint}
    (changes : footprint.isMutation = true) {table : String} {others : List String}
    (listed : footprint.tables = table :: others) (primary : footprint.primary = some table) :
    plan settings footprint =
      (if isNarrowed footprint table then
        exactRows settings table footprint.tables footprint.filter else []) ++
      [commandFor settings footprint table] := by
  have exports : exported footprint = [table] := by rw [exported, changes, primary]
  have nonempty : footprint.tables.isEmpty = false := by rw [listed]; rfl
  rw [plan, nonempty, if_neg Bool.false_ne_true, exports, List.flatMap_singleton]
  rfl

/-- A statement that keeps all rows has one command for each table. -/
theorem plan_of_not_isMutation (settings : Settings) {footprint : Footprint}
    (keeps : footprint.isMutation = false) (nonempty : footprint.tables ≠ []) :
    plan settings footprint = footprint.tables.map (commandFor settings footprint) := by
  have exports : exported footprint = footprint.tables := by rw [exported, keeps]
  have each : tablePlan settings footprint =
      fun table => [commandFor settings footprint table] := by
    funext table
    simp [tablePlan, isNarrowed, keeps, commandFor]
  have listed : footprint.tables.isEmpty = false := by simpa using nonempty
  rw [plan, listed, if_neg Bool.false_ne_true, exports, each, List.map_eq_flatMap]

/-- The plan for a coherent footprint has one of the three outcomes. -/
theorem isLayout_of_isCoherent (settings : Settings) {footprint : Footprint}
    (coherent : footprint.IsCoherent) : IsLayout settings footprint (plan settings footprint) := by
  cases listed : footprint.tables with
  | nil =>
    rw [plan, listed]
    exact .nothing listed
  | cons table others =>
    by_cases changes : footprint.isMutation = true
    · have primary : footprint.primary = some table :=
        (coherent.primary table).mpr ⟨isMutation_iff.mp changes, by rw [listed]; rfl⟩
      rw [plan_of_isMutation settings changes listed primary]
      split
      · obtain ⟨remarks, eq, seven⟩ :=
          exists_remarks_exactRows settings table footprint.tables footprint.filter
        rw [eq]
        exact .first listed (isMutation_iff.mp changes) (.inr seven)
      · have none : ([] : List String).length = 0 ∨ ([] : List String).length = 7 := .inl rfl
        exact .first listed (isMutation_iff.mp changes) none
    · have nonempty : footprint.tables ≠ [] := by rw [listed]; exact List.cons_ne_nil table others
      rw [plan_of_not_isMutation settings (Bool.eq_false_iff.mpr changes) nonempty]
      exact .every nonempty (not_or.mp (mt isMutation_iff.mpr changes))

/-- With tables, the last line of every outcome is a command. -/
theorem IsLayout.getLast_isDirective {settings : Settings} {footprint : Footprint}
    {lines : List Line} (h : IsLayout settings footprint lines) :
    footprint.tables = [] ∨ ∃ line, lines.getLast? = some line ∧ line.isDirective = true := by
  cases h with
  | nothing none => exact .inl none
  | first listed changes count => exact .inr ⟨_, List.getLast?_concat, rfl⟩
  | every nonempty keeps =>
    refine .inr ⟨commandFor settings footprint (footprint.tables.getLast nonempty), ?_, rfl⟩
    rw [List.getLast?_map, List.getLast?_eq_some_getLast nonempty]
    rfl

/-- The plan for the footprint of a statement has one of the three outcomes; no table is listed
twice, so that none is saved twice, and with tables the last line is a command. -/
theorem isLayout_plan (settings : Settings) (statement : Statement) :
    IsLayout settings statement.footprint (plan settings statement.footprint) ∧
      statement.footprint.tables.Nodup ∧
      (statement.footprint.tables = [] ∨ ∃ line,
        (plan settings statement.footprint).getLast? = some line ∧ line.isDirective = true) := by
  have coherent := isCoherent_footprint statement
  have layout := isLayout_of_isCoherent settings coherent
  exact ⟨layout, coherent.distinct, layout.getLast_isDirective⟩

end SqlFootprint.Dump
