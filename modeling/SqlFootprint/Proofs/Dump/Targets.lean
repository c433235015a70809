import SqlFootprint.Batch
import SqlFootprint.Proofs.Dump.Attribution
import SqlFootprint.Proofs.Footprint.Blocks

/-! # Targets of deletions

A deletion may name the tables it removes rows from, but only rows of its first table are saved. If
the first of the targets is another table, there is a warning, and if all targets are the first
table, there is none (`warnings_delete`). Sources are no targets, even those that stand in front of
`USING`. -/

namespace SqlFootprint.Dump

open SqlFootprint.Filter Sql

/-! ## Warnings -/

/-- The texts of the warnings among events. -/
def warnings (events : List Event) : List String :=
  (events.filter (·.level = .warn)).map Event.text

theorem warnings_append (before after : List Event) :
    warnings (before ++ after) = warnings before ++ warnings after := by
  simp [warnings]

/-- Details are no warnings. -/
theorem warnings_debug (texts : List String) : warnings (texts.map (Event.mk .debug)) = [] := by
  simp [warnings]

theorem warnings_warn (texts : List String) : warnings (texts.map (Event.mk .warn)) = texts := by
  induction texts with
  | nil => rfl
  | cons text texts ih => exact congrArg (text :: ·) ih

/-- A statement is warned of at most once. -/
theorem warnings_events (statement : Statement) :
    warnings statement.events = statement.warning?.toList := by
  have told : warnings [⟨.debug, statement.footprint.told⟩] = [] := rfl
  rw [Statement.events, warnings_append, warnings_append, warnings_append, warnings_append, told,
    warnings_debug, warnings_debug, warnings_debug, warnings_warn, List.nil_append,
    List.append_nil, List.append_nil, List.append_nil]

/-- The warnings of an analysis are those of its statements, in their order. -/
theorem warnings_analyzeEvents {sql : String} {statements : List Statement}
    (h : Batch.read sql = .ok statements) :
    warnings (Batch.analyzeEvents sql) = statements.filterMap Statement.warning? := by
  have each : warnings (statements.flatMap Statement.events) =
      statements.filterMap Statement.warning? := by
    clear h
    induction statements with
    | nil => rfl
    | cons statement statements ih =>
      rw [List.flatMap_cons, warnings_append, warnings_events, ih, List.filterMap_cons]
      cases statement.warning? <;> rfl
  rw [Batch.analyzeEvents, h]
  dsimp only
  rw [warnings_append, ← List.singleton_append, warnings_append, each]
  exact List.append_nil _

/-! ## Targets -/

section

variable (delete : Delete)

/-- The table that a name in a deletion stands for: that of the last source with this second name,
or else the table of this name. -/
def tableBehind (name : String) : String :=
  (((Statement.delete delete).leaves.filterMap Leaf.alias?).reverse.lookup name).getD name

/-- The tables that a deletion names between `DELETE` and `FROM`. -/
def targetTables : List String :=
  delete.targets.map fun target => tableBehind delete (ObjectName.lastPart target)

/-- The warning of a target that is not the table whose rows are saved. -/
def mismatch (target saved : String) : String :=
  "DELETE target '" ++ target ++ "' differs from first joined table '" ++ saved ++ "'; dumping '" ++
    saved ++ "'"

/-- A deletion without a table or without a target is not warned of. -/
theorem warning?_of_none
    (h : (targetTables delete).head? = none ∨ (Statement.delete delete).tables.head? = none) :
    delete.warning? = none := by
  rw [targetTables, List.head?_map, Option.map_eq_none_iff] at h
  unfold Delete.warning?
  dsimp only
  split
  · next target saved first tables =>
    rcases h with none | none
    · exact absurd (first.symm.trans none) nofun
    · exact absurd (tables.symm.trans none) nofun
  · rfl

/-- A deletion with a target and a table is warned of if they differ. -/
theorem warning?_of_some {target saved : String} (first : (targetTables delete).head? = some target)
    (tables : (Statement.delete delete).tables.head? = some saved) :
    delete.warning? = if saved = target then none else some (mismatch target saved) := by
  rw [targetTables, List.head?_map] at first
  obtain ⟨name, named, rfl⟩ := Option.map_eq_some_iff.mp first
  unfold Delete.warning?
  rw [tableBehind, ← table?_leafAliases]
  dsimp only
  rw [named, tables]
  rfl

/-- What is warned of in a deletion of which the rows of a table are saved. -/
structure Flags (saved : String) (texts : List String) : Prop where
  /-- If the first target is another table, the only warning names both. -/
  other : ∀ target, (targetTables delete).head? = some target → target ≠ saved →
    texts = [mismatch target saved]
  /-- If all targets are this table, there is none. -/
  same : (∀ target ∈ targetTables delete, target = saved) → texts = []

theorem flags_of_head? {saved : String}
    (tables : (Statement.delete delete).tables.head? = some saved) :
    Flags delete saved delete.warning?.toList where
  other target first ne := by
    rw [warning?_of_some delete first tables, if_neg ne.symm]
    rfl
  same all := by
    cases first : (targetTables delete).head? with
    | none =>
      rw [warning?_of_none delete (.inl first)]
      rfl
    | some target =>
      rw [warning?_of_some delete first tables,
        if_pos (all target (List.mem_of_head? first)).symm]
      rfl

/-- A deletion saves rows of its first table only; it is warned of if its first target is another
table, and it is not if all its targets are this one. Without a table nothing is saved, of which
a remark tells but no warning. -/
theorem warnings_delete (settings : Settings) :
    let statement := Statement.delete delete
    (statement.tables = [] → warnings statement.events = [] ∧
      plan settings statement.footprint = [.note "No tables found in SQL statement"]) ∧
    ∀ saved others, statement.tables = saved :: others →
      Flags delete saved (warnings statement.events) ∧
      (plan settings statement.footprint).filter Line.isDirective =
        [directive settings saved (forTable
          (renderOrEmpty statement.aliases statement.selection) saved statement.tables)] := by
  intro statement
  have warned : warnings statement.events = delete.warning?.toList := warnings_events statement
  rw [warned]
  constructor
  · intro none
    have untabled : statement.footprint.tables = [] := none
    rw [warning?_of_none delete (.inr (List.head?_eq_none_iff.mpr none)), plan, untabled]
    exact ⟨rfl, rfl⟩
  · intro saved others tables
    have first : statement.tables.head? = some saved := List.head?_eq_some_iff.mpr ⟨others, tables⟩
    have acts : statement.rowsAction? = some .delete := rfl
    exact ⟨flags_of_head? delete first, directives_of_rowsAction? acts tables settings⟩

end

/-! ## Two tables -/

/-- A deletion of all rows of some targets. -/
def deletionOf (targets : List String) (sources further : List JoinTree) : Delete where
  targets := targets.map fun name => [⟨name, none⟩]
  sources
  further
  selection := none
  returning := []
  order := []
  limit := none

/-- The table `users` as `u` and the table `posts` as `p`. -/
def usersAndPosts : List JoinTree := [namedTable "users" (some "u"), namedTable "posts" (some "p")]

/-- `DELETE p FROM users u, posts p` is warned of, and `DELETE u, users FROM users u, posts p` is
not. -/
theorem warnings_usersAndPosts :
    (warnings (Statement.delete (deletionOf ["p"] usersAndPosts [])).events =
        [mismatch "posts" "users"] ∧
      (plan .default (Statement.delete (deletionOf ["p"] usersAndPosts [])).footprint).filter
          Line.isDirective = [.directive "mysqldump database_name users"]) ∧
      warnings (Statement.delete (deletionOf ["u", "users"] usersAndPosts [])).events = [] := by
  obtain ⟨flags, saves⟩ :=
    (warnings_delete (deletionOf ["p"] usersAndPosts []) .default).2 "users" ["posts"] rfl
  obtain ⟨own, -⟩ :=
    (warnings_delete (deletionOf ["u", "users"] usersAndPosts []) .default).2 "users" ["posts"] rfl
  exact ⟨⟨flags.other "posts" rfl (by decide), saves⟩, own.same (by decide)⟩

/-- The tables that a deletion names to remove rows from: between `DELETE` and `FROM`, or between
`FROM` and `USING`. -/
def removedTables (delete : Delete) : List String :=
  targetTables delete ++ if delete.further.isEmpty then [] else
    (leafTables (sourceLeaves delete.sources)).map (tableBehind delete)

/-- `DELETE FROM users, posts USING users, posts` is not warned of, although rows of `posts` are
removed and those of `users` are saved. -/
theorem not_warned_using :
    ¬∀ (delete : Delete) (saved : String), (Statement.delete delete).tables.head? = some saved →
      (∃ table ∈ removedTables delete, table ≠ saved) →
        warnings (Statement.delete delete).events ≠ [] := by
  intro warned
  let sources := [namedTable "users" none, namedTable "posts" none]
  have other : ∃ table ∈ removedTables (deletionOf [] sources sources), table ≠ "users" :=
    ⟨"posts", by decide, by decide⟩
  exact warned (deletionOf [] sources sources) "users" rfl other rfl

end SqlFootprint.Dump
