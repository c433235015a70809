import SqlFootprint.Proofs.Dump.Attribution
import SqlFootprint.Proofs.Filter.Provenance
import SqlFootprint.Proofs.Footprint.Coherence
import SqlFootprint.Proofs.Text.ShellCommand

/-! # Commands as a shell reads them

A command is meant to hand over the filter for a table as one word, with the names of the database
and of the table behind it. The filter stands between double quotes as it is. So the shell hands
over what is meant exactly if the filter is literal between double quotes and the names need none
(`readsAs_of_mem_plan`). -/

namespace SqlFootprint.Dump

open Text Sql

/-- The words that are meant to stand behind the options of a command. -/
def meantWords (settings : Settings) (table filter : String) : List String :=
  (if filter.isEmpty then [] else ["--where=" ++ filter]) ++ [settings.connection.database, table]

/-- The text behind the options of a command. -/
def arguments (settings : Settings) (table filter : String) : String :=
  (if filter.isEmpty then "" else " --where=\"" ++ filter ++ "\"") ++ " " ++
    settings.connection.database ++ " " ++ table

/-- The text up to the options of a command. -/
def opening (settings : Settings) : String := "mysqldump" ++ settings.connection.options

/-- A command is its opening and its arguments. -/
theorem directive_eq (settings : Settings) (table filter : String) :
    directive settings table filter =
      .directive (opening settings ++ arguments settings table filter) := by
  simp only [directive, opening, arguments, String.append_assoc]

/-- Whether nothing in the arguments is special where it stands: the filter is literal between
double quotes, and the names of the database and of the table need none. -/
def IsPlain (settings : Settings) (table filter : String) : Prop :=
  isInert filter.toList = true ∧ isBareWord settings.connection.database.toList = true ∧
    isBareWord table.toList = true

instance (settings : Settings) (table filter : String) :
    Decidable (IsPlain settings table filter) :=
  inferInstanceAs (Decidable (_ ∧ _))

/-- The arguments are read as the words meant exactly if the filter is literal between double quotes
and the names need none. -/
theorem readsAs_arguments_iff (settings : Settings) (table filter : String) :
    ReadsAs (arguments settings table filter) (meantWords settings table filter) ↔
      IsPlain settings table filter := by
  have names : (∀ word ∈ [settings.connection.database, table], isBareWord word.toList = true) ↔
      isBareWord settings.connection.database.toList = true ∧ isBareWord table.toList = true := by
    simp
  rw [IsPlain, ← names]
  by_cases empty : filter.isEmpty = true
  · have text : (arguments settings table filter).toList =
        spread ([settings.connection.database, table].map String.toList) := by
      simp [arguments, empty, spread, String.toList_append]
    obtain rfl := String.isEmpty_iff.mp empty
    rw [meantWords, if_pos empty, List.nil_append, readsAs_iff text]
    simp [isInert]
  · have text : (arguments settings table filter).toList =
        ' ' :: ("--where=".toList ++ '\x22' :: (filter.toList ++ ['\x22']) ++
          spread ([settings.connection.database, table].map String.toList)) := by
      simp [arguments, empty, spread, String.toList_append]
    rw [meantWords, if_neg empty, List.singleton_append,
      readsAs_option_iff (by decide) text]

/-- If the options are words, a command is read as these words and the words meant behind them
exactly if the filter is literal between double quotes and the names need none. -/
theorem readsAs_command_iff {settings : Settings} {table filter : String} {words : List String}
    (options : ReadsAs (opening settings) words) :
    ReadsAs (opening settings ++ arguments settings table filter)
        (words ++ meantWords settings table filter) ↔ IsPlain settings table filter := by
  refine (readsAs_append_iff options ?_).trans (readsAs_arguments_iff settings table filter)
  -- whether or not there is a filter, the arguments begin with a blank
  unfold arguments
  split <;> simp [String.toList_append]

/-- Every command is for an exported table and has the filter for it. -/
theorem exists_of_directive_mem_plan {settings : Settings} {footprint : Footprint}
    {command : String} (h : Line.directive command ∈ plan settings footprint) :
    ∃ table ∈ exported footprint, command = opening settings ++
      arguments settings table (Filter.forTable footprint.filter table footprint.tables) := by
  have nonempty : footprint.tables.isEmpty = false := by
    cases empty : footprint.tables.isEmpty with
    | false => rfl
    | true => simp [plan, empty] at h
  have m : Line.directive command ∈ (plan settings footprint).filter Line.isDirective :=
    List.mem_filter.mpr ⟨h, rfl⟩
  rw [directives_plan settings nonempty] at m
  obtain ⟨table, exports, same⟩ := List.mem_map.mp m
  rw [directive_eq] at same
  exact ⟨table, exports, (Line.directive.inj same).symm⟩

/-- Behind the options of every command the shell reads the filter for an exported table as one
word, the database and the table exactly if the filter is literal between double quotes and the
names need none; and it reads them behind the words of the options if the options are words. -/
theorem readsAs_of_mem_plan {settings : Settings} {footprint : Footprint} {command : String}
    (h : Line.directive command ∈ plan settings footprint) :
    ∃ table ∈ exported footprint,
      let filter := Filter.forTable footprint.filter table footprint.tables
      ∃ arguments, command = "mysqldump" ++ settings.connection.options ++ arguments ∧
        (ReadsAs arguments (meantWords settings table filter) ↔ IsPlain settings table filter) ∧
        ∀ words, ReadsAs ("mysqldump" ++ settings.connection.options) words →
          (ReadsAs command (words ++ meantWords settings table filter) ↔
            IsPlain settings table filter) := by
  obtain ⟨table, exports, rfl⟩ := exists_of_directive_mem_plan h
  exact ⟨table, exports, _, rfl, readsAs_arguments_iff settings table _, fun words options =>
    readsAs_command_iff options⟩

/-- The command that saves the rows of `users` with `x=1 and z<=>4` is read as it is meant. -/
theorem readsAs_crossed :
    ReadsAs "mysqldump --where=\"x=1 and z<=>4\" database_name users"
      ["mysqldump", "--where=x=1 and z<=>4", "database_name", "users"] := by
  have m : Line.directive "mysqldump --where=\"x=1 and z<=>4\" database_name users" ∈
      plan .default (deletion crossedSources crossedConjunction).footprint := by
    decide +kernel
  have only : exported (deletion crossedSources crossedConjunction).footprint = ["users"] := by
    decide +kernel
  have filter : Filter.forTable (deletion crossedSources crossedConjunction).footprint.filter
      "users" (deletion crossedSources crossedConjunction).footprint.tables =
        "x=1 and z<=>4" := by
    decide +kernel
  obtain ⟨table, exports, _, -, -, whole⟩ := readsAs_of_mem_plan m
  rw [only] at exports
  obtain rfl := List.mem_singleton.mp exports
  rw [filter] at whole
  exact (whole ["mysqldump"] (by decide)).mpr (by decide)

/-- The query for the users whose name is `$HOME`. -/
def homeQuery : Statement :=
  let named : Expr := .binary (.name ⟨"name", none⟩) .eq (.literal (.text .single "$HOME"))
  .query (.ofBody (.select (.ofSources [namedTable "users" none] named)))

/-- The shell puts something else in the place of the name. -/
theorem not_readsAs_home :
    ¬∀ command, Line.directive command ∈ plan .default homeQuery.footprint →
      ∃ table ∈ exported homeQuery.footprint,
        ReadsAs command ("mysqldump" :: meantWords .default table
          (Filter.forTable homeQuery.footprint.filter table homeQuery.footprint.tables)) := by
  intro meant
  have m : Line.directive "mysqldump --where=\"name='$HOME'\" database_name users" ∈
      plan .default homeQuery.footprint := by
    decide +kernel
  have only : exported homeQuery.footprint = ["users"] := by decide +kernel
  obtain ⟨table, exports, read⟩ := meant _ m
  rw [only] at exports
  obtain rfl := List.mem_singleton.mp exports
  revert read
  decide +kernel

/-! ## Conditions without active characters -/

/-- The filter of a statement is its condition in normal form. -/
theorem footprint_filter (statement : Statement) :
    statement.footprint.filter = Filter.renderOrEmpty statement.aliases statement.selection := by
  cases statement <;> rfl

/-- The tables of the sources of a statement are tables of its footprint. -/
theorem tables_subset (statement : Statement) :
    statement.tables ⊆ statement.footprint.tables := by
  cases statement
  case update | delete | query => exact List.Subset.refl _
  -- any other statement has no sources
  all_goals exact List.nil_subset _

/-- The exported tables of a statement are tables of its footprint. -/
theorem exported_subset (statement : Statement) :
    exported statement.footprint ⊆ statement.footprint.tables := by
  intro table m
  unfold exported at m
  split at m
  · next primary _ eq =>
    obtain rfl := List.mem_singleton.mp m
    cases statement
    case update | delete => exact List.mem_of_head? eq
    all_goals cases eq
  · exact m

/-- A word that needs no quotes has no active characters. -/
theorem isActive_of_isBareWord {word : List Char} (h : isBareWord word = true) {c : Char}
    (m : c ∈ word) : isActive c = false := by
  simp only [isBareWord, Bool.and_eq_true, List.all_eq_true] at h
  have literal := h.2 c m
  apply Bool.eq_false_iff.mpr
  intro active
  simp only [isActive, Bool.or_eq_true, decide_eq_true_eq] at active
  rcases active with ((rfl | rfl) | rfl) | rfl <;> revert literal <;> decide

/-- Every command of a statement is read as it is meant if the text of the condition has no active
characters but the marks around names, and the names and options need no quotes. -/
theorem readsAs_of_inactive {settings : Settings} {statement : Statement}
    (chars : ∀ e ∈ statement.selection, ∀ text, e.compact = .ok text →
      ∀ c ∈ text.toList, c ≠ '\x60' → isActive c = false)
    (names : ∀ name ∈ settings.connection.database :: statement.footprint.tables,
      isBareWord name.toList = true) {words : List String}
    (options : ReadsAs ("mysqldump" ++ settings.connection.options) words) {command : String}
    (h : Line.directive command ∈ plan settings statement.footprint) :
    ∃ table ∈ exported statement.footprint,
      ReadsAs command (words ++ meantWords settings table
        (Filter.forTable statement.footprint.filter table statement.footprint.tables)) := by
  obtain ⟨database, tables⟩ := List.forall_mem_cons.mp names
  obtain ⟨table, exports, rfl⟩ := exists_of_directive_mem_plan h
  have inert : ∀ c ∈ (Filter.forTable statement.footprint.filter table
      statement.footprint.tables).toList, isActive c = false := by
    have word : Filter.conjunction.toList.all (!isActive ·) = true := by decide
    rw [footprint_filter]
    refine Filter.forall_mem_forTable chars (fun pair given c m => ?_) (by decide)
      (fun c m => (Bool.not_eq_true' _).mp (List.all_eq_true.mp word c m)) _ _
    exact isActive_of_isBareWord
      (tables _ (tables_subset statement (mem_aliases given).2)) m
  exact ⟨table, exports, (readsAs_command_iff options).mpr
    ⟨isInert_of_forall inert, database, tables _ (exported_subset statement exports)⟩⟩

end SqlFootprint.Dump
