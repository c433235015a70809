import SqlFootprint.CommandLine.Outcome
import SqlFootprint.Proofs.Sql.Batches
import SqlFootprint.Proofs.Text.Trimming

/-! # Exit codes and what is printed

A run that ends with another code than zero prints nothing. Which code it is depends on where the
run stops: at the arguments, at the input, or at the statements. -/

namespace SqlFootprint.CommandLine

open Sql

/-! ## Blank texts -/

/-- A text with nothing but blanks. -/
def IsBlankText (sql : String) : Prop := ∀ c ∈ sql.toList, Text.isBlank c = true

theorem isEmpty_trim (sql : String) : (Text.trim sql).isEmpty = true ↔ IsBlankText sql := by
  rw [Text.trim, String.isEmpty_iff, ← String.toList_inj, String.toList_ofList]
  exact Text.trimBlanks_eq_nil sql.toList

/-- The input of a command. -/
def Command.input : Command → Input
  | .analyze input _ => input
  | .check input => input
  | .dump input _ => input

section Runs

variable (readFile : String → Except FileError String)

/-! ## Inputs -/

/-- The text that an input stands for. -/
def Input.Holds (input : Input) (sql : String) : Prop :=
  match input.file with
  | some path => readFile path = .ok sql
  | none => input.sql = some sql

/-- The file of an input cannot be read. -/
def Input.IsUnreadable (input : Input) : Prop :=
  ∃ path cause, input.file = some path ∧ readFile path = .error cause

/-- An input stands for no text, or for a blank one. -/
def Input.IsBlank (input : Input) : Prop :=
  (input.file = none ∧ input.sql = none) ∨ ∃ sql, input.Holds readFile sql ∧ IsBlankText sql

variable {readFile} {input : Input} {sql : String}

/-- The text of an input is read. -/
theorem Input.content_of_holds (h : input.Holds readFile sql) :
    input.content readFile = .ok sql := by
  obtain ⟨_ | text, _ | path⟩ := input
  · cases h
  · simp only [Holds] at h
    simp [content, h]
  · cases h
    rfl
  · simp only [Holds] at h
    simp [content, h]

/-- A text that is not blank is read as it is. -/
theorem Input.read_of_holds (h : input.Holds readFile sql) (hsql : ¬ IsBlankText sql) :
    input.read readFile = .ok sql := by
  have htrim : ¬ (Text.trim sql).isEmpty = true := fun hempty => hsql ((isEmpty_trim sql).mp hempty)
  simp [read, content_of_holds h, bind, Except.bind, htrim, pure, Except.pure]

/-- Without a text, or with a blank one, there is nothing to read. -/
theorem Input.read_of_isBlank (h : input.IsBlank readFile) :
    input.read readFile = .error .missingInput := by
  obtain ⟨hfile, hsql⟩ | ⟨sql, hholds, hblank⟩ := h
  · obtain ⟨_, _⟩ := input
    cases hfile
    cases hsql
    rfl
  · simp [read, content_of_holds hholds, bind, Except.bind, (isEmpty_trim sql).mpr hblank]

/-- A file that cannot be read is reported. -/
theorem Input.read_of_isUnreadable (h : input.IsUnreadable readFile) :
    ∃ cause, input.read readFile = .error (.file cause) := by
  obtain ⟨path, cause, hfile, hcause⟩ := h
  obtain ⟨_, _⟩ := input
  cases hfile
  exact ⟨cause, by simp [read, content, hcause, bind, Except.bind]⟩

/-- An input cannot be read, is blank, or has a text. -/
theorem Input.cases (readFile : String → Except FileError String) (input : Input) :
    input.IsUnreadable readFile ∨ input.IsBlank readFile ∨
      ∃ sql, input.Holds readFile sql ∧ ¬ IsBlankText sql := by
  by_cases hunreadable : input.IsUnreadable readFile
  · exact .inl hunreadable
  by_cases hblank : input.IsBlank readFile
  · exact .inr (.inl hblank)
  suffices ∃ sql, input.Holds readFile sql by
    obtain ⟨sql, hsql⟩ := this
    exact .inr (.inr ⟨sql, hsql, fun h => hblank (.inr ⟨sql, hsql, h⟩)⟩)
  obtain ⟨text, _ | path⟩ := input
  · cases text with
    | none => exact absurd (.inl ⟨rfl, rfl⟩) hblank
    | some sql => exact ⟨sql, rfl⟩
  · cases hread : readFile path with
    | error cause => exact absurd ⟨path, cause, rfl, hread⟩ hunreadable
    | ok sql => exact ⟨sql, hread⟩

/-! ## Commands -/

variable {command : Command}

theorem Command.outcome_of_error {failure : Failure}
    (h : command.printed readFile = .error failure) :
    command.outcome readFile =
      ⟨failure.exitCode, "", some ("Error: " ++ failure.message ++ "\n")⟩ := by
  rw [outcome, h]

/-- A command fails as the reading of its input does. -/
theorem Command.outcome_of_read {failure : Failure}
    (h : command.input.read readFile = .error failure) :
    command.outcome readFile =
      ⟨failure.exitCode, "", some ("Error: " ++ failure.message ++ "\n")⟩ := by
  refine outcome_of_error ?_
  cases command with
  | analyze | check | dump =>
    rw [input] at h
    rw [printed, h]
    rfl

/-- A command fails if the statements cannot be read, with the same code for each command. -/
theorem Command.exit_of_error {cause : SyntaxError} (h : command.input.read readFile = .ok sql)
    (hsql : parseStatements sql = .error cause) : (command.outcome readFile).exit = 1 := by
  suffices ∃ failure, command.printed readFile = .error failure ∧ failure.exitCode = 1 by
    obtain ⟨failure, hprinted, hexit⟩ := this
    rw [outcome_of_error hprinted]
    exact hexit
  cases command with
  | analyze input format =>
    refine ⟨.parse cause, ?_, rfl⟩
    rw [Command.input] at h
    simp only [printed, h, bind, Except.bind, Batch.analyze_of_error hsql]
  | check input =>
    refine ⟨.invalid cause, ?_, rfl⟩
    rw [Command.input] at h
    simp only [printed, h, bind, Except.bind, Batch.check_of_error hsql]
  | dump input settings =>
    refine ⟨.parse cause, ?_, rfl⟩
    rw [Command.input] at h
    simp only [printed, h, bind, Except.bind, Batch.dump_of_error settings hsql]

/-- A command that has read all statements prints. -/
theorem Command.exit_of_ok {statements : List Statement}
    (h : command.input.read readFile = .ok sql)
    (hsql : parseStatements sql = .ok statements) : (command.outcome readFile).exit = 0 := by
  suffices ∃ text, command.printed readFile = .ok text by
    obtain ⟨text, hprinted⟩ := this
    rw [outcome, hprinted]
  cases command with
  | analyze input format =>
    rw [Command.input] at h
    simp only [printed, h, bind, Except.bind, Batch.analyze_of_ok hsql]
    exact ⟨_, rfl⟩
  | check input =>
    rw [Command.input] at h
    simp only [printed, h, bind, Except.bind, Batch.check_of_ok hsql]
    exact ⟨_, rfl⟩
  | dump input settings =>
    rw [Command.input] at h
    simp only [printed, h, bind, Except.bind, Batch.dump_of_ok settings hsql]
    exact ⟨_, rfl⟩

/-- A command that ends with another code than zero prints nothing. -/
theorem Command.printed_of_exit (h : (command.outcome readFile).exit ≠ 0) :
    (command.outcome readFile).printed = "" := by
  cases hprinted : command.printed readFile with
  | ok text =>
    rw [outcome, hprinted] at h
    exact absurd rfl h
  | error failure => rw [outcome_of_error hprinted]

/-- A command fails: its file cannot be read, or its text is not blank and no list of statements. -/
def Command.Fails (readFile : String → Except FileError String) (command : Command) : Prop :=
  command.input.IsUnreadable readFile ∨
    ∃ sql cause, command.input.Holds readFile sql ∧ ¬ IsBlankText sql ∧
      parseStatements sql = .error cause

/-- The exit code of a command that fails. -/
theorem Command.exit_of_fails (h : command.Fails readFile) :
    (command.outcome readFile).exit = 1 := by
  obtain hunreadable | ⟨sql, cause, hholds, hblank, hparse⟩ := h
  · obtain ⟨cause, hread⟩ := Input.read_of_isUnreadable hunreadable
    rw [outcome_of_read hread]
    rfl
  · exact exit_of_error (Input.read_of_holds hholds hblank) hparse

/-- The exit code of a command without a text. -/
theorem Command.exit_of_isBlank (h : command.input.IsBlank readFile) :
    (command.outcome readFile).exit = 2 := by
  rw [outcome_of_read (Input.read_of_isBlank h)]
  rfl

/-- A command fails, has no text, or reads all statements and ends with zero. -/
theorem Command.cases (readFile : String → Except FileError String) (command : Command) :
    command.Fails readFile ∨ command.input.IsBlank readFile ∨
      (command.outcome readFile).exit = 0 := by
  obtain hunreadable | hblank | ⟨sql, hholds, hblank⟩ := Input.cases readFile command.input
  · exact .inl (.inl hunreadable)
  · exact .inr (.inl hblank)
  · cases hparse : parseStatements sql with
    | error cause => exact .inl (.inr ⟨sql, cause, hholds, hblank, hparse⟩)
    | ok statements =>
      exact .inr (.inr (exit_of_ok (Input.read_of_holds hholds hblank) hparse))

/-- A command ends with one if and only if it fails. -/
theorem Command.exit_eq_one : (command.outcome readFile).exit = 1 ↔ command.Fails readFile := by
  refine ⟨fun h => ?_, exit_of_fails⟩
  obtain hfails | hblank | hzero := Command.cases readFile command
  · exact hfails
  · rw [exit_of_isBlank hblank] at h
    cases h
  · rw [hzero] at h
    cases h

/-- A command ends with two if and only if it has no text. -/
theorem Command.exit_eq_two :
    (command.outcome readFile).exit = 2 ↔ command.input.IsBlank readFile := by
  refine ⟨fun h => ?_, exit_of_isBlank⟩
  obtain hfails | hblank | hzero := Command.cases readFile command
  · rw [exit_of_fails hfails] at h
    cases h
  · exact hblank
  · rw [hzero] at h
    cases h

/-- A command ends with zero only if it has read a text without a fault. -/
theorem Command.exit_ne_zero_of_hasFault (hholds : command.input.Holds readFile sql)
    (hfault : HasFault sql) : (command.outcome readFile).exit ≠ 0 := by
  obtain ⟨cause, hparse⟩ := parseStatements_of_hasFault hfault
  by_cases hblank : IsBlankText sql
  · rw [exit_of_isBlank (.inr ⟨sql, hholds, hblank⟩)]
    decide
  · rw [exit_of_fails (.inr ⟨sql, cause, hholds, hblank, hparse⟩)]
    decide

end Runs

/-! ## Runs -/

/-- A run that ends with another code than zero prints nothing. It ends with one if and only if its
command fails, and with two if and only if the arguments are wrong or there is no text. If there is
a fault among the statements of the text, it prints nothing. -/
theorem exit_run (environment : String → Option String)
    (readFile : String → Except FileError String) (args : List String) :
    ((run environment readFile args).exit ≠ 0 → (run environment readFile args).printed = "") ∧
    ((run environment readFile args).exit = 1 ↔
      ∃ command, Command.ofArguments environment args = .ok command ∧ command.Fails readFile) ∧
    ((run environment readFile args).exit = 2 ↔
      Command.ofArguments environment args = .error .usage ∨
        ∃ command, Command.ofArguments environment args = .ok command ∧
          command.input.IsBlank readFile) ∧
    ∀ command sql, Command.ofArguments environment args = .ok command →
      command.input.Holds readFile sql → HasFault sql →
        (run environment readFile args).exit ≠ 0 ∧
          (run environment readFile args).printed = "" := by
  cases hargs : Command.ofArguments environment args with
  | error stop =>
    have hrun : run environment readFile args = stop.outcome := by simp [run, hargs]
    rw [hrun]
    cases stop <;> simp [Stop.outcome]
  | ok command =>
    have hrun : run environment readFile args = command.outcome readFile := by simp [run, hargs]
    rw [hrun]
    refine ⟨Command.printed_of_exit, ?_, ?_, ?_⟩
    · simp [Command.exit_eq_one]
    · simp [Command.exit_eq_two]
    · rintro _ sql ⟨⟩ hholds hfault
      have hexit := Command.exit_ne_zero_of_hasFault hholds hfault
      exact ⟨hexit, Command.printed_of_exit hexit⟩

/-- A fault in the second statement: nothing is printed for the first one either. -/
theorem exit_run_secondStatement :
    HasFault "DELETE FROM users WHERE id = 1; SELECT * FROM orders WHERE id =" ∧
      (run (fun _ => none) (fun _ => .error .missing)
        ["DELETE FROM users WHERE id = 1; SELECT * FROM orders WHERE id ="]).exit ≠ 0 ∧
      (run (fun _ => none) (fun _ => .error .missing)
        ["DELETE FROM users WHERE id = 1; SELECT * FROM orders WHERE id ="]).printed = "" := by
  have hcause :
      (match parseStatements "DELETE FROM users WHERE id = 1; SELECT * FROM orders WHERE id =" with
        | .error cause => some cause
        | .ok _ => none) = some (.expected "an expression" none) := by decide +kernel
  have hfault :
      HasFault "DELETE FROM users WHERE id = 1; SELECT * FROM orders WHERE id =" := by
    split at hcause
    · rename_i cause hparse
      cases hcause
      exact hasFault_of_parseStatements hparse (by decide)
    · cases hcause
  exact ⟨hfault, (exit_run _ _ _).2.2.2 (.analyze ⟨some _, none⟩ .text) _ (by rfl) rfl hfault⟩

/-- A piece of a text between semicolons is no list of statements. -/
def hasFaultyPiece (sql : String) : Bool :=
  match lex sql with
  | .error _ => true
  | .ok tokens =>
    (tokens.splitOnP Lexeme.isSemicolon).any fun piece => !(Parser.statements piece).isOk

/-- A word `END` behind a statement hides the faults behind it: the piece behind the semicolon is no
statement, and the report on the first one is printed all the same. -/
theorem printed_of_faultBehindEnd :
    let sql := "DELETE FROM users WHERE id = 1 END; SELECT * FROM orders WHERE id ="
    hasFaultyPiece sql = true ∧
      run (fun _ => none) (fun _ => .error .missing) [sql] =
        ⟨0, "Columns: [id]\nTables: [users]\nAction: DELETE\nWHERE filter: id=1\n", none⟩ := by
  decide +kernel

end SqlFootprint.CommandLine
