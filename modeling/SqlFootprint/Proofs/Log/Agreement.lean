import Mathlib.Data.List.Forall2
import SqlFootprint.Batch
import SqlFootprint.Proofs.Text.LogReading
import SqlFootprint.Proofs.Text.Separator

/-! # Events and results

The events of a run and its result tell the same: every footprint has its event, in order, and so
has every list of remarks on exact rows. The events of different kinds are told apart by their first
word. -/

namespace SqlFootprint

open Sql

/-- Whether the text of an event begins with a word. -/
def Event.begins (word : String) (event : Event) : Bool :=
  word.toList.isPrefixOf event.text.toList

/-- The first character of an event. -/
def Event.initial? (event : Event) : Option Char := event.text.toList.head?

/-- An event does not begin with a word that has another first character. -/
theorem Event.begins_of_initial {event : Event} {word : String} {c : Char}
    (hword : word.toList.head? = some c) (h : event.initial? ≠ some c) :
    event.begins word = false := by
  unfold initial? at h
  unfold begins
  cases hw : word.toList with
  | nil => simp [hw] at hword
  | cons d ds =>
    obtain rfl : d = c := by simpa [hw] using hword
    cases htext : event.text.toList with
    | nil => rfl
    | cons e es =>
      have hne : d ≠ e := by
        rintro rfl
        simp [htext] at h
      simp [List.isPrefixOf, hne]

/-! ## Footprints and their events -/

/-- An event tells the action, the tables and the filter of a footprint, and none but these. -/
def Footprint.IsToldBy (footprint : Footprint) (event : Event) : Prop :=
  event = ⟨.debug, footprint.told⟩ ∧
    ∀ other : Footprint, event = ⟨.debug, other.told⟩ →
      other.action = footprint.action ∧ other.tables = footprint.tables ∧
        other.filter = footprint.filter

/-- The events of one statement: one that tells its footprint, behind events of other kinds. -/
def Footprint.IsReportedBy (footprint : Footprint) (events : List Event) : Prop :=
  ∃ front last, events = front ++ [last] ∧ footprint.IsToldBy last ∧
    ∀ event ∈ front, event.begins "Extracted " = false

theorem colon_notMem_logAction (action : Option Action) : ':' ∉ (logAction action).toList := by
  rcases action with _ | action
  · decide
  · cases action <;> decide

/-- Different actions have different names. -/
theorem logAction_inj {action other : Option Action} (h : logAction action = logAction other) :
    action = other := by
  rcases action with _ | ⟨⟨⟩⟩ <;> rcases other with _ | ⟨⟨⟩⟩ <;>
    first | rfl | exact absurd h (by decide)

/-- The name of an action ends in front of the first colon. -/
theorem logAction_append_inj {action other : Option Action} {x y : List Char}
    (h : (logAction action).toList ++ ':' :: x = (logAction other).toList ++ ':' :: y) :
    action = other ∧ x = y := by
  have hname : logAction action = logAction other := String.toList_inj.mp
    (Text.eq_of_append_cons_eq (colon_notMem_logAction action) (colon_notMem_logAction other) h)
  obtain rfl := logAction_inj hname
  exact ⟨rfl, (List.cons.inj (List.append_cancel_left h)).2⟩

theorem Footprint.toList_told (footprint : Footprint) :
    footprint.told.toList = "Extracted ".toList ++ ((logAction footprint.action).toList ++
      ':' :: (" tables=".toList ++ ((Text.logList footprint.tables).toList ++
        (" where=".toList ++ ((Text.logQuoted footprint.filter).toList ++ []))))) := by
  unfold told
  simp only [String.toList_append, List.append_assoc, List.append_nil]
  rfl

/-- What is told of a footprint tells its action, its tables and its filter. -/
theorem Footprint.told_inj {footprint other : Footprint} (h : footprint.told = other.told) :
    footprint.action = other.action ∧ footprint.tables = other.tables ∧
      footprint.filter = other.filter := by
  have hchars := congrArg String.toList h
  rw [toList_told, toList_told] at hchars
  obtain ⟨haction, hrest⟩ := logAction_append_inj (List.append_cancel_left hchars)
  obtain ⟨htables, hrest⟩ := Text.logList_append_inj (List.append_cancel_left hrest)
  obtain ⟨hfilter, -⟩ := Text.logQuoted_append_inj (List.append_cancel_left hrest)
  exact ⟨haction, htables, hfilter⟩

/-- The warning about a target begins with the keyword. -/
theorem Sql.Delete.initial_warning {delete : Delete} {text : String}
    (h : delete.warning? = some text) : text.toList.head? = some 'D' := by
  dsimp only [warning?] at h
  split at h
  · simp only [Option.ite_none_left_eq_some, Option.some.injEq] at h
    obtain ⟨-, rfl⟩ := h
    simp [String.toList_append]
  · cases h

/-- What is told of a condition without a text. -/
theorem Filter.initial_dropped {aliases : Aliases} {condition : Option Expr} {text : String}
    (h : dropped? aliases condition = some text) : text.toList.head? = some 'D' := by
  unfold dropped? at h
  split at h
  · cases h
  · split at h
    · cases h
    · cases h
      simp [String.toList_append]

/-- The events in front of the last one of a statement are of other kinds. -/
theorem Sql.Statement.events_eq (statement : Statement) :
    ∃ front, statement.events = front ++ [⟨.debug, statement.footprint.told⟩] ∧
      ∀ event ∈ front, event.initial? ∈ [some 'S', some 'D', some 'N'] := by
  refine ⟨_, rfl, fun event hevent => ?_⟩
  simp only [List.mem_append, List.mem_map, Option.mem_toList] at hevent
  obtain ((⟨text, htext, rfl⟩ | ⟨text, htext, rfl⟩) | ⟨text, htext, rfl⟩) | ⟨text, htext, rfl⟩ :=
    hevent
  · obtain ⟨leaf, -, hleaf⟩ := List.mem_filterMap.mp htext
    cases leaf with
    | table => cases hleaf
    | other =>
      cases hleaf
      simp [Event.initial?, String.toList_append]
  · cases statement with
    | delete delete => simp [Event.initial?, Delete.initial_warning htext]
    | _ => cases htext
  · simp [Event.initial?, Filter.initial_dropped htext]
  · cases statement with
    | other =>
      cases htext
      simp [Event.initial?, String.toList_append]
    | _ => cases htext

/-- The events of a statement report its footprint. -/
theorem Sql.Statement.isReportedBy_events (statement : Statement) :
    statement.footprint.IsReportedBy statement.events := by
  obtain ⟨front, hevents, hfront⟩ := statement.events_eq
  refine ⟨front, _, hevents, ⟨rfl, fun other h => ?_⟩, fun event hevent => ?_⟩
  · exact Footprint.told_inj (Event.mk.inj h.symm).2
  · refine Event.begins_of_initial (c := 'E') rfl fun h => ?_
    simpa [h] using hfront event hevent

/-! ## The log of an analysis -/

/-- The events of an analysis: how many statements there are, the events of each of them in order,
and how many footprints there are. Each footprint has one event of its own. -/
def IsAnalysisLog (footprints : List Footprint) (events : List Event) : Prop :=
  ∃ blocks : List (List Event),
    events = ⟨.debug, "Parsed " ++ toString footprints.length ++ " statement(s)"⟩ ::
      blocks.flatten ++ [⟨.info, "Analyzed " ++ toString footprints.length ++ " statement(s)"⟩] ∧
    List.Forall₂ Footprint.IsReportedBy footprints blocks ∧
    List.Forall₂ Footprint.IsToldBy footprints (events.filter (Event.begins "Extracted "))

/-- Of the events of statements, those that tell footprints are as many as the statements. -/
theorem filter_flatMap_events (statements : List Statement) :
    (statements.flatMap Statement.events).filter (Event.begins "Extracted ") =
      statements.map fun statement => ⟨.debug, statement.footprint.told⟩ := by
  have last (statement : Statement) :
      (Event.mk .debug statement.footprint.told).begins "Extracted " = true := by
    simp [Event.begins, Footprint.told, String.toList_append, List.isPrefixOf]
  induction statements with
  | nil => rfl
  | cons statement statements ih =>
    obtain ⟨front, hevents, hfront⟩ := statement.events_eq
    have hnone : front.filter (Event.begins "Extracted ") = [] := by
      refine List.filter_eq_nil_iff.mpr fun event hevent => ?_
      rw [Event.begins_of_initial (c := 'E') rfl fun h => by simpa [h] using hfront event hevent]
      decide
    rw [List.flatMap_cons, List.filter_append, hevents, List.filter_append, hnone, ih]
    simp [last]

/-- The events of an analysis agree with its footprints. -/
theorem isAnalysisLog_analyzeEvents {sql : String} {statements : List Statement}
    (h : parseStatements sql = .ok statements) :
    IsAnalysisLog (statements.map Statement.footprint) (Batch.analyzeEvents sql) := by
  refine ⟨statements.map Statement.events, ?_, ?_, ?_⟩
  · simp [Batch.analyzeEvents, Batch.read_of_ok h, List.flatMap]
  · rw [List.forall₂_map_left_iff, List.forall₂_map_right_iff, List.forall₂_same]
    exact fun statement _ => statement.isReportedBy_events
  · have hfilter : (Batch.analyzeEvents sql).filter (Event.begins "Extracted ") =
        statements.map fun statement => ⟨.debug, statement.footprint.told⟩ := by
      simp only [Batch.analyzeEvents, Batch.read_of_ok h]
      rw [List.filter_append, List.filter_cons_of_neg, filter_flatMap_events]
      · simp [Event.begins, String.toList_append, List.isPrefixOf]
      · simp [Event.begins, String.toList_append, List.isPrefixOf]
    rw [hfilter, List.forall₂_map_left_iff, List.forall₂_map_right_iff, List.forall₂_same]
    exact fun statement _ => ⟨rfl, fun other h => Footprint.told_inj (Event.mk.inj h.symm).2⟩

/-! ## Remarks on exact rows and their events -/

namespace Dump

/-- The first of the remarks on how to save exactly the rows of a condition on several tables. -/
def exactRowsTitle : Line := .note "To get exact rows matching all JOIN conditions:"

/-- The remarks on exact rows that stand in a plan, with the command behind them. -/
def exactRowsIn : List Line → List (List Line)
  | [] => []
  | line :: lines =>
    if line = exactRowsTitle then (line :: lines.take 7) :: exactRowsIn lines
    else exactRowsIn lines

/-- The tables of a footprint whose filters leave something out. -/
def narrowedTables (footprint : Footprint) : List String :=
  if footprint.tables.isEmpty then [] else (exported footprint).filter (isNarrowed footprint)

/-- The event of a table whose filter leaves something out. -/
def narrowedEvent (footprint : Footprint) (table : String) : Event :=
  ⟨.debug, "Cross-table conditions on " ++ table ++ ": '" ++
    Filter.stripTables footprint.filter footprint.tables ++ "' narrows to '" ++
    Filter.forTable footprint.filter table footprint.tables ++ "'"⟩

/-- An event and remarks are about the same table of the same footprint. -/
def Announces (settings : Settings) (footprints : List Footprint) (event : Event)
    (remarks : List Line) : Prop :=
  ∃ footprint ∈ footprints, ∃ table, event = narrowedEvent footprint table ∧
    remarks = exactRows settings table footprint.tables footprint.filter ++
      [directive settings table (Filter.forTable footprint.filter table footprint.tables)]

variable {settings : Settings} {footprint : Footprint} {table : String} {lines : List Line}

theorem exactRowsIn_cons {line : Line} (h : line ≠ exactRowsTitle) (lines : List Line) :
    exactRowsIn (line :: lines) = exactRowsIn lines := if_neg h

/-- Lines without a title are passed over. -/
theorem exactRowsIn_append {front : List Line} (h : ∀ line ∈ front, line ≠ exactRowsTitle)
    (lines : List Line) : exactRowsIn (front ++ lines) = exactRowsIn lines := by
  induction front with
  | nil => rfl
  | cons line front ih =>
    obtain ⟨hline, hfront⟩ := List.forall_mem_cons.mp h
    rw [List.cons_append, exactRowsIn_cons hline, ih hfront]

/-- A remark with another first character is not the title. -/
theorem note_ne_title {text : String} (h : text.toList.head? ≠ some 'T') :
    Line.note text ≠ exactRowsTitle := by
  intro heq
  rw [exactRowsTitle, Line.note.injEq] at heq
  exact h (by rw [heq]; rfl)

/-- Remarks on exact rows begin with their title, which does not come again in them. -/
theorem exactRows_eq_cons (settings : Settings) (table filter : String) (tables : List String) :
    ∃ remarks, exactRows settings table tables filter = exactRowsTitle :: remarks ∧
      remarks.length = 6 ∧ ∀ line ∈ remarks, line ≠ exactRowsTitle := by
  refine ⟨_, rfl, rfl, ?_⟩
  simp only [List.forall_mem_cons]
  refine ⟨?_, ?_, ?_, ?_, ?_, ?_, List.forall_mem_nil _⟩
  all_goals exact note_ne_title (by simp [String.toList_append])

/-- Remarks on exact rows are found, and nothing else in them is taken for their title. -/
theorem exactRowsIn_exactRows (settings : Settings) (table filter command : String)
    (tables : List String) (lines : List Line) :
    exactRowsIn (exactRows settings table tables filter ++ .directive command :: lines) =
      (exactRows settings table tables filter ++ [.directive command]) :: exactRowsIn lines := by
  obtain ⟨remarks, hremarks, hlength, hothers⟩ := exactRows_eq_cons settings table filter tables
  have hcommand : Line.directive command ≠ exactRowsTitle := by simp [exactRowsTitle]
  have hseven : (remarks ++ .directive command :: lines).take 7 =
      remarks ++ [.directive command] := by
    rw [List.take_append, List.take_of_length_le (by omega), hlength]
    rfl
  rw [hremarks, List.cons_append, exactRowsIn, if_pos rfl, hseven, exactRowsIn_append hothers,
    exactRowsIn_cons hcommand]
  rfl

/-- The remarks in the plan for one table. -/
theorem exactRowsIn_tablePlan (settings : Settings) (footprint : Footprint) (table : String)
    (lines : List Line) :
    exactRowsIn (tablePlan settings footprint table ++ lines) =
      (if isNarrowed footprint table then [tablePlan settings footprint table] else []) ++
        exactRowsIn lines := by
  unfold tablePlan
  by_cases h : isNarrowed footprint table = true
  · simp only [h, if_true, List.append_assoc, List.cons_append, List.nil_append]
    exact exactRowsIn_exactRows settings table _ _ footprint.tables lines
  · simp only [h]
    exact exactRowsIn_cons (by simp [directive, exactRowsTitle]) lines

/-- The remarks in the plan for a footprint are those for its tables whose filters leave something
out. -/
theorem exactRowsIn_plan (settings : Settings) (footprint : Footprint) (lines : List Line) :
    exactRowsIn (plan settings footprint ++ lines) =
      (narrowedTables footprint).map (tablePlan settings footprint) ++ exactRowsIn lines := by
  have hall (tables : List String) :
      exactRowsIn (tables.flatMap (tablePlan settings footprint) ++ lines) =
        (tables.filter (isNarrowed footprint)).map (tablePlan settings footprint) ++
          exactRowsIn lines := by
    induction tables with
    | nil => rfl
    | cons table tables ih =>
      rw [List.flatMap_cons, List.append_assoc, exactRowsIn_tablePlan, ih]
      by_cases h : isNarrowed footprint table = true <;> simp [h]
  unfold plan narrowedTables
  split
  · exact exactRowsIn_cons (note_ne_title (by simp)) lines
  · exact hall _

/-- The remarks in the plans for several footprints. -/
theorem exactRowsIn_plans (settings : Settings) (footprints : List Footprint) :
    exactRowsIn (footprints.flatMap (plan settings)) =
      footprints.flatMap fun footprint =>
        (narrowedTables footprint).map (tablePlan settings footprint) := by
  induction footprints with
  | nil => rfl
  | cons footprint footprints ih =>
    rw [List.flatMap_cons, exactRowsIn_plan, ih, List.flatMap_cons]

/-- What happens on the way to a plan, table by table. -/
theorem planEvents_eq (footprint : Footprint) :
    planEvents footprint = (narrowedTables footprint).map (narrowedEvent footprint) := by
  have hall (tables : List String) :
      (tables.filterMap (narrowed? footprint)).map (Event.mk .debug) =
        (tables.filter (isNarrowed footprint)).map (narrowedEvent footprint) := by
    induction tables with
    | nil => rfl
    | cons table tables ih =>
      by_cases h : isNarrowed footprint table = true
      · simpa [narrowed?, h, narrowedEvent] using ih
      · simpa [narrowed?, h] using ih
  unfold planEvents narrowedTables
  split
  · rfl
  · exact hall _

/-- A table whose filter leaves something out has both remarks and a command in its plan. -/
theorem tablePlan_of_mem_narrowedTables (settings : Settings)
    (h : table ∈ narrowedTables footprint) :
    tablePlan settings footprint table =
      exactRows settings table footprint.tables footprint.filter ++
        [directive settings table (Filter.forTable footprint.filter table footprint.tables)] := by
  have hnarrowed : isNarrowed footprint table = true := by
    unfold narrowedTables at h
    split at h
    · cases h
    · exact (List.mem_filter.mp h).2
  simp [tablePlan, hnarrowed]

/-- The events on the way to plans announce the remarks in these plans, one by one. -/
theorem announces_plans (settings : Settings) (footprints : List Footprint) :
    List.Forall₂ (Announces settings footprints) (footprints.flatMap planEvents)
      (exactRowsIn (footprints.flatMap (plan settings))) := by
  rw [exactRowsIn_plans]
  suffices ∀ some ⊆ footprints, List.Forall₂ (Announces settings footprints)
      (some.flatMap planEvents) (some.flatMap fun footprint =>
        (narrowedTables footprint).map (tablePlan settings footprint)) from
    this footprints (List.Subset.refl _)
  intro some hsome
  induction some with
  | nil => exact .nil
  | cons footprint others ih =>
    obtain ⟨hfirst, hothers⟩ := List.cons_subset.mp hsome
    rw [List.flatMap_cons, List.flatMap_cons, planEvents_eq]
    refine List.rel_append ?_ (ih hothers)
    rw [List.forall₂_map_left_iff, List.forall₂_map_right_iff, List.forall₂_same]
    exact fun table htable => ⟨footprint, hfirst, table, rfl,
      tablePlan_of_mem_narrowedTables settings htable⟩

/-! ## The log of a plan -/

/-- The events of a plan behind those of the analysis: one for each list of remarks on exact rows,
in their order, and how many commands there are. There are no other events about tables whose
filters leave something out. -/
def IsPlanLog (settings : Settings) (footprints : List Footprint) (lines : List Line)
    (analysis events : List Event) : Prop :=
  ∃ crossed : List Event,
    events = analysis ++ crossed ++
      [⟨.info, "Planned " ++ toString (lines.countP Line.isDirective) ++
        " export directive(s) for " ++ toString footprints.length ++ " statement(s)"⟩] ∧
    List.Forall₂ (Announces settings footprints) crossed (exactRowsIn lines) ∧
    events.filter (Event.begins "Cross-table ") = crossed

/-- The events of an analysis are not about tables whose filters leave something out. -/
theorem filter_analyzeEvents (sql : String) :
    (Batch.analyzeEvents sql).filter (Event.begins "Cross-table ") = [] := by
  rw [List.filter_eq_nil_iff]
  suffices ∀ event ∈ Batch.analyzeEvents sql, event.initial? ≠ some 'C' by
    intro event hevent
    rw [Event.begins_of_initial rfl (this event hevent)]
    decide
  intro event hevent
  unfold Batch.analyzeEvents at hevent
  split at hevent
  · cases hevent
  · rename_i statements _
    simp only [List.cons_append, List.mem_cons, List.mem_append, List.mem_flatMap, List.not_mem_nil,
      or_false] at hevent
    obtain rfl | ⟨statement, -, hmem⟩ | rfl := hevent
    · simp [Event.initial?, String.toList_append]
    · obtain ⟨front, hevents, hfront⟩ := statement.events_eq
      rw [hevents, List.mem_append, List.mem_singleton] at hmem
      obtain hmem | rfl := hmem
      · intro h
        simpa [h] using hfront event hmem
      · simp [Event.initial?, Footprint.told, String.toList_append]
    · simp [Event.initial?, String.toList_append]

/-- The events of a plan agree with its lines. -/
theorem isPlanLog_dumpEvents (settings : Settings) {sql : String} {footprints : List Footprint}
    (h : Batch.analyze sql = .ok footprints) :
    IsPlanLog settings footprints (footprints.flatMap (plan settings)) (Batch.analyzeEvents sql)
      (Batch.dumpEvents settings sql) := by
  refine ⟨footprints.flatMap planEvents, by simp only [Batch.dumpEvents, h],
    announces_plans settings footprints, ?_⟩
  have hcrossed : (footprints.flatMap planEvents).filter (Event.begins "Cross-table ") =
      footprints.flatMap planEvents := by
    refine List.filter_eq_self.mpr fun event hevent => ?_
    obtain ⟨footprint, -, hmem⟩ := List.mem_flatMap.mp hevent
    rw [planEvents_eq] at hmem
    obtain ⟨table, -, rfl⟩ := List.mem_map.mp hmem
    simp [Event.begins, narrowedEvent, String.toList_append, List.isPrefixOf]
  simp only [Batch.dumpEvents, h, List.filter_append, filter_analyzeEvents, hcrossed]
  simp [Event.begins, String.toList_append, List.isPrefixOf]

end Dump

/-! ## Agreement -/

/-- A text that cannot be read leaves no events. Of any other text the events agree with the result:
with its being checked, with its footprints, and with its plan. -/
theorem Batch.events_agree (settings : Dump.Settings) (sql : String) :
    (∀ cause, parseStatements sql = .error cause →
      checkEvents sql = [] ∧ analyzeEvents sql = [] ∧ dumpEvents settings sql = []) ∧
    ∀ statements, parseStatements sql = .ok statements →
      (check sql = .ok () ∧ checkEvents sql = [⟨.info, "SQL syntax is valid"⟩]) ∧
      ∃ footprints, analyze sql = .ok footprints ∧ footprints.length = statements.length ∧
        IsAnalysisLog footprints (analyzeEvents sql) ∧
        ∃ lines, dump settings sql = .ok lines ∧
          Dump.IsPlanLog settings footprints lines (analyzeEvents sql)
            (dumpEvents settings sql) := by
  constructor
  · intro cause h
    have hread : read sql = .error (.parse cause) := by simp [read, h]
    have hanalyze : analyze sql = .error (.parse cause) := by
      simp [analyze, hread, bind, Except.bind]
    refine ⟨?_, ?_, ?_⟩
    · simp [checkEvents, check, h]
    · simp [analyzeEvents, hread]
    · simp [dumpEvents, hanalyze]
  · intro statements h
    have hread : read sql = .ok statements := by simp [read, h]
    have hcheck : check sql = .ok () := by simp [check, h]
    have hanalyze : analyze sql = .ok (statements.map Statement.footprint) := by
      simp [analyze, hread, bind, Except.bind, pure, Except.pure]
    refine ⟨⟨hcheck, by simp [checkEvents, hcheck]⟩, _, hanalyze, List.length_map _,
      isAnalysisLog_analyzeEvents h, _, ?_, Dump.isPlanLog_dumpEvents settings hanalyze⟩
    simp [dump, hanalyze, bind, Except.bind, pure, Except.pure]

/-- The settings of a plan if nothing is said about it. -/
def Batch.plainSettings : Dump.Settings := ⟨.default, Dump.defaultKeyColumn, Dump.defaultTempDir⟩

/-- A text of two statements, the second of which has conditions on two tables. -/
def Batch.crossedText : String :=
  "SELECT id FROM t; DELETE u FROM users u, posts p WHERE u.a = 1 AND p.b = 2"

/-- A text that breaks off leaves no events. The events of two statements agree with their
footprints and with their plan, and one of them tells that the condition on the second table is left
out. -/
theorem Batch.events_agree_crossedText :
    (∃ cause, parseStatements "DELETE" = .error cause ∧
      checkEvents "DELETE" = [] ∧ analyzeEvents "DELETE" = [] ∧
      dumpEvents plainSettings "DELETE" = []) ∧
    ∃ statements footprints lines, parseStatements crossedText = .ok statements ∧
      checkEvents crossedText = [⟨.info, "SQL syntax is valid"⟩] ∧
      footprints.length = statements.length ∧
      IsAnalysisLog footprints (analyzeEvents crossedText) ∧
      Dump.IsPlanLog plainSettings footprints lines (analyzeEvents crossedText)
        (dumpEvents plainSettings crossedText) ∧
      (dumpEvents plainSettings crossedText).map Event.text =
        ["Parsed 2 statement(s)", "Extracted Some(Select): tables=[\"t\"] where=\"\"",
          "Extracted Some(Delete): tables=[\"users\", \"posts\"] " ++
            "where=\"users.a=1 and posts.b=2\"",
          "Analyzed 2 statement(s)",
          "Cross-table conditions on users: 'a=1 and b=2' narrows to 'a=1'",
          "Planned 2 export directive(s) for 2 statement(s)"] := by
  constructor
  · have fails : (parseStatements "DELETE").isOk = false := by decide +kernel
    cases outcome : parseStatements "DELETE" with
    | ok statements =>
      rw [outcome] at fails
      cases fails
    | error cause => exact ⟨cause, rfl, (events_agree plainSettings _).1 cause outcome⟩
  · have reads : (parseStatements crossedText).isOk = true := by decide +kernel
    cases outcome : parseStatements crossedText with
    | error cause =>
      rw [outcome] at reads
      cases reads
    | ok statements =>
      obtain ⟨⟨-, checked⟩, footprints, -, size, analysis, lines, -, plan⟩ :=
        (events_agree plainSettings crossedText).2 statements outcome
      exact ⟨statements, footprints, lines, rfl, checked, size, analysis, plan, by decide +kernel⟩

end SqlFootprint
