import Mathlib.Data.List.TakeWhile
import SqlFootprint.Proofs.Filter.Conjunction

/-! # Conjunctions of comparisons

The conditions that are cut exactly: comparisons of a column with a whole number, tied together by
`AND` in any order and depth. A comparison is written without blanks and with a single period, so
that the filter of a conjunction is the list of its comparisons (`render_conjunction`), and the part
for a table is the list of the comparisons with that table (`forTable_intercalate`). -/

namespace SqlFootprint.Filter

open Text Sql

/-! ## Comparisons -/

/-- The signs of comparison. -/
inductive Comparator where
  | eq | notEq | lt | ltEq | gt | gtEq | nullSafeEq
  deriving DecidableEq, Repr

/-- The operator of a sign of comparison. -/
def Comparator.op : Comparator → BinaryOp
  | .eq => .eq
  | .notEq => .notEq
  | .lt => .lt
  | .ltEq => .ltEq
  | .gt => .gt
  | .gtEq => .gtEq
  | .nullSafeEq => .nullSafeEq

/-- A whole number as it is written: digits, and perhaps a minus sign in front. -/
structure WholeNumber where
  /-- Whether there is a minus sign. -/
  negative : Bool
  /-- The digits. -/
  digits : String
  /-- There is a digit. -/
  digits_ne : digits.toList ≠ []
  /-- There are only digits. -/
  all_isDigit : digits.toList.all Char.isDigit = true

/-- The expression of a whole number. -/
def WholeNumber.toExpr (number : WholeNumber) : Expr :=
  let digits := Expr.literal (.number number.digits false)
  if number.negative then .unary .minus digits else digits

/-- The text of a whole number. -/
def WholeNumber.text (number : WholeNumber) : String :=
  (if number.negative then "-" else "") ++ number.digits

/-- A comparison of a column of a source with a whole number. -/
structure Comparison where
  /-- The second name of the source. -/
  source : Word
  /-- The column. -/
  column : Word
  /-- The sign. -/
  comparator : Comparator
  /-- The number. -/
  number : WholeNumber

/-- The expression of a comparison. -/
def Comparison.toExpr (comparison : Comparison) : Expr :=
  .binary (.dotted [⟨comparison.source, none⟩, ⟨comparison.column, none⟩]) comparison.comparator.op
    comparison.number.toExpr

/-- The text of a comparison without the name of its source. -/
def Comparison.condition (comparison : Comparison) : String :=
  comparison.column ++ comparison.comparator.op.compact ++ comparison.number.text

/-- The table that a comparison is about. -/
def Comparison.table (aliases : Aliases) (comparison : Comparison) : String :=
  (aliases.table? comparison.source).getD comparison.source

/-- The text of a comparison with the name of its table. -/
def Comparison.resolved (aliases : Aliases) (comparison : Comparison) : String :=
  qualifier (comparison.table aliases) ++ comparison.condition

/-! ## The filter of a conjunction -/

/-- A digit of a whole number is a digit. -/
theorem WholeNumber.isDigit (number : WholeNumber) {d : Char} (m : d ∈ number.digits.toList) :
    d.isDigit = true :=
  List.all_eq_true.mp number.all_isDigit d m

/-- A whole number is a number. -/
theorem WholeNumber.isNumeral (number : WholeNumber) : isNumeral number.digits = true := by
  unfold SqlFootprint.isNumeral
  rw [List.dropWhile_eq_nil_iff.mpr fun d m => number.isDigit m]

/-- A whole number is elementary. -/
theorem WholeNumber.elementary (number : WholeNumber) : number.toExpr.Elementary := by
  have digits : (Expr.literal (.number number.digits false)).Elementary := .literal number.isNumeral
  unfold toExpr
  split
  · exact .unary .minus digits
  · exact digits

/-- A plain word is a plain name. -/
theorem isPlain_of_word (w : Word) : (Ident.mk w none).isPlain = true := by
  simp [Ident.isPlain, w.2]

/-- A comparison is elementary. -/
theorem Comparison.elementary (comparison : Comparison) : comparison.toExpr.Elementary :=
  .binary _ (.dotted (isPlain_of_word _) (isPlain_of_word _)) comparison.number.elementary

section

variable (aliases : Aliases)

/-- The text of a whole number, which has no names to resolve. -/
theorem WholeNumber.compact_resolved (number : WholeNumber) :
    (number.toExpr.resolved aliases).compact = .ok number.text := by
  unfold toExpr text
  cases number.negative with
  | true => rfl
  | false =>
    -- the text of the sign is empty
    show Except.ok number.digits = .ok ("" ++ number.digits)
    rw [String.empty_append]

/-- A resolved comparison is written with the name of its table. -/
theorem Comparison.compact_resolved (comparison : Comparison) :
    (comparison.toExpr.resolved aliases).compact = .ok (comparison.resolved aliases) := by
  have number := comparison.number.compact_resolved aliases
  rw [toExpr, Expr.resolved, Expr.resolved, Expr.compact, number]
  show Except.ok (ObjectName.written _ ++ _ ++ _) = _
  simp [resolvedParts, ObjectName.written, Ident.bare, resolved, table, condition, qualifier,
    String.append_assoc]

end

/-! ## The characters of a comparison -/

/-- Whether a text has neither blanks nor periods. -/
def isClose (s : String) : Bool := s.toList.all fun c => !isBlank c && c ≠ '.'

theorem isClose_append (s t : String) : isClose (s ++ t) = (isClose s && isClose t) := by
  rw [isClose, String.toList_append, List.all_append, ← isClose, ← isClose]

/-- The space is a blank. -/
theorem space_notMem {s : String} (h : ∀ c ∈ s.toList, isBlank c = false) : ' ' ∉ s.toList :=
  fun m => absurd (h ' ' m) (by decide)

/-- A blank and a period do not stand in a close text. -/
theorem notMem_of_isClose {s : String} (h : isClose s = true) :
    (∀ c ∈ s.toList, isBlank c = false) ∧ '.' ∉ s.toList := by
  have close (c : Char) (m : c ∈ s.toList) : isBlank c = false ∧ c ≠ '.' := by
    simpa using List.all_eq_true.mp h c m
  exact ⟨fun c m => (close c m).1, fun m => (close '.' m).2 rfl⟩

/-- The code points of letters. -/
theorem toNat_of_isAlpha {c : Char} (h : c.isAlpha = true) : 65 ≤ c.toNat ∧ c.toNat ≤ 122 := by
  rcases Bool.or_eq_true_iff.mp h with upper | lower
  · obtain ⟨low, high⟩ := of_decide_eq_true upper
    have lowest : 65 ≤ c.toNat := low
    have highest : c.toNat ≤ 90 := high
    omega
  · obtain ⟨low, high⟩ := Bool.and_eq_true_iff.mp lower
    have lowest : 97 ≤ c.toNat := of_decide_eq_true low
    have highest : c.toNat ≤ 122 := of_decide_eq_true high
    omega

/-- No blank stands inside a word. -/
theorem isBlank_eq_false_of_isBoundary {c : Char} (h : isBoundary c = false) :
    isBlank c = false := by
  apply Bool.eq_false_iff.mpr
  intro blank
  have outside := toNat_of_isBlank blank
  simp only [isBoundary, Bool.not_eq_false', Bool.or_eq_true, decide_eq_true_eq] at h
  -- letters, digits, `_` and `$` all lie above the space and below the upper half
  rcases h with ((alpha | digit) | rfl) | rfl
  · have := toNat_of_isAlpha alpha
    omega
  · have := Char.isDigit_iff_toNat.mp digit
    simp only [Char.reduceToNat] at this
    omega
  · revert outside
    decide
  · revert outside
    decide

/-- A plain word is close. -/
theorem isClose_of_isPlainWord {w : String} (h : isPlainWord w = true) : isClose w = true := by
  refine List.all_eq_true.mpr fun c m => ?_
  have inWord := isBoundary_eq_false_of_isPlainWord h m
  have nePeriod : c ≠ '.' := ne_of_isBoundary inWord (by decide)
  simp [isBlank_eq_false_of_isBoundary inWord, nePeriod]

/-- A whole number is close. -/
theorem WholeNumber.isClose (number : WholeNumber) : isClose number.text = true := by
  have sign : Filter.isClose (if number.negative then "-" else "") = true := by
    cases number.negative <;> decide
  have digits : Filter.isClose number.digits = true := by
    refine List.all_eq_true.mpr fun c m => ?_
    have inWord : isBoundary c = false := by simp [isBoundary, number.isDigit m]
    have nePeriod : c ≠ '.' := ne_of_isBoundary inWord (by decide)
    simp [isBlank_eq_false_of_isBoundary inWord, nePeriod]
  rw [text, isClose_append, sign, digits]
  rfl

/-- The text of a comparison without its source is close. -/
theorem Comparison.isClose_condition (comparison : Comparison) :
    isClose comparison.condition = true := by
  have sign : isClose comparison.comparator.op.compact = true := by
    cases comparison.comparator <;> decide
  rw [condition, isClose_append, isClose_append, isClose_of_isPlainWord comparison.column.2, sign,
    comparison.number.isClose]
  rfl

/-- The text of a comparison without its source is not empty. -/
theorem Comparison.condition_ne_empty (comparison : Comparison) : comparison.condition ≠ "" := by
  intro empty
  obtain ⟨c, cs, eq, -⟩ := exists_cons_of_isPlainWord comparison.column.2
  have chars := congrArg String.toList empty
  simp [condition, String.toList_append, eq] at chars

/-! ## The text of a conjunction -/

/-- The text of a comparison is not empty. -/
theorem Comparison.resolved_ne_empty {aliases : Aliases} (comparison : Comparison) :
    comparison.resolved aliases ≠ "" := by
  intro empty
  have chars := congrArg String.toList empty
  simp [resolved, qualifier, String.toList_append] at chars

/-- Tables that are plain words. -/
def PlainTables (aliases : Aliases) : Prop := ∀ pair ∈ aliases, isPlainWord pair.2 = true

section

variable {aliases : Aliases} (tables : PlainTables aliases)

include tables

/-- The table of a comparison is a plain word. -/
theorem Comparison.isPlainWord_table (comparison : Comparison) :
    isPlainWord (comparison.table aliases) = true := by
  unfold table
  cases found : aliases.table? comparison.source with
  | none => exact comparison.source.2
  | some table => exact tables _ (mem_of_table? found)

/-- A comparison is written without blanks. -/
theorem Comparison.isBlank_resolved (comparison : Comparison) :
    ∀ c ∈ (comparison.resolved aliases).toList, isBlank c = false := by
  intro c m
  have word := (notMem_of_isClose (isClose_of_isPlainWord (comparison.isPlainWord_table tables))).1
  have condition := (notMem_of_isClose comparison.isClose_condition).1
  simp only [resolved, qualifier, String.toList_append, List.mem_append] at m
  rcases m with (m | m) | m
  · exact word c m
  · obtain rfl : c = '.' := List.mem_singleton.mp m
    decide
  · exact condition c m

/-- No space stands in comparisons. -/
theorem space_notMem_resolved (comparisons : List Comparison) :
    ∀ piece ∈ comparisons.map (Comparison.resolved aliases), ' ' ∉ piece.toList := by
  intro piece m
  obtain ⟨comparison, -, rfl⟩ := List.mem_map.mp m
  exact space_notMem (comparison.isBlank_resolved tables)

/-- The filter of a conjunction is the list of its comparisons. -/
theorem render_conjunction (plain : PlainAliases aliases) (condition : Conjunction Comparison) :
    render aliases (condition.toExpr Comparison.toExpr) =
      .ok (conjunction.intercalate (condition.items.map (Comparison.resolved aliases))) := by
  obtain ⟨text, compact, filter⟩ := render_of_writtenAs
    (writtenAs_resolved plain (condition.elementary Comparison.elementary))
  rw [condition.resolved_toExpr, condition.compact_toExpr (Comparison.compact_resolved aliases)]
    at compact
  obtain rfl := Except.ok.inj compact
  rw [filter, replace_intercalate (space_notMem_resolved tables condition.items)]

/-- The filter of a conjunction is cut into its comparisons. -/
theorem conditions_intercalate {comparisons : List Comparison} (hne : comparisons ≠ []) :
    conditions (conjunction.intercalate (comparisons.map (Comparison.resolved aliases))) =
      comparisons.map (Comparison.resolved aliases) := by
  have ne : comparisons.map (Comparison.resolved aliases) ≠ [] := by simp [hne]
  rw [conditions, split_intercalate (space_notMem_resolved tables comparisons) ne, List.map_map]
  refine List.map_congr_left fun comparison _ => ?_
  rw [Function.comp_apply, trim, trimBlanks_of_forall (comparison.isBlank_resolved tables),
    String.ofList_toList]

end

/-! ## The part for a table -/

/-- A condition names a table exactly if the name in front of its period ends with that table. -/
theorem contains_qualifier {owner table text : String} (howner : '.' ∉ owner.toList)
    (htext : '.' ∉ text.toList) :
    contains (qualifier owner ++ text) (qualifier table) = true ↔
      table.toList <:+ owner.toList := by
  rw [contains, occursIn_iff, qualifier, qualifier, String.toList_append, String.toList_append,
    String.toList_append, List.append_assoc]
  exact append_singleton_infix_iff howner htext

/-- Without the name of its table, a condition is what stands behind the period. -/
theorem replace_qualifier {table text : String} (htext : '.' ∉ text.toList) :
    replace (qualifier table ++ text) (qualifier table) "" = text := by
  have ne : (qualifier table).toList ≠ [] := by
    simp [qualifier, String.toList_append]
  have absent : occursIn (qualifier table).toList text.toList = false := by
    apply Bool.eq_false_iff.mpr
    intro occurs
    have period : '.' ∈ (qualifier table).toList := by simp [qualifier, String.toList_append]
    exact htext ((occursIn_iff.mp occurs).subset period)
  rw [replace, String.toList_append, replaceFrom_append ne, replaceFrom_of_not_occursIn _ absent]
  exact String.ofList_toList

/-- A condition belongs to the table it names, where that is the end of no other name. -/
theorem conditionFor?_qualifier {owner table text : String} {tables : List String}
    (howner : '.' ∉ owner.toList) (htext : '.' ∉ text.toList) (known : owner ∈ tables)
    (apart : table.toList <:+ owner.toList → owner = table) :
    conditionFor? table tables (qualifier owner ++ text) =
      if owner = table then some text else none := by
  unfold conditionFor?
  by_cases own : owner = table
  · -- the table is found in its own condition, and removed from it
    subst own
    rw [if_pos ((contains_qualifier howner htext).mpr List.suffix_rfl), if_pos rfl,
      replace_qualifier htext]
  · -- the table is not found, but the owner is, so the condition is left out
    have foreign : ¬contains (qualifier owner ++ text) (qualifier table) = true :=
      fun named => own (apart ((contains_qualifier howner htext).mp named))
    have named : tables.any (fun other => contains (qualifier owner ++ text) (qualifier other)) =
        true :=
      List.any_eq_true.mpr ⟨owner, known, (contains_qualifier howner htext).mpr List.suffix_rfl⟩
    rw [if_neg foreign, if_pos named, if_neg own]

/-- With at most one table the filter stays as it is. -/
theorem forTable_of_length_le_one (filter table : String) {tables : List String}
    (h : tables.length ≤ 1) : forTable filter table tables = filter := by
  by_cases empty : filter.isEmpty = true
  · rw [forTable, if_pos empty, String.isEmpty_iff.mp empty]
  · rw [forTable, if_neg empty, if_pos h]

/-- The part for a table is the list of the comparisons with that table, without its name. -/
theorem forTable_intercalate {aliases : Aliases} (plain : PlainTables aliases)
    {comparisons : List Comparison} (hne : comparisons ≠ []) {table : String}
    {tables : List String} (several : 2 ≤ tables.length)
    (known : ∀ comparison ∈ comparisons, comparison.table aliases ∈ tables)
    (apart : ∀ comparison ∈ comparisons,
      table.toList <:+ (comparison.table aliases).toList → comparison.table aliases = table) :
    forTable (conjunction.intercalate (comparisons.map (Comparison.resolved aliases))) table
        tables =
      conjunction.intercalate
        ((comparisons.filter (·.table aliases = table)).map Comparison.condition) := by
  have nonempty : (conjunction.intercalate
      (comparisons.map (Comparison.resolved aliases))).isEmpty = false := by
    rw [isEmpty_intercalate]
    · simp [hne]
    · intro text m
      obtain ⟨comparison, -, rfl⟩ := List.mem_map.mp m
      exact comparison.resolved_ne_empty
  rw [forTable, nonempty, if_neg Bool.false_ne_true, if_neg (by omega),
    conditions_intercalate plain hne]
  refine congrArg conjunction.intercalate ?_
  -- what is kept of a list of comparisons may be empty, so the induction is on the kept lists
  clear hne nonempty
  induction comparisons with
  | nil => rfl
  | cons first rest ih =>
    have mem := known first List.mem_cons_self
    have name := (notMem_of_isClose (isClose_of_isPlainWord (first.isPlainWord_table plain))).2
    have text := (notMem_of_isClose first.isClose_condition).2
    rw [List.map_cons, Comparison.resolved, List.filterMap_cons,
      conditionFor?_qualifier name text mem (apart first List.mem_cons_self),
      ih (fun c m => known c (List.mem_cons_of_mem first m))
        fun c m => apart c (List.mem_cons_of_mem first m)]
    by_cases own : first.table aliases = table
    · simp [own]
    · simp [own]

end SqlFootprint.Filter
