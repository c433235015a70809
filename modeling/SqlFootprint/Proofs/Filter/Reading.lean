import SqlFootprint.Proofs.Filter.Comparison

/-! # Reading a filter

A filter is read against one row: it is cut at the word between conditions, and every condition is a
column, perhaps behind the name of the table, a sign and a whole number. What is written for
comparisons is read back (`readComparison?_condition`), so that a row passes a filter made of
comparisons exactly if it meets all of them (`passes_intercalate`). -/

namespace SqlFootprint.Filter

open Text

/-! ## The reader -/

/-- What a condition of a filter says: a column, a sign and a number. -/
structure Reading where
  /-- The column. -/
  column : String
  /-- The sign. -/
  comparator : Comparator
  /-- The number. -/
  value : Int
  deriving DecidableEq, Repr

/-- The number that digits stand for. -/
def digitsValue (digits : List Char) : Nat :=
  digits.foldl (fun n d => 10 * n + (d.toNat - '0'.toNat)) 0

/-- Reads a whole number that ends with the text. -/
def readNumber? (cs : List Char) : Option Int :=
  let negative := cs.head? == some '-'
  let digits := if negative then cs.tail else cs
  if digits.isEmpty || !digits.all Char.isDigit then none
  else some (if negative then -digitsValue digits else digitsValue digits)

/-- Reads a sign of comparison, the longest one that stands in front. -/
def readSign? : List Char → Option (Comparator × List Char)
  | '<' :: '=' :: '>' :: cs => some (.nullSafeEq, cs)
  | '<' :: '=' :: cs => some (.ltEq, cs)
  | '<' :: cs => some (.lt, cs)
  | '>' :: '=' :: cs => some (.gtEq, cs)
  | '>' :: cs => some (.gt, cs)
  | '!' :: '=' :: cs => some (.notEq, cs)
  | '=' :: cs => some (.eq, cs)
  | _ => none

/-- The text of a condition without the name of the table. -/
def unqualified (table : String) (cs : List Char) : List Char :=
  if (qualifier table).toList.isPrefixOf cs then cs.drop (qualifier table).toList.length else cs

/-- Reads a condition about the rows of a table. -/
def readComparison? (table text : String) : Option Reading :=
  let cs := unqualified table text.toList
  let column := cs.takeWhile (!isBoundary ·)
  match readSign? (cs.drop column.length) with
  | none => none
  | some (comparator, rest) =>
    (readNumber? rest).map fun value => ⟨String.ofList column, comparator, value⟩

section

variable {V : Type} (meets : Comparator → V → Int → Bool)

/-- A row meets what a condition says, where `meets` tells how a value compares with a number. -/
def Reading.Meets (reading : Reading) (row : String → V) : Prop :=
  meets reading.comparator (row reading.column) reading.value = true

/-- A row of a table passes a filter: every condition can be read, and the row meets it. Every row
passes the empty filter. -/
def Passes (table : String) (row : String → V) (filter : String) : Prop :=
  filter = "" ∨ ∃ readings,
    (split filter conjunction).mapM (readComparison? table) = some readings ∧
      ∀ reading ∈ readings, reading.Meets meets row

end

/-- How two whole numbers compare. -/
def Comparator.compare : Comparator → Int → Int → Bool
  | .eq, a, b => a == b
  | .notEq, a, b => a != b
  | .lt, a, b => a < b
  | .ltEq, a, b => a ≤ b
  | .gt, a, b => b < a
  | .gtEq, a, b => b ≤ a
  | .nullSafeEq, a, b => a == b

/-! ## Reading what is written -/

/-- The number that a whole number stands for. -/
def WholeNumber.value (number : WholeNumber) : Int :=
  if number.negative then -digitsValue number.digits.toList else digitsValue number.digits.toList

/-- What a comparison says about the rows of its source. -/
def Comparison.reading (comparison : Comparison) : Reading :=
  ⟨comparison.column, comparison.comparator, comparison.number.value⟩

/-- A whole number begins with a digit or a minus sign. -/
theorem WholeNumber.exists_cons (number : WholeNumber) :
    ∃ c cs, number.text.toList = c :: cs ∧ (c = '-' ∨ c.isDigit = true) := by
  obtain ⟨d, ds, eq⟩ := List.exists_cons_of_ne_nil number.digits_ne
  have digit := number.isDigit (eq ▸ List.mem_cons_self)
  unfold text
  cases number.negative with
  | true => exact ⟨'-', number.digits.toList, by simp [String.toList_append], Or.inl rfl⟩
  | false => exact ⟨d, ds, by simp [eq], Or.inr digit⟩

/-- A whole number is read back. -/
theorem readNumber?_text (number : WholeNumber) :
    readNumber? number.text.toList = some number.value := by
  have digits :
      (number.digits.toList.isEmpty || !number.digits.toList.all Char.isDigit) = false := by
    simp [number.digits_ne, number.all_isDigit]
  unfold readNumber? WholeNumber.text WholeNumber.value
  cases number.negative with
  | true => simp [String.toList_append, digits]
  | false =>
    -- the first digit is not taken for a minus sign
    obtain ⟨d, ds, eq⟩ := List.exists_cons_of_ne_nil number.digits_ne
    have digit := number.isDigit (eq ▸ List.mem_cons_self)
    have notMinus : (number.digits.toList.head? == some '-') = false := by
      rw [eq]
      apply beq_eq_false_iff_ne.mpr
      intro same
      obtain rfl : d = '-' := Option.some.inj same
      cases digit
    simp [notMinus, digits]

/-- The sign in front of a whole number is read back. -/
theorem readSign?_compact (comparator : Comparator) (number : WholeNumber) :
    readSign? (comparator.op.compact.toList ++ number.text.toList) =
      some (comparator, number.text.toList) := by
  obtain ⟨c, cs, eq, front⟩ := number.exists_cons
  have ne (d : Char) (hd : ¬(d = '-' ∨ d.isDigit = true)) : c ≠ d := by
    rintro rfl
    exact hd front
  have neEq : c ≠ '=' := ne '=' (by decide)
  have neGt : c ≠ '>' := ne '>' (by decide)
  rw [eq]
  -- a sign is the longest one, since no number goes on like a sign
  cases comparator with
  | eq => rfl
  | notEq => rfl
  | gtEq => rfl
  | nullSafeEq => rfl
  | lt =>
    show readSign? ('<' :: c :: cs) = some (.lt, c :: cs)
    simp [readSign?, neEq]
  | gt =>
    show readSign? ('>' :: c :: cs) = some (.gt, c :: cs)
    simp [readSign?, neEq]
  | ltEq =>
    show readSign? ('<' :: '=' :: c :: cs) = some (.ltEq, c :: cs)
    simp [readSign?, neGt]

/-- What stands in front of a sign is read as a column. -/
theorem takeWhile_condition (comparison : Comparison) :
    comparison.condition.toList.takeWhile (!isBoundary ·) = comparison.column.1.toList := by
  have letters : ∀ c ∈ comparison.column.1.toList, (!isBoundary c) = true := by
    intro c m
    rw [isBoundary_eq_false_of_isPlainWord comparison.column.2 m]
    rfl
  have sign (more : List Char) : (comparison.comparator.op.compact.toList ++ more).takeWhile
      (!isBoundary ·) = [] := by
    cases comparison.comparator <;> rfl
  rw [Comparison.condition, String.toList_append, String.toList_append, List.append_assoc,
    List.takeWhile_append_of_pos letters, sign, List.append_nil]

/-- No name of a table stands in front of a comparison without its source. -/
theorem unqualified_condition (table : String) (comparison : Comparison) :
    unqualified table comparison.condition.toList = comparison.condition.toList := by
  -- the name of a table comes with a period, and the comparison has none
  have noPeriod := (notMem_of_isClose comparison.isClose_condition).2
  apply if_neg
  intro front
  have period : '.' ∈ (qualifier table).toList := by simp [qualifier, String.toList_append]
  exact noPeriod ((List.isPrefixOf_iff_prefix.mp front).subset period)

/-- The name of the table in front of a condition is passed over. -/
theorem unqualified_qualifier (table text : String) :
    unqualified table (qualifier table ++ text).toList = text.toList := by
  have front : (qualifier table).toList.isPrefixOf ((qualifier table).toList ++ text.toList) =
      true := List.isPrefixOf_iff_prefix.mpr (List.prefix_append _ _)
  rw [unqualified, String.toList_append, if_pos front, List.drop_left]

section

variable {table : String} {comparison : Comparison}

/-- A comparison is read back once the name of its table is passed over. -/
theorem readComparison?_of_unqualified {text : String}
    (h : unqualified table text.toList = comparison.condition.toList) :
    readComparison? table text = some comparison.reading := by
  have rest : comparison.condition.toList.drop comparison.column.1.toList.length =
      comparison.comparator.op.compact.toList ++ comparison.number.text.toList := by
    rw [Comparison.condition, String.toList_append, String.toList_append, List.append_assoc,
      List.drop_left]
  unfold readComparison?
  dsimp only
  rw [h, takeWhile_condition, rest, readSign?_compact]
  dsimp only
  rw [readNumber?_text, String.ofList_toList]
  rfl

/-- A comparison is read back from its text without the name of its source. -/
theorem readComparison?_condition :
    readComparison? table comparison.condition = some comparison.reading :=
  readComparison?_of_unqualified (unqualified_condition table comparison)

/-- A comparison is read back from its text with the name of its table. -/
theorem readComparison?_qualifier :
    readComparison? table (qualifier table ++ comparison.condition) = some comparison.reading :=
  readComparison?_of_unqualified (unqualified_qualifier table comparison.condition)

/-- Nothing is read from an empty text. -/
theorem ne_empty_of_readComparison? {text : String} {reading : Reading}
    (h : readComparison? table text = some reading) : text ≠ "" := by
  rintro rfl
  have bare : unqualified table [] = [] := by
    unfold unqualified
    split
    · exact List.drop_nil
    · rfl
  have nothing : readComparison? table "" = none := by
    unfold readComparison?
    rw [show "".toList = [] from rfl, bare]
    rfl
  rw [nothing] at h
  cases h

end

/-- Texts that are read one by one are read together. -/
theorem mapM_readComparison? {table : String} {items : List Comparison} {text : Comparison → String}
    (h : ∀ comparison ∈ items, readComparison? table (text comparison) = some comparison.reading) :
    (items.map text).mapM (readComparison? table) = some (items.map Comparison.reading) := by
  induction items with
  | nil => rfl
  | cons first rest ih =>
    rw [List.map_cons, List.mapM_cons, h first List.mem_cons_self,
      ih fun c m => h c (List.mem_cons_of_mem first m)]
    rfl

/-- A row passes a filter made of comparisons exactly if it meets all of them. -/
theorem passes_intercalate {V : Type} (meets : Comparator → V → Int → Bool) {table : String}
    (row : String → V) {items : List Comparison} {text : Comparison → String}
    (space : ∀ comparison ∈ items, ' ' ∉ (text comparison).toList)
    (read : ∀ comparison ∈ items,
      readComparison? table (text comparison) = some comparison.reading) :
    Passes meets table row (conjunction.intercalate (items.map text)) ↔
      ∀ comparison ∈ items, comparison.reading.Meets meets row := by
  by_cases nothing : items = []
  · subst nothing
    simp [Passes]
  · -- the filter is cut where its comparisons were joined, and it is not the empty one
    have pieces :
        split (conjunction.intercalate (items.map text)) conjunction = items.map text := by
      refine split_intercalate (fun piece m => ?_) (by simp [nothing])
      obtain ⟨comparison, mem, rfl⟩ := List.mem_map.mp m
      exact space comparison mem
    have ne : conjunction.intercalate (items.map text) ≠ "" := by
      intro empty
      have texts : ∀ piece ∈ items.map text, piece ≠ "" := by
        intro piece m
        obtain ⟨comparison, mem, rfl⟩ := List.mem_map.mp m
        exact ne_empty_of_readComparison? (read comparison mem)
      have isEmpty := isEmpty_intercalate texts
      rw [empty, List.isEmpty_map] at isEmpty
      exact nothing (List.isEmpty_iff.mp isEmpty.symm)
    rw [Passes, pieces, mapM_readComparison? read]
    constructor
    · rintro (empty | ⟨readings, same, all⟩)
      · exact absurd empty ne
      · intro comparison m
        rw [← Option.some.inj same] at all
        exact all _ (List.mem_map_of_mem m)
    · intro all
      refine Or.inr ⟨_, rfl, fun reading m => ?_⟩
      obtain ⟨comparison, mem, rfl⟩ := List.mem_map.mp m
      exact all comparison mem

end SqlFootprint.Filter
