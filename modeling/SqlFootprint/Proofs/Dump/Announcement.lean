import SqlFootprint.Proofs.Dump.Layout
import SqlFootprint.Proofs.Dump.LaterBlocks
import SqlFootprint.Proofs.Text.Counting

/-! # Left out conditions are announced

Whether a plan has remarks on exact rows is decided by comparing two texts, the part of the filter
for the table and the whole filter without the names of tables. Both are made by removing pieces of
text, which may move together and form new names or new separators. What cannot come about is that
they agree after a condition was left out: the names hold no spaces, so that the whole filter keeps
all of its spaces, while the part for the table has lost those around the word in front of the
condition left out (`spaces_forTable_lt`). -/

namespace SqlFootprint

open Text Sql

namespace Filter

/-- The number of spaces in a text. -/
def spaces (text : String) : Nat := text.toList.count ' '

/-- Removing a name without spaces keeps all spaces. -/
theorem spaces_replace_qualifier {table : String} (h : ' ' ∉ table.toList) (text : String) :
    spaces (replace text (qualifier table) "") = spaces text := by
  have ne : (qualifier table).toList ≠ [] := by simp [qualifier]
  have lacks : ' ' ∉ (qualifier table).toList := by simp [qualifier, h]
  rw [spaces, replace, String.toList_ofList]
  exact count_replaceFrom_nil ne lacks 0 text.toList

/-- Removing the names of tables without spaces keeps all spaces. -/
theorem spaces_stripTables {tables : List String} (h : ∀ table ∈ tables, ' ' ∉ table.toList)
    (filter : String) : spaces (stripTables filter tables) = spaces filter := by
  induction tables generalizing filter with
  | nil => rfl
  | cons table tables ih =>
    show spaces (stripTables (replace filter (qualifier table) "") tables) = _
    rw [ih fun other m => h other (List.mem_cons_of_mem table m),
      spaces_replace_qualifier (h table List.mem_cons_self)]

/-- What is carried of a condition has no more spaces than the condition. -/
theorem spaces_conditionFor?_le {table : String} (h : ' ' ∉ table.toList) {tables : List String}
    {condition part : String} (carried : conditionFor? table tables condition = some part) :
    spaces part ≤ spaces condition := by
  rw [conditionFor?_eq] at carried
  split_ifs at carried
  obtain rfl := Option.some.inj carried
  exact (spaces_replace_qualifier h condition).le

/-- The spaces of joined conditions are those of the conditions and two between each and the
next. -/
theorem spaces_intercalate {pieces : List String} (h : pieces ≠ []) :
    spaces (conjunction.intercalate pieces) + 2 = (pieces.map spaces).sum + 2 * pieces.length := by
  have ne : pieces.map String.toList ≠ [] := mt List.map_eq_nil_iff.mp h
  have count := count_intercalate ' ' conjunction.toList ne
  have two : conjunction.toList.count ' ' = 2 := by decide
  rw [two, List.map_map, List.length_map] at count
  rw [spaces, String.toList_intercalate, count, Nat.mul_comm]
  rfl

/-- Trimmed conditions have no more spaces than they had. -/
theorem sum_spaces_trim_le (pieces : List String) :
    ((pieces.map trim).map spaces).sum ≤ (pieces.map spaces).sum := by
  induction pieces with
  | nil => exact Nat.le_refl 0
  | cons piece pieces ih =>
    have first : spaces (trim piece) ≤ spaces piece := count_trim_le ' ' piece
    rw [List.map_cons, List.map_cons, List.sum_cons, List.map_cons, List.sum_cons]
    exact Nat.add_le_add first ih

/-- The spaces of a filter are those of its pieces and two between each and the next. -/
theorem sum_spaces_conditions_le (filter : String) :
    ((conditions filter).map spaces).sum + 2 * (conditions filter).length ≤
      spaces filter + 2 := by
  have pieces : split filter conjunction ≠ [] :=
    mt List.map_eq_nil_iff.mp (splitFrom_ne_nil _ _ _)
  have joined : conjunction.intercalate (split filter conjunction) = filter := by
    have ne : conjunction.toList ≠ [] := by decide
    apply String.toList_inj.mp
    rw [String.toList_intercalate, split, List.map_map]
    simp only [Function.comp_def, String.toList_ofList, List.map_id']
    exact intercalate_splitFrom ne filter.toList
  have whole := spaces_intercalate pieces
  rw [joined] at whole
  rw [conditions, List.length_map, whole]
  exact Nat.add_le_add_right (sum_spaces_trim_le _) _

/-- If a condition is left out, the conditions carried have fewer spaces, counting two for each. -/
theorem sum_spaces_filterMap_lt {table : String} (h : ' ' ∉ table.toList) (tables : List String)
    {pieces : List String} (dropped : ∃ c ∈ pieces, conditionFor? table tables c = none) :
    ((pieces.filterMap (conditionFor? table tables)).map spaces).sum +
        2 * (pieces.filterMap (conditionFor? table tables)).length <
      (pieces.map spaces).sum + 2 * pieces.length := by
  have le (pieces : List String) :
      ((pieces.filterMap (conditionFor? table tables)).map spaces).sum +
          2 * (pieces.filterMap (conditionFor? table tables)).length ≤
        (pieces.map spaces).sum + 2 * pieces.length := by
    induction pieces with
    | nil => simp
    | cons piece pieces ih =>
      rw [List.filterMap_cons, List.map_cons, List.sum_cons, List.length_cons]
      split
      · omega
      · next carried =>
        have := spaces_conditionFor?_le h carried
        rw [List.map_cons, List.sum_cons, List.length_cons]
        omega
  obtain ⟨c, m, none⟩ := dropped
  obtain ⟨before, after, rfl⟩ := List.append_of_mem m
  have front := le before
  have back := le after
  rw [List.filterMap_append, List.filterMap_cons, none]
  simp only [List.map_append, List.sum_append, List.length_append, List.map_cons, List.sum_cons,
    List.length_cons]
  omega

/-- If a condition is left out and something remains, the part of the filter for a table has fewer
spaces than the filter. -/
theorem spaces_forTable_lt {table : String} (h : ' ' ∉ table.toList) {tables : List String}
    (several : 1 < tables.length) {filter : String}
    (dropped : ∃ c ∈ conditions filter, conditionFor? table tables c = none)
    (remains : forTable filter table tables ≠ "") :
    spaces (forTable filter table tables) < spaces filter := by
  have carried : forTable filter table tables =
      conjunction.intercalate ((conditions filter).filterMap (conditionFor? table tables)) := by
    unfold forTable at remains ⊢
    split_ifs at remains ⊢ with empty single
    · exact absurd rfl remains
    · exact absurd several (Nat.not_lt.mpr single)
    · rfl
  have nonempty : (conditions filter).filterMap (conditionFor? table tables) ≠ [] := by
    intro none
    rw [none] at carried
    exact remains carried
  have kept := spaces_intercalate nonempty
  have fewer := sum_spaces_filterMap_lt h tables dropped
  have whole := sum_spaces_conditions_le filter
  rw [carried]
  omega

end Filter

namespace Dump

open SqlFootprint.Filter

/-- If the command for the table that a statement changes leaves out a condition but not all, the
whole filter without the names of tables is another text than the filter of the command, and the
remarks on exact rows stand in front of the command, whatever the text of the filter is. -/
theorem plan_of_dropped (settings : Settings) {statement : Statement}
    (changes : statement.footprint.action = some .update ∨
      statement.footprint.action = some .delete)
    {first second : String} {others : List String}
    (listed : statement.footprint.tables = first :: second :: others)
    (spaceless : ∀ table ∈ statement.footprint.tables, ' ' ∉ table.toList) (filter : String)
    (dropped : ∃ c ∈ conditions filter,
      conditionFor? first statement.footprint.tables c = none)
    (remains : forTable filter first statement.footprint.tables ≠ "") :
    stripTables filter statement.footprint.tables ≠
        forTable filter first statement.footprint.tables ∧
      plan settings { statement.footprint with filter } =
        exactRows settings first statement.footprint.tables filter ++
          [directive settings first (forTable filter first statement.footprint.tables)] := by
  have several : 1 < statement.footprint.tables.length := by simp [listed]
  have primary : statement.footprint.primary = some first :=
    ((isCoherent_footprint statement).primary first).mpr ⟨changes, by rw [listed]; rfl⟩
  have differ : stripTables filter statement.footprint.tables ≠
      forTable filter first statement.footprint.tables := by
    intro same
    have fewer := spaces_forTable_lt (spaceless first (by simp [listed])) several dropped remains
    rw [← same, spaces_stripTables spaceless] at fewer
    exact Nat.lt_irrefl _ fewer
  have mutation : ({ statement.footprint with filter } : Footprint).isMutation = true :=
    isMutation_iff.mpr changes
  have narrowed : isNarrowed { statement.footprint with filter } first = true := by
    simp only [isNarrowed, Footprint.isMutation, Bool.and_eq_true, beq_iff_eq, bne_iff_ne,
      decide_eq_true_eq, Bool.not_eq_true', String.isEmpty_eq_false_iff]
    exact ⟨⟨⟨⟨mutation, primary⟩, several⟩, differ⟩, remains⟩
  refine ⟨differ, ?_⟩
  rw [plan_of_isMutation settings mutation listed primary, if_pos narrowed]
  rfl

/-- Of `users.a=1 and posts.k='x and y'` the command for `users` carries `a=1 and y'`, and the
remarks stand in front of it. -/
theorem plan_cutLiteral :
    stripTables "users.a=1 and posts.k='x and y'" ["users", "posts"] ≠ "a=1 and y'" ∧
      plan .default { (deletion crossedSources crossedConjunction).footprint with
          filter := "users.a=1 and posts.k='x and y'" } =
        exactRows .default "users" ["users", "posts"] "users.a=1 and posts.k='x and y'" ++
          [.directive "mysqldump --where=\"a=1 and y'\" database_name users"] := by
  have listed : (deletion crossedSources crossedConjunction).footprint.tables =
      ["users", "posts"] := by
    decide +kernel
  have carried : forTable "users.a=1 and posts.k='x and y'" "users" ["users", "posts"] =
      "a=1 and y'" := by
    decide +kernel
  have changes : (deletion crossedSources crossedConjunction).footprint.action = some .update ∨
      (deletion crossedSources crossedConjunction).footprint.action = some .delete := .inr rfl
  have announced := plan_of_dropped .default changes listed
    (by rw [listed]; decide) "users.a=1 and posts.k='x and y'"
    ⟨"posts.k='x", by decide +kernel, by rw [listed]; decide +kernel⟩
    (by rw [listed, carried]; decide)
  rwa [listed, carried] at announced

end Dump

end SqlFootprint
