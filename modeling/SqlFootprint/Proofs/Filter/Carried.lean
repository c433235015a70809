import Mathlib.Tactic.SplitIfs
import SqlFootprint.Filter.Normal
import SqlFootprint.Filter.Split

/-! # Which conditions are carried

The splitter carries a condition over to a table without the name of the table, or leaves it out
(`conditionFor?_eq`). With several tables, the part of a filter for one of them is made of the
conditions carried (`forTable_eq`): those that mention the table, and those that mention none. -/

namespace SqlFootprint.Filter

open Text

/-- Whether a condition names a table: the name stands in front of a period, and at the beginning or
behind a character that is no part of it. -/
def Names (condition table : String) : Prop :=
  ∃ before after, condition.toList = before ++ (qualifier table).toList ++ after ∧
    ∀ c ∈ before.getLast?, isBoundary c = true

/-- Whether a table with its period occurs in a condition. -/
def Mentions (condition table : String) : Prop := contains condition (qualifier table) = true

instance (condition table : String) : Decidable (Mentions condition table) :=
  inferInstanceAs (Decidable (_ = true))

/-- A condition mentions the tables that it names. -/
theorem Names.mentions {condition table : String} (h : Names condition table) :
    Mentions condition table := by
  obtain ⟨before, after, eq, -⟩ := h
  exact occursIn_iff.mpr ⟨before, after, eq.symm⟩

/-- A condition without the name of a table in front of its columns. -/
def withoutName (table condition : String) : String := replace condition (qualifier table) ""

/-- The name of a table in front of a column ends with its period. -/
theorem toList_qualifier (table : String) : (qualifier table).toList = table.toList ++ ['.'] := by
  simp [qualifier]

/-- With its period, no name is empty. -/
theorem qualifier_ne_nil (table : String) : (qualifier table).toList ≠ [] := by
  simp [toList_qualifier]

/-- The characters of a condition without the name of a table. -/
theorem toList_withoutName (table condition : String) : (withoutName table condition).toList =
    replaceFrom (qualifier table).toList [] 0 condition.toList := by
  rw [withoutName, replace, String.toList_ofList]
  rfl

/-- Whether the splitter carries a condition over to a table. -/
def isCarried (table : String) (tables : List String) (condition : String) : Bool :=
  contains condition (qualifier table) ||
    tables.all fun other => !contains condition (qualifier other)

/-- A condition that does not mention a table stays as it is without its name. -/
theorem withoutName_of_not_mentions {condition table : String} (h : ¬Mentions condition table) :
    withoutName table condition = condition := by
  rw [withoutName, replace, replaceFrom_of_not_occursIn _ (Bool.eq_false_iff.mpr h),
    String.ofList_toList]

/-- A condition is carried over without the name of the table, or left out. -/
theorem conditionFor?_eq (table : String) (tables : List String) (condition : String) :
    conditionFor? table tables condition =
      if isCarried table tables condition then some (withoutName table condition) else none := by
  unfold conditionFor? isCarried
  by_cases own : contains condition (qualifier table) = true
  · rw [if_pos own, own, Bool.true_or, if_pos rfl]
    rfl
  · rw [if_neg own, Bool.eq_false_iff.mpr own, Bool.false_or, withoutName_of_not_mentions own,
      List.all_eq_not_any_not]
    simp only [Bool.not_not]
    cases tables.any fun other => contains condition (qualifier other) <;> rfl

/-- Nothing is mentioned in an empty text. -/
theorem contains_empty (table : String) : contains "" (qualifier table) = false := by
  simp [contains, occursIn, qualifier]

/-- A filter has a condition, if only an empty one. -/
theorem conditions_ne_nil (filter : String) : conditions filter ≠ [] := by
  rw [conditions, split, List.map_map]
  exact mt List.map_eq_nil_iff.mp (splitFrom_ne_nil _ _ _)

/-- With several tables, the part of a filter for a table is made of the conditions carried. -/
theorem forTable_eq {table : String} {tables : List String} (several : 1 < tables.length)
    (filter : String) :
    forTable filter table tables = conjunction.intercalate
      (((conditions filter).filter (isCarried table tables)).map (withoutName table)) := by
  unfold forTable
  split
  · next empty =>
    -- the only condition of an empty filter is empty
    obtain rfl := String.isEmpty_iff.mp empty
    have carried : isCarried table tables "" = true := by simp [isCarried, contains_empty]
    rw [show conditions "" = [""] from rfl, List.filter_cons_of_pos carried, List.filter_nil,
      List.map_singleton, withoutName_of_not_mentions (by simp [Mentions, contains_empty])]
    rfl
  · rw [if_neg (Nat.not_le.mpr several)]
    congr 1
    generalize conditions filter = pieces
    induction pieces with
    | nil => rfl
    | cons condition pieces ih =>
      rw [List.filterMap_cons, conditionFor?_eq, List.filter_cons]
      split_ifs with carried
      · rw [ih, List.map_cons]
      · exact ih

/-- A condition that mentions other tables only is not carried. -/
theorem isCarried_eq_false {table condition : String} {tables : List String}
    (own : ¬Mentions condition table) (others : ∃ other ∈ tables, Mentions condition other) :
    isCarried table tables condition = false := by
  obtain ⟨other, m, mentions⟩ := others
  rw [isCarried, Bool.eq_false_iff.mpr own, Bool.false_or, List.all_eq_false]
  exact ⟨other, m, by rw [mentions]; decide⟩

/-- A condition that mentions no tables is carried. -/
theorem isCarried_of_forall {table condition : String} {tables : List String}
    (h : ∀ other ∈ tables, ¬Mentions condition other) :
    isCarried table tables condition = true := by
  rw [isCarried, Bool.or_eq_true, List.all_eq_true]
  exact Or.inr fun other m => by rw [Bool.eq_false_iff.mpr (h other m)]; rfl

/-- A condition that names the table is carried. -/
theorem isCarried_of_names {table condition : String} (tables : List String)
    (h : Names condition table) : isCarried table tables condition = true := by
  rw [isCarried, show contains condition (qualifier table) = true from h.mentions, Bool.true_or]

/-- With a table among several there is another. -/
theorem one_lt_length_of_ne {table : String} {tables : List String} (listed : table ∈ tables)
    (ne : tables ≠ [table]) : 1 < tables.length := by
  match tables, listed with
  | [only], m => exact absurd (congrArg (· :: []) (List.mem_singleton.mp m).symm) ne
  | _ :: _ :: _, _ => simp

/-- Nothing is left for a table of a filter whose conditions mention other tables only. -/
theorem forTable_of_foreign {filter table : String} {tables : List String}
    (listed : table ∈ tables)
    (foreign : ∀ c ∈ conditions filter, ¬Mentions c table ∧ ∃ other ∈ tables, Mentions c other) :
    forTable filter table tables = "" := by
  have ne : tables ≠ [table] := by
    -- the first condition mentions another table
    obtain ⟨c, pieces, eq⟩ := List.exists_cons_of_ne_nil (conditions_ne_nil filter)
    obtain ⟨own, other, m, mentions⟩ := foreign c (eq ▸ List.mem_cons_self)
    rintro rfl
    exact own (List.mem_singleton.mp m ▸ mentions)
  have nothing : (conditions filter).filter (isCarried table tables) = [] :=
    List.filter_eq_nil_iff.mpr fun c m => by
      rw [isCarried_eq_false (foreign c m).1 (foreign c m).2]
      exact Bool.false_ne_true
  rw [forTable_eq (one_lt_length_of_ne listed ne), nothing]
  rfl

end SqlFootprint.Filter
