import SqlFootprint.Filter.Split
import SqlFootprint.Proofs.Filter.Resolution

/-! # Conjunctions

Conditions tied together by `AND`, in any order and depth. A conjunction is written condition by
condition (`Conjunction.compact_toExpr`), and conditions without blanks are read back from the
joined text (`split_intercalate`). -/

namespace SqlFootprint.Filter

open Text Sql

/-! ## Conditions tied together -/

/-- Conditions tied together, in any order and depth. -/
inductive Conjunction (α : Type) where
  /-- A condition. -/
  | single (item : α)
  /-- What holds if both conjunctions do. -/
  | both (left right : Conjunction α)

namespace Conjunction

variable {α : Type}

/-- The conditions from left to right. -/
def items : Conjunction α → List α
  | .single item => [item]
  | .both left right => left.items ++ right.items

/-- The expression of a conjunction, made of the expressions of its conditions. -/
def toExpr (expr : α → Expr) : Conjunction α → Expr
  | .single item => expr item
  | .both left right => .binary (left.toExpr expr) .and (right.toExpr expr)

/-- A conjunction has a condition. -/
theorem items_ne_nil (c : Conjunction α) : c.items ≠ [] := by
  induction c with
  | single item => exact List.cons_ne_nil item []
  | both left right ihl ihr => simp [items, ihl]

/-- A conjunction of elementary conditions is elementary. -/
theorem elementary {expr : α → Expr} (h : ∀ item, (expr item).Elementary) (c : Conjunction α) :
    (c.toExpr expr).Elementary := by
  induction c with
  | single item => exact h item
  | both left right ihl ihr => exact .binary .and ihl ihr

/-- A conjunction is resolved condition by condition. -/
theorem resolved_toExpr (aliases : Aliases) (expr : α → Expr) (c : Conjunction α) :
    (c.toExpr expr).resolved aliases = c.toExpr fun item => (expr item).resolved aliases := by
  induction c with
  | single item => rfl
  | both left right ihl ihr => rw [toExpr, Expr.resolved, ihl, ihr, toExpr]

/-- A conjunction is written condition by condition. -/
theorem compact_toExpr {expr : α → Expr} {text : α → String}
    (h : ∀ item, (expr item).compact = .ok (text item)) (c : Conjunction α) :
    (c.toExpr expr).compact = .ok (" AND ".intercalate (c.items.map text)) := by
  induction c with
  | single item =>
    rw [toExpr, h]
    simp [items]
  | both left right ihl ihr =>
    have ne (side : Conjunction α) : side.items.map text ≠ [] := by simp [side.items_ne_nil]
    rw [toExpr, Expr.compact, ihl, ihr, items, List.map_append,
      String.intercalate_append_of_ne_nil (ne left) (ne right)]
    rfl

end Conjunction

/-! ## The joined text -/

/-- Joining conditions gives an empty text only if there are none. -/
theorem isEmpty_intercalate {conditions : List String} (h : ∀ text ∈ conditions, text ≠ "") :
    (conjunction.intercalate conditions).isEmpty = conditions.isEmpty := by
  cases conditions with
  | nil => rfl
  | cons first rest =>
    obtain ⟨c, cs, eq⟩ : ∃ c cs, first.toList = c :: cs := by
      apply List.exists_cons_of_ne_nil
      exact fun empty => h first List.mem_cons_self (String.toList_eq_nil_iff.mp empty)
    apply Bool.eq_false_iff.mpr
    intro empty
    have chars := String.toList_eq_nil_iff.mpr (String.isEmpty_iff.mp empty)
    rw [String.toList_intercalate] at chars
    cases rest <;> simp [eq] at chars

section

variable {pieces : List String} (h : ∀ piece ∈ pieces, ' ' ∉ piece.toList)

include h

/-- No space stands in the characters of the conditions. -/
theorem space_notMem_toList : ∀ piece ∈ pieces.map String.toList, ' ' ∉ piece := by
  intro piece m
  obtain ⟨text, mem, rfl⟩ := List.mem_map.mp m
  exact h text mem

/-- Between conditions without spaces the word is written in lower case. -/
theorem replace_intercalate :
    replace (" AND ".intercalate pieces) " AND " " and " = conjunction.intercalate pieces := by
  apply String.toList_inj.mp
  rw [replace, String.toList_ofList, String.toList_intercalate, String.toList_intercalate]
  exact replaceFrom_intercalate conjunction.toList (space_notMem_toList h)

/-- Conditions without spaces are read back from the joined text. -/
theorem split_intercalate (hne : pieces ≠ []) :
    split (conjunction.intercalate pieces) conjunction = pieces := by
  have cut : splitFrom (' ' :: "and ".toList) 0 (conjunction.toList.intercalate _) = _ :=
    splitFrom_intercalate (by simp [hne]) (space_notMem_toList h)
  rw [split, String.toList_intercalate]
  refine (congrArg (List.map String.ofList) cut).trans ?_
  simp [Function.comp_def]

end

end SqlFootprint.Filter
