import Mathlib.Algebra.GroupWithZero.Nat
import Mathlib.Data.List.Basic
import SqlFootprint.Proofs.Text.Separator
import SqlFootprint.Text.Blank

/-! # Counting characters

Removing a text that lacks a character, splitting and trimming change the number of its occurrences
in a way that does not depend on where they stand: nothing is lost by removing
(`count_replaceFrom_nil`), and splitting loses what stands in the separators
(`intercalate_splitFrom`, `count_intercalate`). -/

namespace SqlFootprint.Text

/-- Joining with the pattern undoes splitting at it. -/
theorem intercalate_splitFrom_skip {pattern : List Char} (h : pattern ≠ []) (skip : Nat)
    (text : List Char) : pattern.intercalate (splitFrom pattern skip text) = text.drop skip := by
  induction text generalizing skip with
  | nil => cases skip <;> rfl
  | cons c cs ih =>
    cases skip with
    | succ n => exact ih n
    | zero =>
      rw [splitFrom, List.drop_zero]
      by_cases front : pattern.isPrefixOf (c :: cs) = true
      · -- the first piece is empty, and the pattern stands between it and the others
        obtain ⟨rest, eq⟩ := List.isPrefixOf_iff_prefix.mp front
        obtain ⟨p, ps, rfl⟩ := List.exists_cons_of_ne_nil h
        obtain ⟨piece, pieces, cut⟩ := List.exists_cons_of_ne_nil
          (splitFrom_ne_nil (p :: ps) ((p :: ps).length - 1) cs)
        have tail : cs = ps ++ rest := (List.cons.inj eq).2.symm
        rw [if_pos front, cut, List.intercalate_cons_cons, ← cut, ih, ← eq, tail,
          List.length_cons, Nat.add_sub_cancel, List.drop_left, List.nil_append]
      · rw [if_neg front]
        obtain ⟨piece, pieces, cut⟩ := List.exists_cons_of_ne_nil (splitFrom_ne_nil pattern 0 cs)
        have later := ih 0
        rw [cut] at later ⊢
        cases pieces with
        | nil => simpa using later
        | cons next more =>
          rw [List.intercalate_cons_cons] at later ⊢
          rw [List.cons_append, List.cons_append, later, List.drop_zero]

/-- Joining with the pattern undoes splitting at it. -/
theorem intercalate_splitFrom {pattern : List Char} (h : pattern ≠ []) (text : List Char) :
    pattern.intercalate (splitFrom pattern 0 text) = text :=
  intercalate_splitFrom_skip h 0 text

/-- What joined pieces hold is what the pieces hold and what stands between them. -/
theorem count_intercalate (c : Char) (separator : List Char) {pieces : List (List Char)}
    (h : pieces ≠ []) : (separator.intercalate pieces).count c + separator.count c =
      (pieces.map (List.count c)).sum + pieces.length * separator.count c := by
  induction pieces with
  | nil => exact absurd rfl h
  | cons piece pieces ih =>
    cases pieces with
    | nil => simp
    | cons next more =>
      have later := ih (List.cons_ne_nil next more)
      rw [List.intercalate_cons_cons, List.count_append, List.count_append, List.map_cons,
        List.sum_cons, List.length_cons, Nat.succ_mul]
      omega

/-- Removing a text that lacks a character leaves all its occurrences. -/
theorem count_replaceFrom_nil {c : Char} {pattern : List Char} (ne : pattern ≠ [])
    (h : c ∉ pattern) (skip : Nat) (text : List Char) :
    (replaceFrom pattern [] skip text).count c = (text.drop skip).count c := by
  induction text generalizing skip with
  | nil => simp
  | cons d ds ih =>
    cases skip with
    | succ n => exact ih n
    | zero =>
      rw [replaceFrom, List.drop_zero]
      by_cases front : pattern.isPrefixOf (d :: ds) = true
      · -- the occurrence that is removed lacks the character
        obtain ⟨rest, eq⟩ := List.isPrefixOf_iff_prefix.mp front
        obtain ⟨p, ps, rfl⟩ := List.exists_cons_of_ne_nil ne
        have tail : ds = ps ++ rest := (List.cons.inj eq).2.symm
        rw [if_pos front, List.nil_append, ih, ← eq, tail, List.length_cons, Nat.add_sub_cancel,
          List.drop_left, List.count_append, List.count_eq_zero_of_not_mem h, Nat.zero_add]
      · rw [if_neg front, List.count_cons, List.count_cons, ih, List.drop_zero]

/-- Trimming brings in no characters. -/
theorem count_trim_le (c : Char) (text : String) :
    (trim text).toList.count c ≤ text.toList.count c := by
  rw [trim, String.toList_ofList, trimBlanks, List.count_reverse]
  calc _ ≤ ((text.toList.dropWhile isBlank).reverse).count c :=
        (List.dropWhile_suffix _).sublist.count_le c
    _ = (text.toList.dropWhile isBlank).count c := List.count_reverse
    _ ≤ text.toList.count c := (List.dropWhile_suffix _).sublist.count_le c

end SqlFootprint.Text
