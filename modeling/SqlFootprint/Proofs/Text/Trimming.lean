import Mathlib.Data.List.TakeWhile
import SqlFootprint.Text.Blank

/-! # Trimming

A trimmed text is the one text that is left when the blanks at both ends are gone: around it there
are only blanks, and it neither begins nor ends with one (`trims_iff`). Nothing is left of a text if
and only if it is blank (`trimBlanks_eq_nil`). -/

namespace SqlFootprint.Text

/-! ## Characters between blanks -/

/-- The blanks at the front are gone once something else stands there. -/
theorem dropWhile_blanks_append {blanks cs : List Char} (h : ∀ c ∈ blanks, isBlank c = true)
    (first : ∀ c ∈ cs.head?, isBlank c = false) : (blanks ++ cs).dropWhile isBlank = cs := by
  rw [List.dropWhile_append_of_pos h]
  cases cs with
  | nil => rfl
  | cons c cs => exact List.dropWhile_cons_of_neg (by simp [first c rfl])

/-- What is left when the blanks at the front are gone does not begin with one. -/
theorem isBlank_of_head?_dropWhile {cs : List Char} {c : Char}
    (h : c ∈ (cs.dropWhile isBlank).head?) : isBlank c = false := by
  have first := List.head?_dropWhile_not isBlank cs
  rw [Option.mem_def.mp h] at first
  exact first

/-- Characters stand between the blanks that are trimmed. -/
theorem exists_eq_append_trimBlanks (cs : List Char) :
    ∃ blanks, cs.dropWhile isBlank = trimBlanks cs ++ blanks ∧ ∀ c ∈ blanks, isBlank c = true := by
  have back := List.takeWhile_append_dropWhile (p := isBlank) (l := (cs.dropWhile isBlank).reverse)
  refine ⟨((cs.dropWhile isBlank).reverse.takeWhile isBlank).reverse, ?_, fun c m => ?_⟩
  · rw [trimBlanks, ← List.reverse_append, back, List.reverse_reverse]
  · exact List.mem_takeWhile_imp (List.mem_reverse.mp m)

/-- Nothing is left between the blanks at the ends if and only if there is nothing else. -/
theorem trimBlanks_eq_nil (cs : List Char) :
    trimBlanks cs = [] ↔ ∀ c ∈ cs, isBlank c = true := by
  constructor
  · intro h c m
    obtain ⟨blanks, eq, blank⟩ := exists_eq_append_trimBlanks cs
    rw [h, List.nil_append] at eq
    rw [← List.takeWhile_append_dropWhile (p := isBlank) (l := cs), eq] at m
    rcases List.mem_append.mp m with m | m
    · exact List.mem_takeWhile_imp m
    · exact blank c m
  · intro h
    rw [trimBlanks, List.dropWhile_eq_nil_iff.mpr h]
    rfl

/-! ## Texts between blanks -/

/-- A text stands in another one between blanks, and neither begins nor ends with a blank. -/
structure Trims (text trimmed : String) : Prop where
  /-- Around it there are only blanks. -/
  around : ∃ before after, text.toList = before ++ (trimmed.toList ++ after) ∧
    (∀ c ∈ before, isBlank c = true) ∧ ∀ c ∈ after, isBlank c = true
  /-- It does not begin with a blank. -/
  first : ∀ c ∈ trimmed.toList.head?, isBlank c = false
  /-- It does not end with a blank. -/
  last : ∀ c ∈ trimmed.toList.getLast?, isBlank c = false

/-- A text that is trimmed stands between blanks. -/
theorem trims_trim (text : String) : Trims text (trim text) := by
  have chars : (trim text).toList = trimBlanks text.toList := String.toList_ofList
  obtain ⟨blanks, eq, blank⟩ := exists_eq_append_trimBlanks text.toList
  refine ⟨⟨text.toList.takeWhile isBlank, blanks, ?_, fun c m => List.mem_takeWhile_imp m, blank⟩,
    fun c m => ?_, fun c m => ?_⟩
  · rw [chars, ← eq, List.takeWhile_append_dropWhile]
  · have head : c ∈ (text.toList.dropWhile isBlank).head? := by
      rw [chars] at m
      rw [eq, List.head?_append, Option.mem_def.mp m]
      rfl
    exact isBlank_of_head?_dropWhile head
  · rw [chars, trimBlanks, List.getLast?_reverse] at m
    exact isBlank_of_head?_dropWhile m

/-- There is only one text between the blanks. -/
theorem trims_iff {text trimmed : String} : Trims text trimmed ↔ trimmed = trim text := by
  constructor
  · rintro ⟨⟨before, after, eq, blankBefore, blankAfter⟩, first, last⟩
    have chars : (trim text).toList = trimBlanks text.toList := String.toList_ofList
    rw [← String.toList_inj, chars, eq]
    cases kept : trimmed.toList with
    | nil =>
      refine ((trimBlanks_eq_nil _).mpr fun c m => ?_).symm
      exact (List.mem_append.mp m).elim (blankBefore c) (blankAfter c)
    | cons c cs =>
      rw [kept] at first last
      rw [← List.head?_reverse] at last
      have front : (before ++ (c :: cs ++ after)).dropWhile isBlank = c :: cs ++ after :=
        dropWhile_blanks_append blankBefore first
      rw [trimBlanks, front, List.reverse_append, dropWhile_blanks_append _ last,
        List.reverse_reverse]
      exact fun d m => blankAfter d (List.mem_reverse.mp m)
  · rintro rfl
    exact trims_trim text

end SqlFootprint.Text
