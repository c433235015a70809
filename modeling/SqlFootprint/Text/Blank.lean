import SqlFootprint.Text.CharRange

/-! # Blanks and trimming

A blank is a character with the Unicode property White_Space: the ASCII controls from tab to
carriage return, the space, U+0085, U+00A0 and the wide spaces, but not the zero-width ones. -/

namespace SqlFootprint.Text

/-- The code points with the property White_Space. -/
def blankRanges : CharRanges :=
  [(0x9, 0xD), (0x20, 0x20), (0x85, 0x85), (0xA0, 0xA0), (0x1680, 0x1680), (0x2000, 0x200A),
   (0x2028, 0x2029), (0x202F, 0x202F), (0x205F, 0x205F), (0x3000, 0x3000)]

/-- Whether a character is a blank. -/
def isBlank (c : Char) : Bool := blankRanges.has c

/-- The characters without the blanks at either end. -/
def trimBlanks (cs : List Char) : List Char :=
  ((cs.dropWhile isBlank).reverse.dropWhile isBlank).reverse

/-- The text without the blanks at either end. -/
def trim (s : String) : String := String.ofList (trimBlanks s.toList)

/-- The blanks of the lower half are the controls and the space. -/
theorem toNat_of_isBlank {c : Char} (h : isBlank c = true) : c.toNat ≤ 32 ∨ 128 ≤ c.toNat := by
  simp only [isBlank, blankRanges, CharRanges.has_cons, CharRanges.has_nil, Bool.or_eq_true,
    Bool.and_eq_true, decide_eq_true_eq, Bool.or_false] at h
  omega

@[simp] theorem trimBlanks_nil : trimBlanks [] = [] := rfl

/-- A text without blanks has none at its ends. -/
theorem trimBlanks_of_forall {cs : List Char} (h : ∀ c ∈ cs, isBlank c = false) :
    trimBlanks cs = cs := by
  have kept (ds : List Char) (hds : ∀ c ∈ ds, isBlank c = false) : ds.dropWhile isBlank = ds := by
    cases ds with
    | nil => rfl
    | cons d ds => exact List.dropWhile_cons_of_neg (by simp [hds d List.mem_cons_self])
  rw [trimBlanks, kept cs h, kept cs.reverse fun c m => h c (List.mem_reverse.mp m),
    List.reverse_reverse]

end SqlFootprint.Text
