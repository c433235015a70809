/-! # Character classes given by code point ranges

The classes of the Unicode standard that this library needs beyond ASCII are held as lists of
inclusive ranges; membership is one test on the code point. -/

namespace SqlFootprint.Text

/-- A set of characters, as inclusive ranges of code points. -/
abbrev CharRanges := List (Nat × Nat)

/-- Whether a character lies in one of the ranges. -/
def CharRanges.has (ranges : CharRanges) (c : Char) : Bool :=
  ranges.any fun r => r.1 ≤ c.toNat && c.toNat ≤ r.2

@[simp] theorem CharRanges.has_nil (c : Char) : CharRanges.has [] c = false := rfl

@[simp] theorem CharRanges.has_cons (lo hi : Nat) (ranges : CharRanges) (c : Char) :
    CharRanges.has ((lo, hi) :: ranges) c =
      ((lo ≤ c.toNat && c.toNat ≤ hi) || CharRanges.has ranges c) := rfl

end SqlFootprint.Text
