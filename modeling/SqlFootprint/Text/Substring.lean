/-! # Finding, replacing and splitting at a fixed text

The functions scan from left to right and never look at a character twice: after an occurrence the
scan goes on behind it. `skip` counts the characters of a found occurrence that are still to be
passed over. -/

namespace SqlFootprint.Text

/-- Whether `pattern` occurs somewhere in the text. -/
def occursIn (pattern : List Char) : List Char → Bool
  | [] => pattern.isEmpty
  | c :: cs => pattern.isPrefixOf (c :: cs) || occursIn pattern cs

/-- The text after `skip` characters, with every occurrence of `pattern` written as `new`. -/
def replaceFrom (pattern new : List Char) : Nat → List Char → List Char
  | _, [] => []
  | skip + 1, _ :: cs => replaceFrom pattern new skip cs
  | 0, c :: cs =>
    if pattern.isPrefixOf (c :: cs) then new ++ replaceFrom pattern new (pattern.length - 1) cs
    else c :: replaceFrom pattern new 0 cs

/-- The pieces of the text after `skip` characters between the occurrences of `pattern`. -/
def splitFrom (pattern : List Char) : Nat → List Char → List (List Char)
  | _, [] => [[]]
  | skip + 1, _ :: cs => splitFrom pattern skip cs
  | 0, c :: cs =>
    if pattern.isPrefixOf (c :: cs) then [] :: splitFrom pattern (pattern.length - 1) cs
    else
      match splitFrom pattern 0 cs with
      | [] => [[c]]
      | piece :: pieces => (c :: piece) :: pieces

/-- Whether the non-empty text `pattern` occurs in `s`. -/
def contains (s pattern : String) : Bool := occursIn pattern.toList s.toList

/-- `s` with every occurrence of the non-empty text `pattern` written as `new`. -/
def replace (s pattern new : String) : String :=
  String.ofList (replaceFrom pattern.toList new.toList 0 s.toList)

/-- The pieces of `s` between the occurrences of the non-empty text `pattern`. -/
def split (s pattern : String) : List String :=
  (splitFrom pattern.toList 0 s.toList).map String.ofList

/-- A text occurs exactly if it is a run of consecutive characters. -/
theorem occursIn_iff {pattern text : List Char} :
    occursIn pattern text = true ↔ pattern <:+: text := by
  induction text with
  | nil => simp [occursIn]
  | cons c cs ih => simp [occursIn, ih, List.infix_cons_iff]

@[simp] theorem replaceFrom_nil (pattern new : List Char) (skip : Nat) :
    replaceFrom pattern new skip [] = [] := by
  cases skip <;> rfl

/-- Passing over `skip` characters drops them. -/
theorem replaceFrom_skip (pattern new : List Char) (skip : Nat) (text : List Char) :
    replaceFrom pattern new skip text = replaceFrom pattern new 0 (text.drop skip) := by
  induction text generalizing skip with
  | nil => simp
  | cons c cs ih => cases skip with
    | zero => rfl
    | succ n => simpa [replaceFrom] using ih n

/-- An occurrence at the front is replaced, and the scan goes on behind it. -/
theorem replaceFrom_append {pattern : List Char} (h : pattern ≠ []) (new text : List Char) :
    replaceFrom pattern new 0 (pattern ++ text) = new ++ replaceFrom pattern new 0 text := by
  cases pattern with
  | nil => exact absurd rfl h
  | cons p ps =>
    have front : (p :: ps).isPrefixOf (p :: (ps ++ text)) = true := by
      rw [List.isPrefixOf_iff_prefix]
      exact ⟨text, rfl⟩
    rw [List.cons_append, replaceFrom, if_pos front, List.length_cons, Nat.add_sub_cancel,
      replaceFrom_skip, List.drop_left]

/-- Where the text does not occur, nothing changes. -/
theorem replaceFrom_of_not_occursIn {pattern : List Char} (new : List Char) {text : List Char}
    (h : occursIn pattern text = false) : replaceFrom pattern new 0 text = text := by
  induction text with
  | nil => rfl
  | cons c cs ih =>
    simp only [occursIn, Bool.or_eq_false_iff] at h
    simp [replaceFrom, h.1, ih h.2]

/-- Splitting never gives an empty list of pieces. -/
theorem splitFrom_ne_nil (pattern : List Char) (skip : Nat) (text : List Char) :
    splitFrom pattern skip text ≠ [] := by
  induction text generalizing skip with
  | nil => cases skip <;> simp [splitFrom]
  | cons c cs ih =>
    cases skip with
    | succ n => simpa [splitFrom] using ih n
    | zero =>
      rw [splitFrom]
      split
      · simp
      · split <;> simp

end SqlFootprint.Text
