/-! # Quote marks inside quoted text

Two ways to write a text between quote marks. Doubling writes every mark twice, so that reading is
unambiguous. Widening leaves alone the marks that look as if they were written already: a pair of
marks, and the marks that follow a backslash. -/

namespace SqlFootprint.Text

/-- Every mark written twice. -/
def doubleMarks (mark : Char) (cs : List Char) : List Char :=
  cs.flatMap fun c => if c = mark then [c, c] else [c]

/-- A lone mark written twice; a pair of marks, and marks right behind a backslash, left alone. -/
def widenMarks (mark : Char) : Bool → List Char → List Char
  | _, [] => []
  | true, c :: cs =>
    if c = mark then c :: widenMarks mark true cs else c :: widenMarks mark (c = '\\') cs
  | false, [c] => if c = mark then [c, c] else [c]
  | false, c :: d :: cs =>
    if c = mark then
      if d = mark then c :: d :: widenMarks mark false cs
      else c :: c :: widenMarks mark false (d :: cs)
    else c :: widenMarks mark (c = '\\') (d :: cs)

/-- A text between marks, with every mark inside written twice. -/
def doubled (mark : Char) (s : String) : String :=
  String.ofList (mark :: (doubleMarks mark s.toList ++ [mark]))

/-- A text between marks, with the lone marks inside written twice. -/
def widened (mark : Char) (s : String) : String :=
  String.ofList (mark :: (widenMarks mark false s.toList ++ [mark]))

@[simp] theorem doubleMarks_nil (mark : Char) : doubleMarks mark [] = [] := rfl

@[simp] theorem doubleMarks_cons (mark c : Char) (cs : List Char) :
    doubleMarks mark (c :: cs) = (if c = mark then [c, c] else [c]) ++ doubleMarks mark cs := rfl

/-- Without the mark there is nothing to double. -/
theorem doubleMarks_of_not_mem {mark : Char} {cs : List Char} (h : mark ∉ cs) :
    doubleMarks mark cs = cs := by
  induction cs with
  | nil => rfl
  | cons c cs ih =>
    have hc : c ≠ mark := fun e => h (e ▸ List.mem_cons_self)
    simp [hc, ih fun m => h (List.mem_cons_of_mem c m)]

/-- Without the mark there is nothing to widen. -/
theorem widenMarks_of_not_mem {mark : Char} (behindBackslash : Bool) {cs : List Char}
    (h : mark ∉ cs) : widenMarks mark behindBackslash cs = cs := by
  induction cs generalizing behindBackslash with
  | nil => simp [widenMarks]
  | cons c cs ih =>
    have hc : c ≠ mark := fun e => h (e ▸ List.mem_cons_self)
    have hcs : mark ∉ cs := fun m => h (List.mem_cons_of_mem c m)
    cases behindBackslash with
    | true => rw [widenMarks, if_neg hc, ih _ hcs]
    | false =>
      cases cs with
      | nil => rw [widenMarks, if_neg hc]
      | cons d cs => rw [widenMarks, if_neg hc, ih _ hcs]

end SqlFootprint.Text
