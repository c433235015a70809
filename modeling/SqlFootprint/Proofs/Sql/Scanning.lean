import SqlFootprint.Sql.Lexer
import Mathlib.Data.List.TakeDrop
import Mathlib.Data.List.TakeWhile

/-! # Reading a word again

What one step of reading gives depends on the characters it reads and on little behind them. In
front of other characters that end it, the same characters are read as the same token (`ReadsAs`).
A word is read from a run of characters that goes as far as it can, so it is enough that the
character behind it does not go on with it. -/

namespace SqlFootprint.Sql

/-! ## Some characters -/

-- What is said of the characters of a list is decided by looking at these. Another instance may be
-- there that looks at every character there is.
instance (priority := 2000) decidableForallMem (cs : List Char) (p : Char → Prop)
    [DecidablePred p] : Decidable (∀ c ∈ cs, p c) := List.decidableBAll p cs

instance (priority := 2000) decidableExistsMem (found : Option Char) (p : Char → Prop)
    [DecidablePred p] : Decidable (∃ c ∈ found, p c) := Option.decidableExistsMem found

/-! ## Runs of characters -/

/-- Characters that do not start with one of a kind. -/
def Stops (goesOn : Char → Bool) (rest : List Char) : Prop := ∀ c ∈ rest.head?, goesOn c = false

theorem Stops.mono {p q : Char → Bool} {rest : List Char} (stops : Stops p rest)
    (le : ∀ c, q c = true → p c = true) : Stops q rest := fun c mem =>
  Bool.eq_false_iff.mpr fun h => Bool.noConfusion ((stops c mem).symm.trans (le c h))

theorem span_append {p : Char → Bool} {run rest : List Char} (inside : ∀ c ∈ run, p c = true)
    (stops : Stops p rest) : (run ++ rest).span p = (run, rest) := by
  have front : rest.takeWhile p = [] ∧ rest.dropWhile p = rest := by
    cases rest with
    | nil => exact ⟨rfl, rfl⟩
    | cons c cs => simp [stops c rfl]
  rw [List.span_eq_takeWhile_dropWhile, List.takeWhile_append_of_pos inside,
    List.dropWhile_append_of_pos inside, front.1, front.2, List.append_nil]

/-- No run where the characters do not start with one. -/
theorem span_of_stops {p : Char → Bool} {rest : List Char} (stops : Stops p rest) :
    rest.span p = ([], rest) := span_append (List.forall_mem_nil _) stops

theorem span_eq {p : Char → Bool} {cs run rest : List Char} (h : cs.span p = (run, rest)) :
    cs = run ++ rest ∧ (∀ c ∈ run, p c = true) ∧ Stops p rest := by
  rw [List.span_eq_takeWhile_dropWhile] at h
  cases h
  refine ⟨List.takeWhile_append_dropWhile.symm, fun c mem => List.mem_takeWhile_imp mem, ?_⟩
  intro c mem
  have ends := List.head?_dropWhile_not p cs
  rw [Option.mem_def.mp mem] at ends
  exact ends

/-! ## Reading in front of an end -/

/-- Characters are read as a token in one step, wherever they stand in front of a character that
does not go on with them. -/
def ReadsAs (before : Before) (text : List Char) (token : Token) (goesOn : Char → Bool) : Prop :=
  ∃ c more, text = c :: more ∧ ∀ (p : Position) (rest : List Char), Stops goesOn rest →
    scan before p c (more ++ rest) = .ok ⟨some token, text, rest⟩

/-- Whether a character goes on with a word without quotes, or turns it into something else. -/
def goesOnWord (c : Char) : Bool := isNamePart c || c = '\x27' || c = '\x22'

/-- Whether a character goes on with a number. -/
def goesOnNumber (c : Char) : Bool := isNamePart c || c = '.'

/-- Of the ASCII characters, letters, digits and three marks are parts of names. -/
theorem isNamePart_ascii {c : Char} (h : c.toNat < 0x80) :
    isNamePart c = (c.isAlphanum || c = '_' || c = '$' || c = '@') := by
  have ranges : ∀ range ∈ Text.highLetterRanges, 0x80 ≤ range.1 := by decide +kernel
  have noLetter : Text.isHighLetter c = false := by
    refine List.any_eq_false.mpr fun range mem => ?_
    have := ranges range mem
    simp only [Bool.and_eq_true, decide_eq_true_eq, not_and, not_le]
    omega
  have low : ¬ 0x80 ≤ c.toNat := Nat.not_le_of_lt h
  simp only [isNamePart, isNameStart, noLetter, Char.isAlphanum, low]
  grind

/-- A step that reads nothing special goes on with a number, a sign, a word or another character. -/
theorem scan_plain {before : Before} {p : Position} {c : Char} {cs : List Char}
    (gap : isGap c = false) (mark : c ∉ ['\x27', '\x22', '\x60', '#', '@', '?'])
    (letter : c ∈ ['b', 'B', 'n', 'N', 'x', 'X'] → ∀ d ∈ cs.head?, d ≠ '\x27' ∧ d ≠ '\x22')
    (underscore : c = '.' → cs.head? ≠ some '_') (dashes : c = '-' → ¬ ['-', ' '] <+: cs)
    (comment : c = '/' → cs.head? ≠ some '*') :
    scan before p c cs =
      if c.isDigit || c = '.' then .ok (scanNumber before (c :: cs))
      else match scanSign? (c :: cs) with
        | some s => .ok s
        | none =>
          if isNameStart c then .ok (scanWord [c] cs) else .ok ⟨some (.other c), [c], cs⟩ := by
  unfold scan
  rw [gap]
  simp only [Bool.false_eq_true, if_false]
  split
  all_goals first
    | exact absurd (by decide) mark
    | exact absurd rfl (letter (by decide) _ rfl).1
    | exact absurd rfl (letter (by decide) _ rfl).2
    | exact absurd rfl (underscore rfl)
    | exact absurd ⟨_, rfl⟩ (dashes rfl)
    | exact absurd rfl (comment rfl)
    | rfl

/-! ## Words -/

theorem scanWord_append (first : List Char) {more rest : List Char}
    (inside : ∀ c ∈ more, isNamePart c = true) (stops : Stops isNamePart rest) :
    scanWord first (more ++ rest) =
      ⟨some (.word ⟨String.ofList (first ++ more), none⟩), first ++ more, rest⟩ := by
  unfold scanWord
  rw [span_append inside stops]

/-- What a word is read from. -/
theorem exists_of_scanWord {first cs read rest : List Char} {id : Ident}
    (h : scanWord first cs = ⟨some (.word id), read, rest⟩) :
    ∃ more, read = first ++ more ∧ id = ⟨String.ofList read, none⟩ ∧ cs = more ++ rest ∧
      (∀ c ∈ more, isNamePart c = true) ∧ Stops isNamePart rest := by
  unfold scanWord at h
  obtain ⟨same, inside, stops⟩ := span_eq (rfl : cs.span isNamePart = (_, _))
  cases h
  exact ⟨_, rfl, rfl, same, inside, stops⟩

theorem scanAt_cons {c : Char} {cs : List Char}
    (plain : c ∉ ['>', '?', '@', ' ', '\x27', '\x22', '\x60']) :
    scanAt (c :: cs) = scanWord ['@', c] cs := by
  unfold scanAt
  split
  all_goals first
    | (rename_i same; obtain ⟨rfl, -⟩ := List.cons.inj same; exact absurd (by decide) plain)
    | skip
  · rename_i same
    nomatch same
  · rename_i same
    obtain ⟨rfl, rfl⟩ := List.cons.inj same
    simp only [List.mem_cons, List.not_mem_nil, or_false, not_or] at plain
    exact if_neg (by simp [plain])

/-- A word that starts with an at sign is read again. -/
theorem exists_of_scanAt {cs read rest : List Char} {id : Ident}
    (h : scanAt cs = ⟨some (.word id), read, rest⟩) :
    ∃ more, read = '@' :: more ∧ id = ⟨String.ofList read, none⟩ ∧ ∀ rest, Stops isNamePart rest →
      scanAt (more ++ rest) = ⟨some (.word id), read, rest⟩ := by
  unfold scanAt at h
  split at h
  · nomatch h
  · nomatch h
  · nomatch h
  · rename_i c tail
    split at h
    · nomatch h
    · rename_i blank
      obtain ⟨more, rfl, rfl, -, inside, -⟩ := exists_of_scanWord h
      refine ⟨'@' :: c :: more, rfl, rfl, fun rest stops => ?_⟩
      exact (if_neg blank).trans (scanWord_append _ inside stops)
  · nomatch h
  · rename_i c tail noArrow noQuestion noSingle noDouble
    split at h
    · nomatch h
    · rename_i mark
      obtain ⟨more, rfl, rfl, -, inside, -⟩ := exists_of_scanWord h
      refine ⟨c :: more, rfl, rfl, fun rest stops => ?_⟩
      have plain : c ∉ ['>', '?', '@', ' ', '\x27', '\x22', '\x60'] := by
        have notAt : c ≠ '@' := by
          rintro rfl
          cases tail with
          | nil => exact noSingle rfl rfl
          | cons => exact noDouble _ _ rfl rfl
        simp_all
      rw [List.cons_append, scanAt_cons plain]
      exact scanWord_append _ inside stops

end SqlFootprint.Sql
