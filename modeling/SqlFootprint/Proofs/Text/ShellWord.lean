import Mathlib.Data.List.Basic
import Mathlib.Data.List.Infix

/-! # Words as a shell reads them

A word of a command is read as a shell reads it: quotes hold its characters together, and some
characters stand for something else. The reader gives a word only where every shell takes its
characters literally. It gives up where a shell may put something else in their place, as it may for
every dollar sign that is not quoted away.

Reading makes no text longer, and each pair of quotes costs two characters (`length_readWord`). So a
text between double quotes is read as itself only if nothing in it is special there
(`readWord_double_iff`). -/

namespace SqlFootprint.Text

/-! ## The reader -/

/-- Whether a character ends a word that stands without quotes. -/
def isWordEnd (c : Char) : Bool := c = ' ' || c = '\t' || c = '\n'

/-- Whether a character is not literal between double quotes. -/
def isActive (c : Char) : Bool := c = '\x22' || c = '$' || c = '\x60' || c = '\\'

/-- Whether a character without quotes is replaced or begins another part of the command. -/
def isMeta (c : Char) : Bool :=
  ['$', '\x60', '|', '&', ';', '<', '>', '(', ')', '*', '?', '[', '~'].contains c

/-- Where the reader of a word stands. -/
inductive WordState where
  /-- Outside quotes. -/
  | bare
  /-- Between single quotes. -/
  | single
  /-- Between double quotes. -/
  | double
  /-- Behind a backslash outside quotes. -/
  | bareEscape
  /-- Behind a backslash between double quotes. -/
  | doubleEscape
  deriving DecidableEq, Repr

/-- What a character does to the word that is read. -/
inductive WordStep where
  /-- The word ends in front of it. -/
  | ends
  /-- The word goes on, perhaps with some more characters. -/
  | goes (state : WordState) (value : List Char)
  /-- The shell may put something else in its place. -/
  | fails
  deriving DecidableEq, Repr

/-- What a character does to a word in each state. -/
def stepWord : WordState → Char → WordStep
  | .bare, c =>
    if isWordEnd c then .ends
    else if c = '\x22' then .goes .double []
    else if c = '\x27' then .goes .single []
    else if c = '\\' then .goes .bareEscape []
    else if isMeta c then .fails
    else .goes .bare [c]
  | .single, c => if c = '\x27' then .goes .bare [] else .goes .single [c]
  | .double, c =>
    if c = '\x22' then .goes .bare []
    else if c = '\\' then .goes .doubleEscape []
    else if isActive c then .fails
    else .goes .double [c]
  | .bareEscape, c => if c = '\n' then .fails else .goes .bare [c]
  | .doubleEscape, c =>
    .goes .double (if c = '\n' then [] else if isActive c then [c] else ['\\', c])

/-- A word with some more characters in front, and what stands behind it. -/
def behind (front : List Char) (read : Option (List Char × List Char)) :
    Option (List Char × List Char) :=
  read.map fun (word, rest) => (front ++ word, rest)

/-- The rest of a word and what stands behind it; none if the shell does not take it literally. -/
def readWord : WordState → List Char → Option (List Char × List Char)
  | .bare, [] => some ([], [])
  | _, [] => none
  | state, c :: cs =>
    match stepWord state c with
    | .ends => some ([], c :: cs)
    | .goes next value => behind value (readWord next cs)
    | .fails => none

@[simp] theorem behind_nil (read : Option (List Char × List Char)) : behind [] read = read := by
  cases read <;> rfl

@[simp] theorem behind_behind (front more : List Char) (read : Option (List Char × List Char)) :
    behind front (behind more read) = behind (front ++ more) read := by
  cases read with
  | none => rfl
  | some pair => simp [behind]

@[simp] theorem behind_some (front word rest : List Char) :
    behind front (some (word, rest)) = some (front ++ word, rest) := rfl

/-! ## Steps and lengths -/

/-- The characters that a word in this state still costs and does not get. -/
def WordState.owed : WordState → Nat
  | .single | .double => 1
  | .bare | .bareEscape | .doubleEscape => 0

/-- What a step adds to a word is paid for by the character and by what is owed behind it. -/
theorem length_of_stepWord {state next : WordState} {c : Char} {value : List Char}
    (h : stepWord state c = .goes next value) : value.length + state.owed ≤ 1 + next.owed := by
  cases state <;> simp only [stepWord] at h
  case doubleEscape =>
    cases h
    split_ifs <;> exact Nat.le_of_ble_eq_true rfl
  all_goals split_ifs at h <;> cases h <;> exact Nat.le_of_ble_eq_true rfl

/-- A word that goes on has read its first character by a step. -/
theorem readWord_cons {state next : WordState} {c : Char} {cs value : List Char}
    (h : stepWord state c = .goes next value) :
    readWord state (c :: cs) = behind value (readWord next cs) := by
  cases state <;> simp only [readWord, h]

/-- What a word in front of more characters is: it is empty, or a step and the rest. -/
theorem readWord_cons_cases {state : WordState} {c : Char} {cs word rest : List Char}
    (h : readWord state (c :: cs) = some (word, rest)) :
    (stepWord state c = .ends ∧ word = [] ∧ rest = c :: cs) ∨
      ∃ next value more, stepWord state c = .goes next value ∧ word = value ++ more ∧
        readWord next cs = some (more, rest) := by
  have unfolded : readWord state (c :: cs) =
      match stepWord state c with
      | .ends => some ([], c :: cs)
      | .goes next value => behind value (readWord next cs)
      | .fails => none := by
    cases state <;> rfl
  rw [unfolded] at h
  cases step : stepWord state c with
  | ends =>
    rw [step] at h
    cases h
    exact Or.inl ⟨rfl, rfl, rfl⟩
  | goes next value =>
    rw [step] at h
    obtain ⟨⟨more, behind⟩, read, same⟩ := Option.map_eq_some_iff.mp h
    cases same
    exact Or.inr ⟨next, value, more, rfl, rfl, read⟩
  | fails =>
    rw [step] at h
    cases h

/-- Only a word without open quotes ends with the text. -/
theorem readWord_nil {state : WordState} {word rest : List Char}
    (h : readWord state [] = some (word, rest)) : state = .bare ∧ word = [] ∧ rest = [] := by
  cases state <;> cases h
  exact ⟨rfl, rfl, rfl⟩

/-- Only without quotes a word ends in front of a character. -/
theorem stepWord_ends {state : WordState} {c : Char} (h : stepWord state c = .ends) :
    state = .bare ∧ isWordEnd c = true := by
  cases state <;> simp only [stepWord] at h
  case bare =>
    split_ifs at h with ends
    exact ⟨rfl, ends⟩
  all_goals split_ifs at h

/-- A word and what stands behind it are no longer than the text, and open quotes are shorter. -/
theorem length_readWord {state : WordState} {cs word rest : List Char}
    (h : readWord state cs = some (word, rest)) :
    word.length + rest.length + state.owed ≤ cs.length := by
  induction cs generalizing state word with
  | nil =>
    obtain ⟨rfl, rfl, rfl⟩ := readWord_nil h
    exact Nat.le_refl _
  | cons c cs ih =>
    rcases readWord_cons_cases h with ⟨step, rfl, rfl⟩ | ⟨next, value, more, step, rfl, read⟩
    · obtain ⟨rfl, -⟩ := stepWord_ends step
      simp [WordState.owed]
    · have paid := length_of_stepWord step
      have later := ih read
      rw [List.length_append, List.length_cons]
      omega

/-- A word ends at the end of the text or in front of a character that ends words. -/
theorem rest_of_readWord {state : WordState} {cs word rest : List Char}
    (h : readWord state cs = some (word, rest)) :
    rest <:+ cs ∧ ∀ c ∈ rest.head?, isWordEnd c = true := by
  induction cs generalizing state word with
  | nil =>
    obtain ⟨-, -, rfl⟩ := readWord_nil h
    exact ⟨List.suffix_rfl, fun c m => by cases m⟩
  | cons c cs ih =>
    rcases readWord_cons_cases h with ⟨step, -, rfl⟩ | ⟨next, value, more, -, -, read⟩
    · refine ⟨List.suffix_rfl, fun d m => ?_⟩
      cases m
      exact (stepWord_ends step).2
    · exact ⟨(ih read).1.trans (List.suffix_cons c cs), (ih read).2⟩

/-- A word that ends somewhere ends there also if a blank and more come behind the text. -/
theorem readWord_append {state : WordState} {cs word rest : List Char}
    (h : readWord state cs = some (word, rest)) (more : List Char) :
    readWord state (cs ++ ' ' :: more) = some (word, rest ++ ' ' :: more) := by
  induction cs generalizing state word with
  | nil =>
    obtain ⟨rfl, rfl, rfl⟩ := readWord_nil h
    rfl
  | cons c cs ih =>
    rcases readWord_cons_cases h with ⟨step, rfl, rfl⟩ | ⟨next, value, tail, step, rfl, read⟩
    · obtain ⟨rfl, -⟩ := stepWord_ends step
      rw [List.cons_append, readWord, step]
    · rw [List.cons_append, readWord_cons step, ih read, behind_some]

/-! ## Between double quotes -/

/-- Whether a text is literal between double quotes: it holds no active character, save for a
backslash with another character behind it that is neither active nor a line break. -/
def isInert : List Char → Bool
  | [] => true
  | c :: cs =>
    (if c = '\\' then cs.head?.any fun d => !isActive d && d ≠ '\n' else !isActive c) && isInert cs

/-- A text without active characters is literal. -/
theorem isInert_of_forall {cs : List Char} (h : ∀ c ∈ cs, isActive c = false) :
    isInert cs = true := by
  induction cs with
  | nil => rfl
  | cons c cs ih =>
    have hc := h c List.mem_cons_self
    have ne : c ≠ '\\' := by
      rintro rfl
      cases hc
    rw [isInert, if_neg ne, hc, ih fun d m => h d (List.mem_cons_of_mem c m)]
    rfl

/-- A double quote closes the quotes. -/
theorem stepWord_closing : stepWord .double '\x22' = .goes .bare [] := rfl

/-- A double quote opens the quotes. -/
theorem stepWord_opening : stepWord .bare '\x22' = .goes .double [] := rfl

/-- What a backslash does between double quotes depends on the next character. -/
theorem stepWord_backslash : stepWord .double '\\' = .goes .doubleEscape [] := rfl

/-- A character that is not active is kept between double quotes. -/
theorem stepWord_double {c : Char} (h : isActive c = false) :
    stepWord .double c = .goes .double [c] := by
  have quote : c ≠ '\x22' := by rintro rfl; cases h
  have backslash : c ≠ '\\' := by rintro rfl; cases h
  rw [stepWord, if_neg quote, if_neg backslash, h, if_neg Bool.false_ne_true]

/-- A backslash is kept in front of a character that is neither active nor a line break. -/
theorem stepWord_doubleEscape {c : Char} (active : isActive c = false) (ne : c ≠ '\n') :
    stepWord .doubleEscape c = .goes .double ['\\', c] := by
  rw [stepWord, if_neg ne, active, if_neg Bool.false_ne_true]

/-- A literal text between double quotes is read as it is. -/
theorem readWord_double_append {cs : List Char} (h : isInert cs = true) (more : List Char) :
    readWord .double (cs ++ '\x22' :: more) = behind cs (readWord .bare more) := by
  -- a backslash is settled together with the character behind it
  induction size : cs.length using Nat.strongRecOn generalizing cs with
  | ind size ih =>
    subst size
    cases cs with
    | nil => exact readWord_cons stepWord_closing
    | cons c cs =>
      rw [isInert, Bool.and_eq_true] at h
      obtain ⟨front, inert⟩ := h
      by_cases backslash : c = '\\'
      · subst backslash
        rw [if_pos rfl] at front
        cases cs with
        | nil => cases front
        | cons d ds =>
          simp only [List.head?_cons, Option.any_some, Bool.and_eq_true, Bool.not_eq_true',
            decide_eq_true_eq] at front
          rw [isInert, Bool.and_eq_true] at inert
          have later := ih ds.length (by simp only [List.length_cons]; omega) inert.2 rfl
          rw [List.cons_append, readWord_cons stepWord_backslash,
            List.cons_append, readWord_cons (stepWord_doubleEscape front.1 front.2), later,
            behind_nil, behind_behind]
          rfl
      · rw [if_neg backslash, Bool.not_eq_true'] at front
        have later := ih cs.length (by simp) inert rfl
        rw [List.cons_append, readWord_cons (stepWord_double front), later, behind_behind]
        rfl

/-- A character outside quotes that costs nothing is literal. -/
def isLiteral (c : Char) : Bool := stepWord .bare c = .goes .bare [c]

/-- A word as long as the text in front of its end is that text, and all of it is literal. -/
theorem literal_of_readWord {cs word rest : List Char}
    (h : readWord .bare cs = some (word, rest))
    (size : word.length + rest.length = cs.length) :
    cs = word ++ rest ∧ ∀ c ∈ word, isLiteral c = true := by
  induction cs generalizing word with
  | nil =>
    obtain ⟨-, rfl, rfl⟩ := readWord_nil h
    exact ⟨rfl, fun c m => by cases m⟩
  | cons c cs ih =>
    rcases readWord_cons_cases h with ⟨-, rfl, rfl⟩ | ⟨next, value, more, step, rfl, read⟩
    · exact ⟨rfl, fun d m => by cases m⟩
    · -- whatever leads out of the state costs a character
      have later := length_readWord read
      rw [List.length_append, List.length_cons] at size
      have literal : next = .bare ∧ value = [c] := by
        rw [stepWord] at step
        split_ifs at step <;> cases step <;> simp [WordState.owed] at later size <;> try omega
        exact ⟨rfl, rfl⟩
      obtain ⟨rfl, rfl⟩ := literal
      obtain ⟨rfl, all⟩ := ih read (by rw [List.length_singleton] at size; omega)
      exact ⟨rfl, List.forall_mem_cons.mpr ⟨decide_eq_true step, all⟩⟩

/-- Behind a backslash a text is read as itself and the backslash only if the backslash is kept in
front of its first character. -/
theorem exists_cons_of_readWord_doubleEscape {cs rest : List Char}
    (h : readWord .doubleEscape (cs ++ '\x22' :: rest) = some ('\\' :: cs, rest)) :
    ∃ d ds, cs = d :: ds ∧ (isActive d = false ∧ d ≠ '\n') ∧
      readWord .double (ds ++ '\x22' :: rest) = some (ds, rest) := by
  cases cs with
  | nil =>
    -- the backslash would take the closing quote
    rcases readWord_cons_cases h with ⟨step, -, -⟩ | ⟨next, value, more, step, same, -⟩
    · cases (stepWord_ends step).1
    · cases step
      cases same
  | cons d ds =>
    rw [List.cons_append] at h
    rcases readWord_cons_cases h with ⟨step, -, -⟩ | ⟨next, value, more, step, same, read⟩
    · cases (stepWord_ends step).1
    · have later := length_readWord read
      have size := congrArg List.length same
      cases step
      simp only [List.length_append, List.length_cons, WordState.owed] at later size
      by_cases newline : d = '\n'
      · -- a line break goes away with the backslash
        rw [if_pos newline, List.length_nil] at size
        omega
      · rw [if_neg newline] at size same
        by_cases active : isActive d = true
        · -- the backslash goes away
          rw [if_pos active, List.length_singleton] at size
          omega
        · rw [if_neg active] at same
          cases same
          exact ⟨d, more, rfl, ⟨Bool.eq_false_iff.mpr active, newline⟩, read⟩

/-- Where a word ends outside quotes, nothing is added to it. -/
theorem readWord_ends {rest : List Char} (ends : ∀ c ∈ rest.head?, isWordEnd c = true) :
    readWord .bare rest = some ([], rest) := by
  cases rest with
  | nil => rfl
  | cons c rest => rw [readWord, stepWord, ends c rfl, if_pos rfl]

/-- Between double quotes a text is read as itself exactly if it is literal there. -/
theorem readWord_double_iff {cs rest : List Char} (ends : ∀ c ∈ rest.head?, isWordEnd c = true) :
    readWord .double (cs ++ '\x22' :: rest) = some (cs, rest) ↔ isInert cs = true := by
  refine ⟨fun h => ?_, fun inert => by
    rw [readWord_double_append inert, readWord_ends ends, behind_some, List.append_nil]⟩
  -- as much is read as there is, so no character may cost more than itself
  induction size : cs.length using Nat.strongRecOn generalizing cs with
  | ind size ih =>
    subst size
    cases cs with
    | nil => rfl
    | cons c cs =>
      rw [List.cons_append] at h
      rcases readWord_cons_cases h with ⟨step, -, -⟩ | ⟨next, value, more, step, same, read⟩
      · cases (stepWord_ends step).1
      · simp only [stepWord] at step
        split_ifs at step with quote backslash active <;> cases step
        · -- the quotes end early, and the quote would have to come again without costing anything
          subst quote
          obtain rfl : more = '\x22' :: cs := same.symm
          obtain ⟨-, all⟩ := literal_of_readWord read (by simp; omega)
          exact absurd (all _ List.mem_cons_self) (by decide)
        · subst backslash
          obtain rfl : more = '\\' :: cs := same.symm
          obtain ⟨d, ds, rfl, kept, later⟩ := exists_cons_of_readWord_doubleEscape read
          have ne : d ≠ '\\' := by
            rintro rfl
            cases kept.1
          have inert := ih ds.length (by simp only [List.length_cons]; omega) later rfl
          simp [isInert, ne, kept, inert]
        · obtain rfl : cs = more := (List.cons.inj same).2
          have inert := ih cs.length (by simp) read rfl
          rw [isInert, if_neg backslash, inert, Bool.eq_false_iff.mpr active]
          rfl

end SqlFootprint.Text
