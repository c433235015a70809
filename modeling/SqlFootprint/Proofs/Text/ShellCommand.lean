import SqlFootprint.Proofs.Text.ShellWord

/-! # Commands as a shell reads them

A command is a list of words with blanks between them. Words that need no quotes are read back, and
only they are (`readWords_spread_iff`); a word may also end with a text in double quotes, which is
read as itself if it is literal there (`readWords_quoted_iff`). -/

namespace SqlFootprint.Text

/-! ## The reader -/

/-- Whether a character parts two words of one command. -/
def isWordGap (c : Char) : Bool := c = ' ' || c = '\t'

/-- The next word of a command and what stands behind it; none at the end and at a remark. -/
def nextWord (cs : List Char) : Option (List Char × List Char) :=
  match cs.dropWhile isWordGap with
  | [] => none
  | c :: rest => if c = '#' ∨ c = '\n' then none else readWord .bare (c :: rest)

/-- The next words of a command, as many as asked for, and what stands behind them. -/
def readWords : Nat → List Char → Option (List (List Char) × List Char)
  | 0, cs => some ([], cs)
  | n + 1, cs =>
    match nextWord cs with
    | none => none
    | some (word, rest) => (readWords n rest).map fun (words, rest) => (word :: words, rest)

/-- A text is read as a list of words. -/
def ReadsAs (text : String) (words : List String) : Prop :=
  readWords words.length text.toList = some (words.map String.toList, [])

instance (text : String) (words : List String) : Decidable (ReadsAs text words) :=
  inferInstanceAs (Decidable (_ = _))

/-! ## Words without quotes -/

/-- Whether a text is a word that needs no quotes. -/
def isBareWord (cs : List Char) : Bool :=
  cs ≠ [] && cs.head? ≠ some '#' && cs.all isLiteral

/-- Outside quotes, literal characters are read as they are. -/
theorem readWord_bare_append {cs : List Char} (h : ∀ c ∈ cs, isLiteral c = true)
    (more : List Char) : readWord .bare (cs ++ more) = behind cs (readWord .bare more) := by
  induction cs with
  | nil => simp
  | cons c cs ih =>
    have step : stepWord .bare c = .goes .bare [c] := of_decide_eq_true (h c List.mem_cons_self)
    rw [List.cons_append, readWord_cons step, ih fun d m => h d (List.mem_cons_of_mem c m),
      behind_behind, List.singleton_append]

/-- A literal character is none that ends a word. -/
theorem isWordEnd_of_isLiteral {c : Char} (h : isLiteral c = true) : isWordEnd c = false := by
  have step : stepWord .bare c = .goes .bare [c] := of_decide_eq_true h
  rw [stepWord] at step
  refine Bool.eq_false_iff.mpr fun ends => ?_
  rw [if_pos ends] at step
  cases step

/-- A word that needs no quotes is read as it is. -/
theorem nextWord_append_of_isBareWord {word : List Char} (h : isBareWord word = true)
    (more : List Char) : nextWord (word ++ more) = behind word (readWord .bare more) := by
  simp only [isBareWord, Bool.and_eq_true, decide_eq_true_eq, List.all_eq_true] at h
  obtain ⟨⟨ne, front⟩, literal⟩ := h
  obtain ⟨c, cs, rfl⟩ := List.exists_cons_of_ne_nil ne
  have noEnd := isWordEnd_of_isLiteral (literal c List.mem_cons_self)
  simp only [isWordEnd, Bool.or_eq_false_iff, decide_eq_false_iff_not] at noEnd
  have noGap : isWordGap c = false := by simp [isWordGap, noEnd]
  have noMark : c ≠ '#' := fun e => front (congrArg some e)
  rw [← readWord_bare_append literal, nextWord, List.cons_append,
    List.dropWhile_cons_of_neg (by rw [noGap]; exact Bool.false_ne_true)]
  simp [noMark, noEnd]

/-- Blanks in front of a word are passed over. -/
theorem nextWord_gap {c : Char} (h : isWordGap c = true) (cs : List Char) :
    nextWord (c :: cs) = nextWord cs := by
  unfold nextWord
  rw [List.dropWhile_cons_of_pos h]

/-- The next word begins behind the blanks. -/
theorem exists_of_nextWord {cs word rest : List Char} (h : nextWord cs = some (word, rest)) :
    ∃ gap c more, cs = gap ++ c :: more ∧ (isWordGap c = false ∧ c ≠ '#' ∧ c ≠ '\n') ∧
      readWord .bare (c :: more) = some (word, rest) := by
  unfold nextWord at h
  split at h
  · cases h
  · next c more eq =>
    split_ifs at h with special
    obtain ⟨mark, newline⟩ := not_or.mp special
    have noGap := List.head?_dropWhile_not isWordGap cs
    rw [eq] at noGap
    refine ⟨cs.takeWhile isWordGap, c, more, ?_, ⟨by simpa using noGap, mark, newline⟩, h⟩
    rw [← eq, List.takeWhile_append_dropWhile]

/-- The next word and what stands behind it are no longer than the text. -/
theorem length_nextWord {cs word rest : List Char} (h : nextWord cs = some (word, rest)) :
    word.length + rest.length ≤ cs.length := by
  obtain ⟨gap, c, more, rfl, -, read⟩ := exists_of_nextWord h
  have fits := length_readWord read
  rw [List.length_append]
  omega

/-- The next word ends at the end of the text or in front of a character that ends words. -/
theorem rest_of_nextWord {cs word rest : List Char} (h : nextWord cs = some (word, rest)) :
    rest <:+ cs ∧ ∀ c ∈ rest.head?, isWordEnd c = true := by
  obtain ⟨gap, c, more, rfl, -, read⟩ := exists_of_nextWord h
  obtain ⟨behind, ends⟩ := rest_of_readWord read
  exact ⟨behind.trans (List.suffix_append gap _), ends⟩

/-- A text in front of the end of a word is read as that word exactly if it needs no quotes. -/
theorem nextWord_append_iff {word rest : List Char}
    (ends : ∀ c ∈ rest.head?, isWordEnd c = true) :
    nextWord (word ++ rest) = some (word, rest) ↔ isBareWord word = true := by
  constructor
  · intro h
    obtain ⟨gap, c, more, eq, ⟨noGap, mark, newline⟩, read⟩ := exists_of_nextWord h
    have size := congrArg List.length eq
    have fits := length_readWord read
    simp only [List.length_append] at size
    have tight : word.length + rest.length = (c :: more).length := by omega
    obtain ⟨same, literal⟩ := literal_of_readWord read tight
    have nonempty : word ≠ [] := by
      -- the text would begin with the end of a word
      rintro rfl
      obtain rfl : c :: more = rest := same
      have := ends c rfl
      simp only [isWordGap, isWordEnd] at noGap this
      simp_all
    obtain ⟨d, ds, rfl⟩ := List.exists_cons_of_ne_nil nonempty
    obtain rfl : c = d := (List.cons.inj same).1
    simpa [isBareWord, mark] using literal
  · intro word
    rw [nextWord_append_of_isBareWord word, readWord_ends ends, behind_some, List.append_nil]

/-! ## Several words -/

/-- Words behind blanks. -/
def spread (words : List (List Char)) : List Char := words.flatMap (' ' :: ·)

/-- Words behind blanks begin with the end of a word. -/
theorem isWordEnd_head_spread (words : List (List Char)) :
    ∀ c ∈ (spread words).head?, isWordEnd c = true := by
  intro c m
  cases words with
  | nil => cases m
  | cons word words =>
    cases m
    rfl

/-- The next word, and then the others. -/
theorem readWords_succ_eq_some {n : Nat} {cs rest : List Char} {words : List (List Char)} :
    readWords (n + 1) cs = some (words, rest) ↔
      ∃ word between more, words = word :: more ∧ nextWord cs = some (word, between) ∧
        readWords n between = some (more, rest) := by
  rw [readWords]
  constructor
  · intro h
    split at h
    · cases h
    · next word between read =>
      obtain ⟨⟨more, behind⟩, others, same⟩ := Option.map_eq_some_iff.mp h
      cases same
      exact ⟨word, between, more, rfl, read, others⟩
  · rintro ⟨word, between, more, rfl, read, others⟩
    rw [read]
    dsimp only
    rw [others, Option.map_some]

/-- The next word is read also if a blank and more come behind the text. -/
theorem nextWord_append {cs word rest : List Char} (h : nextWord cs = some (word, rest))
    (more : List Char) : nextWord (cs ++ ' ' :: more) = some (word, rest ++ ' ' :: more) := by
  unfold nextWord at h ⊢
  split at h
  · cases h
  · next c tail eq =>
    split_ifs at h with special
    rw [List.dropWhile_append, eq, List.cons_append, List.isEmpty_cons, if_neg Bool.false_ne_true]
    dsimp only
    rw [if_neg special]
    exact readWord_append h more

/-- Words that are all of a text are read in front of more words. -/
theorem readWords_append {n : Nat} {cs rest : List Char} {words : List (List Char)}
    (h : readWords n cs = some (words, rest)) (more : List Char) :
    readWords n (cs ++ ' ' :: more) = some (words, rest ++ ' ' :: more) := by
  induction n generalizing cs words with
  | zero =>
    cases h
    rfl
  | succ n ih =>
    obtain ⟨word, between, others, rfl, read, later⟩ := readWords_succ_eq_some.mp h
    exact readWords_succ_eq_some.mpr
      ⟨word, between ++ ' ' :: more, others, rfl, nextWord_append read more, ih later⟩

/-- First some words are read, and then the others. -/
theorem readWords_add_eq_some {m n : Nat} {cs between rest : List Char}
    {words more : List (List Char)} (h : readWords m cs = some (words, between)) :
    readWords (m + n) cs = some (words ++ more, rest) ↔
      readWords n between = some (more, rest) := by
  induction m generalizing cs words with
  | zero =>
    cases h
    rw [Nat.zero_add, List.nil_append]
  | succ m ih =>
    obtain ⟨word, behind, others, rfl, read, later⟩ := readWords_succ_eq_some.mp h
    rw [Nat.succ_add, readWords_succ_eq_some, ← ih later]
    constructor
    · rintro ⟨word', behind', others', same, read', later'⟩
      cases read.symm.trans read'
      cases same
      exact later'
    · exact fun later' => ⟨word, behind, _, rfl, read, later'⟩

/-- Where a word ends, another word costs a blank. -/
theorem length_nextWord_lt {cs word rest : List Char}
    (ends : ∀ c ∈ cs.head?, isWordEnd c = true) (h : nextWord cs = some (word, rest)) :
    word.length + rest.length < cs.length := by
  cases cs with
  | nil => cases h
  | cons c cs =>
    by_cases gap : isWordGap c = true
    · rw [nextWord_gap gap] at h
      exact Nat.lt_succ_of_le (length_nextWord h)
    · -- at a line break the command ends
      have newline : c = '\n' := by
        have := ends c rfl
        simp only [isWordEnd, isWordGap, Bool.or_eq_true, decide_eq_true_eq] at this gap
        exact this.resolve_left gap
      subst newline
      cases h

/-- Where a word ends, the words read are no longer than the text, each with a blank in front. -/
theorem length_spread_le {n : Nat} {cs rest : List Char} {words : List (List Char)}
    (ends : ∀ c ∈ cs.head?, isWordEnd c = true) (h : readWords n cs = some (words, rest)) :
    (spread words).length + rest.length ≤ cs.length := by
  induction n generalizing cs words with
  | zero =>
    cases h
    simp [spread]
  | succ n ih =>
    obtain ⟨word, between, others, rfl, read, later⟩ := readWords_succ_eq_some.mp h
    have first := length_nextWord_lt ends read
    have others := ih (rest_of_nextWord read).2 later
    simp only [spread, List.flatMap_cons, List.length_append, List.length_cons] at others ⊢
    omega

/-- If the first word takes all of its text, the others are read from theirs. -/
theorem readWords_append_spread_iff {first word : List Char} {words : List (List Char)}
    (fits : ∀ rest, nextWord (first ++ spread words) = some (word, rest) →
      rest.length ≤ (spread words).length) :
    readWords (words.length + 1) (first ++ spread words) = some (word :: words, []) ↔
      nextWord (first ++ spread words) = some (word, spread words) ∧
        readWords words.length (spread words) = some (words, []) := by
  rw [readWords_succ_eq_some]
  constructor
  · rintro ⟨_, between, _, same, read, later⟩
    cases same
    obtain ⟨behind, ends⟩ := rest_of_nextWord read
    -- the text behind the first word is long enough for the others, and no longer
    have long := length_spread_le ends later
    have short := fits between read
    have same : between = spread words :=
      (List.suffix_of_suffix_length_le behind (List.suffix_append first _) short).eq_of_length
        (Nat.le_antisymm short (by simpa using long))
    subst same
    exact ⟨read, later⟩
  · rintro ⟨read, later⟩
    exact ⟨word, spread words, words, rfl, read, later⟩

/-- Words behind blanks are read back exactly if none of them needs quotes. -/
theorem readWords_spread_iff {words : List (List Char)} :
    readWords words.length (spread words) = some (words, []) ↔
      ∀ word ∈ words, isBareWord word = true := by
  induction words with
  | nil => simp [spread, readWords]
  | cons word words ih =>
    have gap (cs : List Char) : nextWord (' ' :: cs) = nextWord cs := nextWord_gap rfl cs
    have cut : spread (word :: words) = ' ' :: word ++ spread words := rfl
    rw [cut, List.length_cons, readWords_append_spread_iff, ih, List.cons_append, gap,
      nextWord_append_iff (isWordEnd_head_spread words), List.forall_mem_cons]
    intro rest read
    rw [List.cons_append, gap] at read
    have := length_nextWord read
    rw [List.length_append] at this
    omega

/-- Blanks in front of words are passed over. -/
theorem readWords_gap {c : Char} (h : isWordGap c = true) (n : Nat) (cs : List Char) :
    readWords (n + 1) (c :: cs) = readWords (n + 1) cs := by
  rw [readWords, readWords, nextWord_gap h]

/-- Behind a text that is read as some words, a text that begins with a blank is read as others. -/
theorem readsAs_append_iff {front text : String} {words more : List String}
    (h : ReadsAs front words) (blank : text.toList.head? = some ' ') :
    ReadsAs (front ++ text) (words ++ more) ↔ ReadsAs text more := by
  obtain ⟨cs, eq⟩ : ∃ cs, text.toList = ' ' :: cs := by
    cases text' : text.toList with
    | nil =>
      rw [text'] at blank
      cases blank
    | cons c cs =>
      rw [text'] at blank
      exact ⟨cs, by rw [Option.some.inj blank]⟩
  have read := readWords_append h cs
  rw [ReadsAs, ReadsAs, String.toList_append, eq, List.length_append, List.map_append,
    readWords_add_eq_some read, List.nil_append]

/-- A text of words behind blanks is read as these words exactly if none of them needs quotes. -/
theorem readsAs_iff {text : String} {words : List String}
    (eq : text.toList = spread (words.map String.toList)) :
    ReadsAs text words ↔ ∀ word ∈ words, isBareWord word.toList = true := by
  rw [ReadsAs, eq, ← List.length_map String.toList, readWords_spread_iff, List.forall_mem_map]

/-! ## An option in double quotes -/

/-- A word in front of a text in double quotes is read with that text. -/
theorem nextWord_quoted {front : List Char} (h : isBareWord front = true) (cs : List Char) :
    nextWord (front ++ '\x22' :: cs) = behind front (readWord .double cs) := by
  rw [nextWord_append_of_isBareWord h, readWord_cons stepWord_opening, behind_nil]

/-- A word in front of a text in double quotes, and more words behind it, are read with that text as
it is exactly if it is literal between the quotes and the other words need none. -/
theorem readWords_quoted_iff {front value : List Char} (h : isBareWord front = true)
    {words : List (List Char)} :
    readWords (words.length + 1) (front ++ '\x22' :: (value ++ ['\x22']) ++ spread words) =
        some ((front ++ value) :: words, []) ↔
      isInert value = true ∧ ∀ word ∈ words, isBareWord word = true := by
  have text : front ++ '\x22' :: (value ++ ['\x22']) ++ spread words =
      front ++ '\x22' :: (value ++ '\x22' :: spread words) := by simp
  have read (rest : List Char) :
      nextWord (front ++ '\x22' :: (value ++ ['\x22']) ++ spread words) =
          some (front ++ value, rest) ↔
        readWord .double (value ++ '\x22' :: spread words) = some (value, rest) := by
    rw [text, nextWord_quoted h]
    cases readWord .double (value ++ '\x22' :: spread words) <;> simp [behind, Prod.ext_iff]
  rw [readWords_append_spread_iff, read, readWord_double_iff (isWordEnd_head_spread words),
    readWords_spread_iff]
  intro rest eq
  have := length_readWord ((read rest).mp eq)
  simp only [List.length_append, List.length_cons, WordState.owed] at this
  omega

/-- A text of an option whose value stands in double quotes, and of words behind blanks, is read as
these words exactly if the value is literal between the quotes and the others need none. -/
theorem readsAs_option_iff {text option value : String} {words : List String}
    (h : isBareWord option.toList = true)
    (eq : text.toList = ' ' :: (option.toList ++ '\x22' :: (value.toList ++ ['\x22']) ++
      spread (words.map String.toList))) :
    ReadsAs text ((option ++ value) :: words) ↔
      isInert value.toList = true ∧ ∀ word ∈ words, isBareWord word.toList = true := by
  rw [ReadsAs, eq, List.length_cons, readWords_gap rfl, List.map_cons, String.toList_append,
    ← List.length_map String.toList, readWords_quoted_iff h, List.forall_mem_map]

end SqlFootprint.Text
