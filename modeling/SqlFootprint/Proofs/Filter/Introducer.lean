import Mathlib.Data.List.TakeWhile
import SqlFootprint.Filter.Normal
import SqlFootprint.Proofs.Text.Literals

/-! # Character sets and the texts behind them

The pass that removes character sets does not know where a text begins. It takes the end of a text
for the name of a character set if it looks like one and another text follows, and it looks for
names inside texts as well. For texts behind equals signs these are the only places where it removes
anything (`dropCharsets_interleaved`), and each removal shows in the texts that are read
(`introducersIn_of_literalsFrom`). -/

namespace SqlFootprint.Filter

open Text

/-! ## Where a character set is found -/

/-- What is left behind the further letters of a name and the blanks after it. -/
def behindName (cs : List Char) : List Char := (cs.dropWhile isCharsetPart).dropWhile isBlank

/-- Whether a quoted text with an end begins. -/
def opensText : List Char → Bool
  | [] => false
  | q :: body => q = '\x27' && body.contains '\x27'

/-- Dropping as many characters as a run has drops the run. -/
theorem drop_length_takeWhile (p : Char → Bool) (cs : List Char) :
    cs.drop (cs.takeWhile p).length = cs.dropWhile p := by
  have cut : cs.takeWhile p ++ cs.dropWhile p = cs := List.takeWhile_append_dropWhile
  calc cs.drop (cs.takeWhile p).length
      = (cs.takeWhile p ++ cs.dropWhile p).drop (cs.takeWhile p).length := by rw [cut]
    _ = cs.dropWhile p := List.drop_left

/-- A text has an end exactly if a quote is left. -/
theorem closedText_isSome (body : List Char) :
    (closedText body).isSome = body.contains '\x27' := by
  induction body with
  | nil => rfl
  | cons c cs ih =>
    by_cases quote : c = '\x27'
    · subst quote
      -- a quote ends the text unless a later one does
      cases cs with
      | nil => rfl
      | cons d ds =>
        rw [closedText, if_pos rfl]
        by_cases pair : d = '\x27'
        · rw [if_pos pair]
          cases closedText ds <;> simp
        · rw [if_neg pair]
          simp
    · -- any other character is passed over
      have same : (closedText (c :: cs)).isSome = (closedText cs).isSome := by
        cases cs with
        | nil => simp [closedText, quote]
        | cons d ds =>
          rw [closedText, if_neg quote]
          cases closedText (d :: ds) <;> rfl
      rw [same, ih]
      simp [Ne.symm quote]

/-- A character set stands in front exactly if there is a name and a quoted text behind it. -/
theorem introducedText?_isSome (u first : Char) (cs : List Char) :
    (introducedText? (u :: first :: cs)).isSome =
      (u = '_' && first.isAlpha && opensText (behindName cs)) := by
  have rest : cs.drop ((cs.takeWhile isCharsetPart).length +
      ((cs.drop (cs.takeWhile isCharsetPart).length).takeWhile isBlank).length) =
        behindName cs := by
    rw [← List.drop_drop, drop_length_takeWhile, drop_length_takeWhile, behindName]
  rw [introducedText?]
  split
  · next named =>
    dsimp only
    rw [rest, named, Bool.true_and]
    cases behindName cs with
    | nil => rfl
    | cons q body =>
      dsimp only [opensText]
      by_cases quote : q = '\x27'
      · have ended := closedText_isSome body
        rw [if_pos quote, decide_eq_true quote, Bool.true_and, ← ended]
        cases closedText body <;> rfl
      · rw [if_neg quote, decide_eq_false quote]
        rfl
  · next unnamed => rw [Bool.eq_false_iff.mpr unnamed, Bool.false_and, Option.isSome_none]

/-- What is left of a character set and the text behind it begins with the quote. -/
theorem exists_of_introducedText? {cs text : List Char} {length : Nat}
    (h : introducedText? cs = some (text, length)) :
    ∃ body cs', text = '\x27' :: body ∧ cs = '_' :: cs' := by
  unfold introducedText? at h
  split at h
  · next u first cs =>
    split at h
    · next named =>
      obtain rfl : u = '_' := of_decide_eq_true ((Bool.and_eq_true _ _).mp named).1
      dsimp only at h
      split at h
      · next q body _ =>
        split at h
        · next quote =>
          split at h
          · obtain rfl := (Prod.mk.inj (Option.some.inj h)).1
            exact ⟨_, _, by rw [quote], rfl⟩
          · cases h
        · cases h
      · cases h
    · cases h
  · cases h

/-- Only an underscore begins the name of a character set. -/
theorem introducedText?_of_ne {c : Char} (h : c ≠ '_') (cs : List Char) :
    (introducedText? (c :: cs)).isSome = false := by
  cases cs with
  | nil => rfl
  | cons d ds =>
    rw [introducedText?_isSome, decide_eq_false h]
    rfl

/-! ## One step of the pass -/

/-- Where no character set stands, a character is kept. -/
theorem dropCharsetsFrom_cons {inWord : Bool} {c : Char} {cs : List Char}
    (h : (!inWord && (introducedText? (c :: cs)).isSome) = false) :
    dropCharsetsFrom 0 inWord (c :: cs) = c :: dropCharsetsFrom 0 (isWordChar c) cs := by
  have nothing : (if inWord then none else introducedText? (c :: cs)) = none := by
    cases inWord with
    | true => rfl
    | false => simpa using h
  rw [dropCharsetsFrom, nothing]

/-- Where a character set stands, the pass goes on with a quote. -/
theorem exists_dropCharsetsFrom_cons {inWord : Bool} {c : Char} {cs : List Char}
    (h : (!inWord && (introducedText? (c :: cs)).isSome) = true) :
    c = '_' ∧ ∃ more, dropCharsetsFrom 0 inWord (c :: cs) = '\x27' :: more := by
  obtain ⟨notInWord, some⟩ := (Bool.and_eq_true _ _).mp h
  obtain ⟨⟨text, length⟩, found⟩ := Option.isSome_iff_exists.mp some
  obtain ⟨body, cs', rfl, front⟩ := exists_of_introducedText? found
  refine ⟨(List.cons.inj front).1, body ++ dropCharsetsFrom (length - 1) (isWordChar c) cs, ?_⟩
  rw [dropCharsetsFrom, if_neg ((Bool.not_eq_true' _).mp notInWord ▸ Bool.false_ne_true), found]
  rfl

/-- A quote is kept, and behind it a name may begin. -/
theorem dropCharsetsFrom_quote (inWord : Bool) (cs : List Char) :
    dropCharsetsFrom 0 inWord ('\x27' :: cs) = '\x27' :: dropCharsetsFrom 0 false cs := by
  apply dropCharsetsFrom_cons
  rw [introducedText?_of_ne (by decide), Bool.and_false]

/-! ## Characters in front of a sign of comparison -/

/-- The characters in which signs of comparison end. -/
def signEnds : List Char := ['=', '<', '>']

/-- A sign of comparison ends in no part of a name, in no blank and in no quote. -/
theorem of_mem_signEnds : ∀ sign ∈ signEnds, isCharsetPart sign = false ∧ isBlank sign = false ∧
    isWordChar sign = false ∧ sign ≠ '_' ∧ sign ≠ '\x27' := by decide

/-- A run goes on up to a character that is no part of it. -/
theorem dropWhile_append_cons {p : Char → Bool} {d : Char} (hd : p d = false)
    (cs rest : List Char) : (cs ++ d :: rest).dropWhile p = cs.dropWhile p ++ d :: rest := by
  induction cs with
  | nil => simp [hd]
  | cons c cs ih =>
    rw [List.cons_append, List.dropWhile_cons, List.dropWhile_cons, ih]
    split <;> rfl

section

variable {sign : Char} (hsign : sign ∈ signEnds)

include hsign

/-- In front of a sign of comparison no name has a text behind it. -/
theorem introducedText?_gap {gap : List Char} (h : '\x27' ∉ gap) (rest : List Char) :
    (introducedText? (gap ++ sign :: rest)).isSome = false := by
  obtain ⟨noPart, noBlank, -, noName, noQuote⟩ := of_mem_signEnds sign hsign
  -- a name takes two characters, so shorter gaps reach the sign too early
  match gap, h with
  | [], _ => exact introducedText?_of_ne noName rest
  | [u], _ =>
    have noLetter : sign.isAlpha = false := (Bool.or_eq_false_iff.mp noPart).1
    show (introducedText? (u :: sign :: rest)).isSome = false
    rw [introducedText?_isSome]
    simp [noLetter]
  | u :: first :: cs, h =>
    have behind : behindName (cs ++ sign :: rest) = behindName cs ++ sign :: rest := by
      rw [behindName, dropWhile_append_cons noPart, dropWhile_append_cons noBlank, behindName]
    have closed : opensText (behindName cs ++ sign :: rest) = false := by
      cases left : behindName cs with
      | nil => simp [opensText, noQuote]
      | cons q body =>
        -- what is left behind the name is still in front of the sign
        have m : q ∈ cs := by
          have suffix : behindName cs <:+ cs :=
            (List.dropWhile_suffix _).trans (List.dropWhile_suffix _)
          exact suffix.subset (left ▸ List.mem_cons_self)
        have ne : q ≠ '\x27' := fun e =>
          h (List.mem_cons_of_mem u (List.mem_cons_of_mem first (e ▸ m)))
        simp [opensText, ne]
    show (introducedText? (u :: first :: (cs ++ sign :: rest))).isSome = false
    rw [introducedText?_isSome, behind, closed, Bool.and_false]

/-- The characters in front of a sign of comparison are kept. -/
theorem dropCharsetsFrom_gap (inWord : Bool) {gap : List Char} (h : '\x27' ∉ gap)
    (rest : List Char) :
    dropCharsetsFrom 0 inWord (gap ++ sign :: rest) =
      gap ++ sign :: dropCharsetsFrom 0 false rest := by
  obtain ⟨-, -, noWord, noName, -⟩ := of_mem_signEnds sign hsign
  induction gap generalizing inWord with
  | nil =>
    rw [List.nil_append, List.nil_append, ← noWord]
    apply dropCharsetsFrom_cons
    rw [introducedText?_of_ne noName, Bool.and_false]
  | cons c gap ih =>
    rw [List.cons_append, dropCharsetsFrom_cons, ih _ fun m => h (List.mem_cons_of_mem c m),
      List.cons_append]
    rw [← List.cons_append, introducedText?_gap hsign h, Bool.and_false]

end

/-! ## Names inside texts -/

/-- Whether a character set is found in front of a text: its name stands there, and a quote follows
inside the text or, if there are more texts, at its end. -/
def introducerAhead (more : Bool) : List Char → Bool
  | u :: first :: cs =>
    u = '_' && first.isAlpha &&
      match behindName cs with
      | [] => more
      | q :: _ => q = '\x27'
  | _ => false

/-- Whether a character set is found somewhere in a text. -/
def holdsIntroducer (more : Bool) : (inWord : Bool) → List Char → Bool
  | _, [] => false
  | inWord, c :: cs =>
    (!inWord && introducerAhead more (c :: cs)) || holdsIntroducer more (isWordChar c) cs

/-- Whether a character set is found in one of the texts of a condition. -/
def introducersIn : List (List Char) → Bool
  | [] => false
  | value :: values => holdsIntroducer (!values.isEmpty) false value || introducersIn values

/-- A run of characters other than quotes is not touched by doubling. -/
theorem dropWhile_doubleMarks {p : Char → Bool} (hp : p '\x27' = false) (cs rest : List Char) :
    (doubleMarks '\x27' cs ++ '\x27' :: rest).dropWhile p =
      doubleMarks '\x27' (cs.dropWhile p) ++ '\x27' :: rest := by
  induction cs with
  | nil => simp [hp]
  | cons c cs ih =>
    rw [doubleMarks_cons, List.dropWhile_cons]
    by_cases run : p c = true
    · -- a character of the run is no quote, so it is not doubled
      have ne : c ≠ '\x27' := fun e => by
        rw [e, hp] at run
        cases run
      rw [if_neg ne, if_pos run, ← ih]
      exact List.dropWhile_cons_of_pos run
    · rw [if_neg run, doubleMarks_cons]
      split <;> exact List.dropWhile_cons_of_neg run

/-- Behind a name in a text, a quoted text begins at a quote inside the text or at its end. -/
theorem opensText_doubleMarks (cs rest : List Char) :
    opensText (behindName (doubleMarks '\x27' cs ++ '\x27' :: rest)) =
      match behindName cs with
      | [] => rest.contains '\x27'
      | q :: _ => q = '\x27' := by
  have behind : behindName (doubleMarks '\x27' cs ++ '\x27' :: rest) =
      doubleMarks '\x27' (behindName cs) ++ '\x27' :: rest := by
    rw [behindName, dropWhile_doubleMarks (by decide), dropWhile_doubleMarks (by decide),
      behindName]
  rw [behind]
  cases behindName cs with
  | nil => rfl
  | cons q more =>
    rw [doubleMarks_cons]
    by_cases quote : q = '\x27'
    · subst quote
      simp [opensText]
    · rw [if_neg quote]
      simp [opensText, quote]

/-- The pass finds the character sets that stand inside the text or at its end. -/
theorem introducedText?_doubleMarks (value rest : List Char) :
    (introducedText? (doubleMarks '\x27' value ++ '\x27' :: rest)).isSome =
      introducerAhead (rest.contains '\x27') value := by
  -- the name takes two characters, and neither of them can be a quote
  match value with
  | [] => exact introducedText?_of_ne (by decide) rest
  | [u] =>
    by_cases quote : u = '\x27'
    · subst quote
      exact introducedText?_of_ne (by decide) _
    · rw [doubleMarks_cons, if_neg quote]
      show (introducedText? (u :: '\x27' :: rest)).isSome = false
      rw [introducedText?_isSome]
      simp
  | u :: first :: cs =>
    rw [introducerAhead, doubleMarks_cons, doubleMarks_cons]
    by_cases quote : u = '\x27'
    · subst quote
      rw [if_pos rfl]
      exact introducedText?_of_ne (by decide) _
    · rw [if_neg quote]
      by_cases second : first = '\x27'
      · subst second
        rw [if_pos rfl]
        show (introducedText? (u :: '\x27' :: _)).isSome = _
        rw [introducedText?_isSome]
        simp
      · rw [if_neg second]
        show (introducedText? (u :: first :: (doubleMarks '\x27' cs ++ '\x27' :: rest))).isSome = _
        rw [introducedText?_isSome, opensText_doubleMarks]

/-! ## Texts and the pass -/

section

variable (more : List Char)

/-- A text in which no character set is found is kept. -/
theorem dropCharsetsFrom_value {inWord : Bool} {value : List Char}
    (h : holdsIntroducer (more.contains '\x27') inWord value = false) :
    dropCharsetsFrom 0 inWord (doubleMarks '\x27' value ++ '\x27' :: more) =
      doubleMarks '\x27' value ++ '\x27' :: dropCharsetsFrom 0 false more := by
  induction value generalizing inWord with
  | nil => exact dropCharsetsFrom_quote inWord more
  | cons c value ih =>
    obtain ⟨here, later⟩ := Bool.or_eq_false_iff.mp h
    rw [← introducedText?_doubleMarks] at here
    rw [doubleMarks_cons] at here ⊢
    by_cases quote : c = '\x27'
    · -- both quotes of the pair are kept, and neither is part of a word
      subst quote
      rw [if_pos rfl]
      show dropCharsetsFrom 0 inWord ('\x27' :: '\x27' :: _) = _
      rw [dropCharsetsFrom_quote, dropCharsetsFrom_quote]
      exact congrArg ('\x27' :: '\x27' :: ·) (ih later)
    · rw [if_neg quote] at here ⊢
      show dropCharsetsFrom 0 inWord (c :: _) = _
      rw [dropCharsetsFrom_cons here]
      exact congrArg (c :: ·) (ih later)

/-- If a text is read back from what the pass leaves of it, no character set is found in it. -/
theorem holdsIntroducer_of_literalsFrom {inWord : Bool} {read value : List Char}
    {values : List (List Char)}
    (h : literalsFrom (.inside read)
      (dropCharsetsFrom 0 inWord (doubleMarks '\x27' value ++ '\x27' :: more)) =
        some ((read ++ value) :: values)) :
    holdsIntroducer (more.contains '\x27') inWord value = false := by
  induction value generalizing inWord read with
  | nil => rfl
  | cons c value ih =>
    have whole : read ++ c :: value = read ++ [c] ++ value := by simp
    rw [holdsIntroducer]
    cases here : !inWord && introducerAhead (more.contains '\x27') (c :: value) with
    | true =>
      -- the pass puts a quote where the text goes on with the name
      rw [← introducedText?_doubleMarks] at here
      exfalso
      obtain ⟨cs, front⟩ : ∃ cs, doubleMarks '\x27' (c :: value) ++ '\x27' :: more = c :: cs := by
        rw [doubleMarks_cons]
        split <;> exact ⟨_, rfl⟩
      rw [front] at here h
      obtain ⟨rfl, rest, eq⟩ := exists_dropCharsetsFrom_cons here
      rw [eq] at h
      rcases (prefix_of_literalsFrom read).2 h with same | longer
      · simp at same
      · rw [List.prefix_append_right_inj, List.cons_prefix_cons] at longer
        exact absurd longer.1 (by decide)
    | false =>
      -- the character is kept and read, and the rest is read behind it
      rw [Bool.false_or]
      rw [← introducedText?_doubleMarks] at here
      rw [doubleMarks_cons] at here h
      rw [whole] at h
      by_cases quote : c = '\x27'
      · subst quote
        rw [if_pos rfl] at h
        change literalsFrom _ (dropCharsetsFrom 0 inWord ('\x27' :: '\x27' :: _)) = _ at h
        rw [dropCharsetsFrom_quote, dropCharsetsFrom_quote] at h
        exact ih h
      · rw [if_neg quote] at here h
        change literalsFrom _ (dropCharsetsFrom 0 inWord (c :: _)) = _ at h
        rw [dropCharsetsFrom_cons here, literalsFrom, if_neg quote] at h
        exact ih h

end

/-! ## Texts behind equals signs -/

/-- Every text stands behind an equals sign, and no quote is among the characters before it. -/
def BehindEquals (items : List (List Char × List Char)) : Prop :=
  ∀ item ∈ items, ∃ head, item.1 = head ++ ['='] ∧ '\x27' ∉ head

/-- Something stands between texts behind equals signs. -/
theorem BehindEquals.gaps {items : List (List Char × List Char)} (h : BehindEquals items) :
    Gaps items := by
  intro item m
  obtain ⟨head, eq, noQuote⟩ := h item m
  rw [eq]
  exact ⟨by simp, by simp [noQuote]⟩

/-- A quote is left as long as texts are. -/
theorem contains_interleaved (items : List (List Char × List Char)) :
    (interleaved items).contains '\x27' = !(items.map Prod.snd).isEmpty := by
  cases items with
  | nil => rfl
  | cons item rest =>
    obtain ⟨gap, value⟩ := item
    simp [interleaved]

/-- The pass keeps what stands in front of a text, with its opening quote. -/
theorem dropCharsetsFrom_opening (inWord : Bool) {head : List Char} (h : '\x27' ∉ head)
    (rest : List Char) :
    dropCharsetsFrom 0 inWord (head ++ ['='] ++ '\x27' :: rest) =
      head ++ ['='] ++ '\x27' :: dropCharsetsFrom 0 false rest := by
  rw [List.append_assoc, List.singleton_append, dropCharsetsFrom_gap (by decide) inWord h,
    dropCharsetsFrom_quote, List.append_assoc, List.singleton_append]

/-- Nothing is removed if no character set is found in the texts. -/
theorem dropCharsets_interleaved {items : List (List Char × List Char)} (h : BehindEquals items)
    (free : introducersIn (items.map Prod.snd) = false) :
    dropCharsets (interleaved items) = interleaved items := by
  unfold dropCharsets
  induction items with
  | nil => rfl
  | cons item rest ih =>
    obtain ⟨gap, value⟩ := item
    obtain ⟨head, rfl, noQuote⟩ := h _ List.mem_cons_self
    obtain ⟨here, later⟩ := Bool.or_eq_false_iff.mp free
    -- a quote is left behind this text exactly if another text follows
    rw [← contains_interleaved] at here
    rw [interleaved, dropCharsetsFrom_opening false noQuote, dropCharsetsFrom_value _ here,
      ih (fun other m => h other (List.mem_cons_of_mem _ m)) later]

/-- If the texts are read back from what the pass leaves, no character set is found in them; the
texts may stand behind the end of another. -/
theorem introducersIn_of_literalsFrom {items : List (List Char × List Char)}
    (h : BehindEquals items) :
    (literalsFrom .outside (dropCharsets (interleaved items)) = some (items.map Prod.snd) →
      introducersIn (items.map Prod.snd) = false) ∧
    ∀ read, literalsFrom (.behindQuote read) (dropCharsets (interleaved items)) =
      some (read :: items.map Prod.snd) → introducersIn (items.map Prod.snd) = false := by
  unfold dropCharsets
  induction items with
  | nil => exact ⟨fun _ => rfl, fun _ _ => rfl⟩
  | cons item rest ih =>
    obtain ⟨gap, value⟩ := item
    obtain ⟨head, rfl, noQuote⟩ := h _ List.mem_cons_self
    have later := (ih fun other m => h other (List.mem_cons_of_mem _ m)).2
    have noQuote' : '\x27' ∉ head ++ ['='] := by simp [noQuote]
    rw [interleaved, dropCharsetsFrom_opening false noQuote]
    -- the value and the values behind it are read from the opening quote on
    have opened : literalsFrom .outside ('\x27' :: dropCharsetsFrom 0 false
        (doubleMarks '\x27' value ++ '\x27' :: interleaved rest)) =
          some (value :: rest.map Prod.snd) →
        introducersIn (value :: rest.map Prod.snd) = false := by
      intro eq
      have here := holdsIntroducer_of_literalsFrom (interleaved rest)
        (show literalsFrom (.inside []) _ = some (([] ++ value) :: rest.map Prod.snd) from eq)
      change literalsFrom (.inside []) _ = _ at eq
      rw [dropCharsetsFrom_value _ here, literalsFrom_inside_doubleMarks] at eq
      rw [introducersIn, ← contains_interleaved, here]
      exact later value eq
    constructor
    · intro eq
      rw [literalsFrom_outside_append noQuote'] at eq
      exact opened eq
    · intro read eq
      rw [literalsFrom_behindQuote_append read noQuote' (by simp)] at eq
      obtain ⟨values, inner, same⟩ := Option.map_eq_some_iff.mp eq
      obtain ⟨-, rfl⟩ := List.cons.inj same
      exact opened inner

/-- The texts are read back from what the pass leaves exactly if no character set is found in
them. -/
theorem literals_dropCharsets_iff {items : List (List Char × List Char)} (h : BehindEquals items) :
    literals? (dropCharsets (interleaved items)) = some (items.map Prod.snd) ↔
      introducersIn (items.map Prod.snd) = false := by
  constructor
  · exact (introducersIn_of_literalsFrom h).1
  · intro free
    rw [dropCharsets_interleaved h free, literals_interleaved h.gaps]

end SqlFootprint.Filter
