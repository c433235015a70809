import Mathlib.Data.List.Infix
import SqlFootprint.Proofs.Sql.Lexing

/-! # Reading what is written

A text that is written is read as one token where it stands (`ReadsOne`): words in capitals, quoted
texts whose marks are written twice, and signs that no character behind them makes longer. Blanks
around it are passed over. -/

namespace SqlFootprint.Sql

/-- In front of some characters, a text is read as one token, from any place on. -/
def ReadsOne (before : Before) (text : List Char) (token : Token) (after : Before)
    (rest : List Char) : Prop :=
  ∀ p, ∃ start stop, ∀ tokens, LexesTo after stop rest tokens →
    LexesTo before p (text ++ rest) (⟨token, start⟩ :: tokens)

namespace ReadsOne

variable {before after : Before} {text rest : List Char} {token : Token}

theorem of_scan {c : Char} {more : List Char}
    (step : ∀ p, ∃ read, scan before p c (more ++ rest) = .ok ⟨some token, read, rest⟩) :
    ReadsOne before (c :: more) token (.of (some token)) rest := fun p =>
  have ⟨read, step⟩ := step p
  ⟨p, p.advance read, fun _ reads => .token step reads⟩

theorem of_readsAs {goesOn : Char → Bool} (reads : ReadsAs before text token goesOn)
    (stops : Stops goesOn rest) : ReadsOne before text token (.of (some token)) rest := by
  obtain ⟨c, more, rfl, step⟩ := reads
  exact of_scan fun p => ⟨_, step p rest stops⟩

/-- A blank in front. -/
theorem blank_cons (reads : ReadsOne .other text token after rest) :
    ReadsOne before (' ' :: text) token after rest := fun p =>
  have ⟨start, stop, more⟩ := reads (p.advance [' '])
  ⟨start, stop, fun tokens last => .gap rfl (more tokens last)⟩

/-- A blank behind. -/
theorem append_blank (reads : ReadsOne before text token after (' ' :: rest)) :
    ReadsOne before (text ++ [' ']) token .other rest := fun p => by
  obtain ⟨start, stop, more⟩ := reads p
  refine ⟨start, stop.advance [' '], fun tokens last => ?_⟩
  rw [List.append_assoc]
  exact more tokens (.gap rfl last)

/-- Blanks around. -/
theorem blanks (reads : ReadsOne .other text token after (' ' :: rest)) :
    ReadsOne before (' ' :: (text ++ [' '])) token .other rest := reads.append_blank.blank_cons

end ReadsOne

/-! ## Words in capitals -/

/-- A capital letter may start a name, and it is no digit, period or at sign. -/
theorem isNameStart_of_isUpper {c : Char} (upper : c.isUpper = true) :
    isNameStart c = true ∧ ¬ (c.isDigit = true ∨ c = '.') ∧ c ≠ '@' := by
  have alpha : c.isAlpha = true := Bool.or_eq_true_iff.mpr (.inl upper)
  refine ⟨by simp [isNameStart, alpha], ?_, ?_⟩
  · rintro (digit | rfl)
    · have low : 65 ≤ c.toNat := (of_decide_eq_true upper).1
      have high : c.toNat ≤ 57 := (Char.isDigit_iff_toNat.mp digit).2
      omega
    · exact absurd upper (by decide)
  · rintro rfl
    exact absurd upper (by decide)

/-- A word in capitals. -/
theorem readsOne_capitals (before : Before) {word : List Char} {rest : List Char}
    (nonempty : word ≠ []) (capitals : word.all Char.isUpper = true)
    (stops : Stops goesOnWord rest) :
    ReadsOne before word (.word ⟨String.ofList word, none⟩) .word rest := by
  obtain ⟨c, more, rfl⟩ := List.exists_cons_of_ne_nil nonempty
  rw [List.all_cons, Bool.and_eq_true, List.all_eq_true] at capitals
  obtain ⟨first, others⟩ := capitals
  obtain ⟨start, noDigit, notAt⟩ := isNameStart_of_isUpper first
  have inside : ∀ d ∈ more, isNamePart d = true := fun d mem => by
    simp [isNamePart, (isNameStart_of_isUpper (others d mem)).1]
  refine .of_scan fun p => ⟨c :: more, ?_⟩
  rw [scan_name start noDigit notAt fun _ => noQuote_behind inside stops,
    scanWord_append _ inside (stops.mono fun _ => goesOnWord_of_isNamePart)]
  rfl

/-! ## Quoted texts -/

/-- A run whose marks are written twice is read back. -/
theorem quotedRun_doubleMarks {mark : Char} {escapes : Bool} {value rest : List Char}
    (plain : escapes = true → '\\' ∉ value) (ends : rest.head? ≠ some mark) :
    quotedRun mark escapes (Text.doubleMarks mark value ++ mark :: rest) =
      some ⟨value, Text.doubleMarks mark value ++ [mark], rest⟩ := by
  induction value with
  | nil =>
    cases rest with
    | nil => simp [quotedRun]
    | cons d rest =>
      have other : d ≠ mark := by simpa using ends
      simp [quotedRun, other]
  | cons c value ih =>
    have ih := ih fun on mem => plain on (List.mem_cons_of_mem _ mem)
    rw [Text.doubleMarks_cons]
    split
    · rename_i same
      subst same
      simp [quotedRun, ih, QuotedRun.push]
    · rename_i other
      have noEscape : (escapes && c = '\\') = false := by
        cases escapes with
        | false => rfl
        | true =>
          have : c ≠ '\\' := fun same => plain rfl (same ▸ List.mem_cons_self)
          simpa using this
      obtain ⟨d, more, same⟩ := List.exists_cons_of_ne_nil
        (List.append_ne_nil_of_right_ne_nil (Text.doubleMarks mark value)
          (List.cons_ne_nil mark rest))
      rw [same] at ih
      rw [List.append_assoc, same, List.singleton_append, quotedRun, if_neg other, noEscape]
      simp [ih, QuotedRun.push]

theorem scanText_doubleMarks (p : Position) (letters : List Char) (kind : TextKind) {mark : Char}
    {escapes : Bool} {value : String} {rest : List Char}
    (plain : escapes = true → '\\' ∉ value.toList) (ends : rest.head? ≠ some mark) : ∃ read,
      scanText p letters kind mark escapes (Text.doubleMarks mark value.toList ++ mark :: rest) =
        .ok ⟨some (.literal (.text kind value)), read, rest⟩ := by
  unfold scanText
  rw [quotedRun_doubleMarks plain ends]
  dsimp only
  rw [String.ofList_toList]
  exact ⟨_, rfl⟩

theorem toList_doubled (mark : Char) (value : String) (rest : List Char) :
    (Text.doubled mark value).toList ++ rest =
      mark :: (Text.doubleMarks mark value.toList ++ mark :: rest) := by
  simp [Text.doubled]

/-- A text in single quotes. -/
theorem readsOne_single (before : Before) {value : String} {rest : List Char}
    (plain : '\\' ∉ value.toList) (ends : rest.head? ≠ some '\x27') :
    ReadsOne before (Text.doubled '\x27' value).toList (.literal (.text .single value)) .other
      rest := fun p => by
  obtain ⟨read, step⟩ := scanText_doubleMarks p [] .single (fun _ => plain) ends
  rw [toList_doubled]
  exact ⟨p, _, fun _ last => .token step last⟩

/-- A literal that a letter introduces. -/
theorem readsOne_letter {before : Before} {letter mark : Char} {kind : TextKind} {escapes : Bool}
    (step : ∀ p cs, scan before p letter (mark :: cs) = scanText p [letter] kind mark escapes cs)
    {value : String} {rest : List Char} (noMark : mark ∉ value.toList)
    (plain : escapes = true → '\\' ∉ value.toList) (ends : rest.head? ≠ some mark) :
    ReadsOne before (letter :: mark :: (value.toList ++ [mark])) (.literal (.text kind value))
      .other
      rest := fun p => by
  obtain ⟨read, found⟩ := scanText_doubleMarks p [letter] kind plain ends
  rw [← step, Text.doubleMarks_of_not_mem noMark] at found
  refine ⟨p, p.advance read, fun _ last => ?_⟩
  simpa using LexesTo.token found last

theorem scan_backtick_eq (before : Before) (p : Position) (cs : List Char) :
    scan before p '\x60' cs = match quotedRun '\x60' false cs with
      | some run => .ok ⟨some (.word ⟨String.ofList run.value, some .backtick⟩), '\x60' :: run.read,
          run.rest⟩
      | none => .error (.openName p) := rfl

theorem scan_backtick (before : Before) (p : Position) {cs : List Char} {run : QuotedRun}
    (h : quotedRun '\x60' false cs = some run) : scan before p '\x60' cs =
      .ok ⟨some (.word ⟨String.ofList run.value, some .backtick⟩), '\x60' :: run.read,
        run.rest⟩ := by
  rw [scan_backtick_eq, h]

/-- A name in backticks. -/
theorem readsOne_backtick (before : Before) {value : String} {rest : List Char}
    (ends : rest.head? ≠ some '\x60') :
    ReadsOne before (Text.doubled '\x60' value).toList (.word ⟨value, some .backtick⟩) .word
      rest := fun p => by
  have run : quotedRun '\x60' false (Text.doubleMarks '\x60' value.toList ++ '\x60' :: rest) = _ :=
    quotedRun_doubleMarks nofun ends
  have step := scan_backtick before p run
  rw [String.ofList_toList] at step
  rw [toList_doubled]
  exact ⟨p, _, fun _ last => .token step last⟩

/-! ## Signs -/

/-- Whether a character makes a sign longer. -/
def signGoesOn (spelling : List Char) (c : Char) : Bool :=
  signTable.any fun entry => (spelling ++ [c]).isPrefixOf entry.1

/-- A sign that nothing behind it makes longer is read again. -/
theorem scanSign?_append {spelling rest : List Char} {s : Sign}
    (found : signTable.find? (fun entry => entry.1.isPrefixOf spelling) = some (spelling, s))
    (stops : Stops (signGoesOn spelling) rest) :
    scanSign? (spelling ++ rest) = some ⟨some (.sign s), spelling, rest⟩ := by
  -- the entries that the longer text starts with are those that the sign starts with
  have same : ∀ entry ∈ signTable, entry.1.isPrefixOf (spelling ++ rest) =
      entry.1.isPrefixOf spelling := by
    intro entry mem
    rw [Bool.eq_iff_iff, List.isPrefixOf_iff_prefix, List.isPrefixOf_iff_prefix]
    refine ⟨fun starts => ?_, fun starts => starts.trans (List.prefix_append _ _)⟩
    obtain shorter | longer :=
      List.prefix_or_prefix_of_prefix starts (List.prefix_append spelling rest)
    · exact shorter
    · obtain ⟨tail, same⟩ := longer
      cases tail with
      | nil => exact ⟨[], by simpa using same.symm⟩
      | cons d tail =>
        rw [← same, List.prefix_append_right_inj] at starts
        obtain ⟨tail', rfl⟩ := starts
        have goesOn : signGoesOn spelling d = true := by
          refine List.any_eq_true.mpr ⟨entry, mem, List.isPrefixOf_iff_prefix.mpr ⟨tail, ?_⟩⟩
          rw [← same]
          simp only [List.append_assoc, List.cons_append, List.nil_append]
        exact absurd ((stops d rfl).symm.trans goesOn) nofun
  have agree : signTable.find? (fun entry => entry.1.isPrefixOf (spelling ++ rest)) =
      signTable.find? fun entry => entry.1.isPrefixOf spelling := by
    generalize signTable = table at same
    induction table with
    | nil => rfl
    | cons entry table ih =>
      rw [List.find?_cons, List.find?_cons, same entry List.mem_cons_self,
        ih fun entry mem => same entry (List.mem_cons_of_mem _ mem)]
  unfold scanSign?
  rw [agree, found]
  simp

/-- What makes a sign longer. -/
theorem signGoesOn_cases {spelling : List Char} {c : Char} (nonempty : spelling ≠ [])
    (goesOn : signGoesOn spelling c = true) :
    c ∈ ['>', '=', '~', '*', '<', '!', '@', '|', '/', '&', ':'] ∧
      (c = '@' → spelling = ['<'] ∨ spelling = ['^']) ∧ (c = ':' → spelling = [':']) ∧
      spelling ∉ [['('], [')'], [',']] := by
  have tails : ∀ entry ∈ signTable, ∀ front ∈ entry.1.inits, ∀ c ∈ front.getLast?.toList,
      front.dropLast ≠ [] → c ∈ ['>', '=', '~', '*', '<', '!', '@', '|', '/', '&', ':'] := by decide
  have atSigns : ∀ entry ∈ signTable, ∀ front ∈ entry.1.inits, ∀ c ∈ front.getLast?.toList,
      front.dropLast ≠ [] → c = '@' → front.dropLast = ['<'] ∨ front.dropLast = ['^'] := by decide
  have colons : ∀ entry ∈ signTable, ∀ front ∈ entry.1.inits, ∀ c ∈ front.getLast?.toList,
      front.dropLast ≠ [] → c = ':' → front.dropLast = [':'] := by decide
  have alone : ∀ entry ∈ signTable, ∀ front ∈ entry.1.inits,
      front.dropLast ∉ [['('], [')'], [',']] := by decide
  obtain ⟨entry, mem, longer⟩ := List.any_eq_true.mp goesOn
  have longer : spelling ++ [c] ∈ entry.1.inits :=
    (List.mem_inits _ _).mpr (List.isPrefixOf_iff_prefix.mp longer)
  have last : c ∈ (spelling ++ [c]).getLast?.toList := by simp
  have front : (spelling ++ [c]).dropLast = spelling := List.dropLast_concat
  have nonempty : (spelling ++ [c]).dropLast ≠ [] := by rwa [front]
  refine ⟨tails _ mem _ longer c last nonempty, fun same => ?_, fun same => ?_, ?_⟩
  · exact front ▸ atSigns _ mem _ longer c last nonempty same
  · exact front ▸ colons _ mem _ longer c last nonempty same
  · exact front ▸ alone _ mem _ longer

/-- Whether a text is a sign that is read as one wherever it stands. -/
def IsSignText (spelling : List Char) (s : Sign) : Prop :=
  (∃ c ∈ spelling.head?, c ∉ specialChars ∧ c ≠ '.' ∧ isNamePart c = false) ∧
    signTable.find? (fun entry => entry.1.isPrefixOf spelling) = some (spelling, s)

instance (spelling : List Char) (s : Sign) : Decidable (IsSignText spelling s) :=
  inferInstanceAs (Decidable (_ ∧ _))

/-- The signs of the table are read as signs wherever they stand. -/
theorem isSignText_of_mem : ∀ entry ∈ signTable, IsSignText entry.1 entry.2 := by decide +kernel

theorem scan_sign (before : Before) (p : Position) {c : Char} {more rest : List Char} {s : Sign}
    (sign : IsSignText (c :: more) s) (stops : Stops (signGoesOn (c :: more)) rest)
    (dashes : c :: more = ['-'] → ¬ ['-', ' '] <+: rest)
    (comment : c :: more = ['/'] → rest.head? ≠ some '*') :
    scan before p c (more ++ rest) = .ok ⟨some (.sign s), c :: more, rest⟩ := by
  obtain ⟨⟨c, ⟨⟩, special, noPoint, noPart⟩, found⟩ := sign
  have noDigit : (c.isDigit || c = '.') = false := by
    simp only [isNamePart, Bool.or_eq_false_iff] at noPart
    simp [noPart.2, noPoint]
  have letter (cs : List Char) (part : ∀ d ∈ cs, isNamePart d = true) : c ∉ cs := fun mem =>
    Bool.noConfusion (noPart.symm.trans (part c mem))
  -- a sign of more characters goes on with none that would start a comment
  have table : ∀ entry ∈ signTable, ¬ ['-', '-'] <+: entry.1 ∧ ¬ ['/', '*'] <+: entry.1 := by decide
  obtain ⟨noDashes, noComment⟩ := table _ (List.mem_of_find?_eq_some found)
  rw [scan_plain (isGap_eq_false special) (notMem_of_special special)
    (fun mem => absurd mem (letter _ (by decide +kernel))) (fun same => absurd same noPoint)
    ?dashes ?comment, if_neg (by simp [noDigit]), ← List.cons_append, scanSign?_append found stops]
  case dashes =>
    rintro rfl starts
    cases more with
    | nil => exact dashes rfl starts
    | cons d more =>
      obtain ⟨rfl, -⟩ := List.cons_prefix_cons.mp starts
      exact noDashes ⟨more, rfl⟩
  case comment =>
    rintro rfl
    cases more with
    | nil => exact comment rfl
    | cons d more =>
      rintro ⟨⟩
      exact noComment ⟨more, rfl⟩

theorem before_sign {s : Sign} (other : s ≠ .period) : Before.of (some (.sign s)) = .other := by
  cases s <;> first | rfl | exact absurd rfl other

/-- A sign. -/
theorem readsOne_sign (before : Before) {spelling rest : List Char} {s : Sign}
    (sign : IsSignText spelling s) (other : s ≠ .period) (stops : Stops (signGoesOn spelling) rest)
    (dashes : spelling = ['-'] → ¬ ['-', ' '] <+: rest)
    (comment : spelling = ['/'] → rest.head? ≠ some '*') :
    ReadsOne before spelling (.sign s) .other rest := by
  obtain ⟨c, head, -⟩ := sign.1
  obtain ⟨more, rfl⟩ := List.head?_eq_some_iff.mp head
  rw [← before_sign other]
  exact .of_scan fun p => ⟨_, scan_sign before p sign stops dashes comment⟩

/-- A blank behind a sign is no part of it, and starts no comment. -/
theorem readsOne_sign_blank (before : Before) {spelling rest : List Char} {s : Sign}
    (sign : IsSignText spelling s) (other : s ≠ .period) :
    ReadsOne before spelling (.sign s) .other (' ' :: rest) := by
  refine readsOne_sign before sign other ?_ ?_ nofun
  · obtain ⟨c, head, -⟩ := sign.1
    rintro _ ⟨⟩
    rw [Bool.eq_false_iff]
    intro goesOn
    have nonempty : spelling ≠ [] := by
      rintro rfl
      nomatch head
    exact absurd (signGoesOn_cases nonempty goesOn).1 (by decide)
  · rintro - ⟨_, same⟩
    nomatch same

/-- A period behind a word, or in front of a character that could not start a fraction. -/
theorem readsOne_period {before : Before} {rest : List Char}
    (plain : before = .word ∨ ∀ c ∈ rest.head?, c ≠ '_' ∧ c.isDigit = false) :
    ReadsOne before ['.'] (.sign .period) .period rest := by
  refine .of_scan fun p => ⟨['.'], ?_⟩
  rw [List.nil_append]
  by_cases underscore : rest.head? = some '_'
  · obtain ⟨rest, rfl⟩ := List.head?_eq_some_iff.mp underscore
    obtain rfl | other := plain
    · rfl
    · exact absurd rfl (other '_' rfl).1
  · rw [scan_number (.inr rfl) fun _ => underscore]
    have split : ('.' :: rest).span Char.isDigit = ([], '.' :: rest) :=
      span_of_stops (by rintro c ⟨⟩; decide)
    rw [scanNumber_eq before split rfl, numberPoint_point]
    by_cases word : before = .word
    · rw [if_pos ⟨rfl, word⟩]
    · have stops : Stops Char.isDigit rest := fun c mem =>
        (plain.resolve_left word c mem).2
      rw [if_neg fun h => word h.2, numberFraction, span_of_stops stops]
      rfl

end SqlFootprint.Sql
