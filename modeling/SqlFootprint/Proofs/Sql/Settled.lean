import SqlFootprint.Proofs.Sql.Numbers

/-! # Tokens that were read

Every step of reading gives a token of which it is known what its text is read as elsewhere
(`Token.Settled`). So the tokens of a text are known to be read again, one by one (`WereRead`). -/

namespace SqlFootprint.Sql

/-! ## One step -/

/-- No sign starts with a character that may start a name. -/
theorem scanSign?_eq_none {c : Char} {cs : List Char} (start : isNameStart c = true) :
    scanSign? (c :: cs) = none := by
  have table : ∀ entry ∈ signTable, entry.1 ≠ [] ∧ entry.1.head?.all (!isNameStart ·) := by
    decide +kernel
  unfold scanSign?
  rw [Option.map_eq_none_iff, List.find?_eq_none]
  intro entry mem found
  obtain ⟨nonempty, first⟩ := table entry mem
  obtain ⟨d, more, same⟩ := List.exists_cons_of_ne_nil nonempty
  rw [same] at first found
  obtain ⟨rfl, -⟩ : d = c ∧ _ := by simpa using found
  simp [start] at first

theorem scan_question (before : Before) (p : Position) (cs : List Char) :
    scan before p '?' cs =
      .ok (literalScan (.placeholder (String.ofList ('?' :: (cs.span Text.isNumeral).1)))
        ('?' :: (cs.span Text.isNumeral).1) (cs.span Text.isNumeral).2) := rfl

/-- The characters that start something special, wherever they stand. -/
def specialChars : List Char :=
  [' ', '\t', '\n', '\r', '\x0b', '\x0c', '\x27', '\x22', '\x60', '#', '@', '?']

theorem isGap_eq_false {c : Char} (other : c ∉ specialChars) : isGap c = false := by
  rw [Bool.eq_false_iff]
  intro gap
  refine other ?_
  simp only [isGap, Bool.or_eq_true, decide_eq_true_eq] at gap
  rcases gap with ((((rfl | rfl) | rfl) | rfl) | rfl) | rfl <;> decide

theorem notMem_of_special {c : Char} (other : c ∉ specialChars) :
    c ∉ ['\x27', '\x22', '\x60', '#', '@', '?'] :=
  fun mem => other (List.mem_append_right [' ', '\t', '\n', '\r', '\x0b', '\x0c'] mem)

/-- A property that some characters lack. -/
theorem notMem_of_forall {cs : List Char} {p : Char → Bool} {c : Char} (h : p c = true)
    (lack : ∀ d ∈ cs, p d = false) : c ∉ cs := fun mem =>
  Bool.noConfusion ((lack c mem).symm.trans h)

theorem scan_number {before : Before} {p : Position} {c : Char} {cs : List Char}
    (start : c.isDigit = true ∨ c = '.') (underscore : c = '.' → cs.head? ≠ some '_') :
    scan before p c cs = .ok (scanNumber before (c :: cs)) := by
  have start : (c.isDigit || c = '.') = true := by simpa using start
  have lacks (ds : List Char) (lack : ∀ d ∈ ds, (d.isDigit || d = '.') = false) : c ∉ ds :=
    notMem_of_forall (p := fun c => c.isDigit || c = '.') start lack
  have special : c ∉ specialChars := lacks _ (by decide)
  rw [scan_plain (isGap_eq_false special) (notMem_of_special special)
    (fun mem => absurd mem (lacks _ (by decide))) underscore
    (fun same => absurd (List.mem_singleton.mpr same) (lacks ['-'] (by decide)))
    (fun same => absurd (List.mem_singleton.mpr same) (lacks ['/'] (by decide)))]
  exact if_pos start

theorem scan_name {before : Before} {p : Position} {c : Char} {cs : List Char}
    (start : isNameStart c = true) (noDigit : ¬ (c.isDigit = true ∨ c = '.')) (other : c ≠ '@')
    (letter : c ∈ ['b', 'B', 'n', 'N', 'x', 'X'] → ∀ d ∈ cs.head?, d ≠ '\x27' ∧ d ≠ '\x22') :
    scan before p c cs = .ok (scanWord [c] cs) := by
  have start' : (isNameStart c && c ≠ '@') = true := by simp [start, other]
  have lacks (ds : List Char) (lack : ∀ d ∈ ds, (isNameStart d && d ≠ '@') = false) : c ∉ ds :=
    notMem_of_forall (p := fun c => isNameStart c && c ≠ '@') start' lack
  have special : c ∉ specialChars := lacks _ (by decide +kernel)
  rw [scan_plain (isGap_eq_false special) (notMem_of_special special) letter
    (fun same => absurd (List.mem_singleton.mpr same) (lacks ['.'] (by decide +kernel)))
    (fun same => absurd (List.mem_singleton.mpr same) (lacks ['-'] (by decide +kernel)))
    (fun same => absurd (List.mem_singleton.mpr same) (lacks ['/'] (by decide +kernel))),
    if_neg (by simpa using noDigit), scanSign?_eq_none start]
  exact if_pos start

theorem length_unescape_le (c : Char) : (unescape c).length ≤ 2 := by
  unfold unescape
  split <;> simp

/-- The value of a quoted text is shorter than what was read. -/
theorem quotedRun_length {mark : Char} {escapes : Bool} {cs : List Char} {run : QuotedRun}
    (h : quotedRun mark escapes cs = some run) : run.value.length < cs.length := by
  have behind {value read cs more : List Char} {run : QuotedRun}
      (ih : ∀ {run : QuotedRun}, quotedRun mark escapes more = some run →
        run.value.length < more.length)
      (h : (quotedRun mark escapes more).map (QuotedRun.push value read) = some run)
      (short : value.length + more.length ≤ cs.length) : run.value.length < cs.length := by
    obtain ⟨inner, found, rfl⟩ := Option.map_eq_some_iff.mp h
    have := ih found
    simp only [QuotedRun.push, List.length_append]
    omega
  fun_induction quotedRun mark escapes cs generalizing run with
  | case1 => nomatch h
  | case2 => cases h; exact Nat.zero_lt_succ _
  | case3 => nomatch h
  | case4 cs ih => exact behind ih h (by simp; omega)
  | case5 => cases h; exact Nat.zero_lt_succ _
  | case6 c d cs _ _ ih =>
    have := length_unescape_le d
    exact behind ih h (by simp only [List.length_cons]; omega)
  | case7 c d cs _ _ ih => exact behind ih h (by simp; omega)

/-- What one step of reading may be. -/
inductive IsStep (before : Before) : Char → List Char → Scan → Prop where
  /-- Blanks or a comment. -/
  | gap {c : Char} {cs read rest : List Char} : IsStep before c cs ⟨none, read, rest⟩
  /-- A text in quotes. -/
  | text {c : Char} {cs read rest : List Char} (kind : TextKind) (value : String) :
    IsStep before c cs (literalScan (.text kind value) read rest)
  /-- A name in quotes; it is shorter than what was read. -/
  | quotedName {c : Char} {cs read rest : List Char} (value : String)
    (short : value.length < cs.length) :
    IsStep before c cs ⟨some (.word ⟨value, some .backtick⟩), read, rest⟩
  /-- A sign. -/
  | sign {c : Char} {cs read rest : List Char} (s : Sign) :
    IsStep before c cs ⟨some (.sign s), read, rest⟩
  /-- A character that starts nothing else. -/
  | other {c d : Char} {cs read rest : List Char} : IsStep before c cs ⟨some (.other d), read, rest⟩
  /-- What an at sign starts. -/
  | atSign {cs : List Char} : IsStep before '@' cs (scanAt cs)
  /-- A placeholder. -/
  | placeholder {cs digits rest : List Char} (span : cs.span Text.isNumeral = (digits, rest)) :
    IsStep before '?' cs
      (literalScan (.placeholder (String.ofList ('?' :: digits))) ('?' :: digits) rest)
  /-- A number, or a word that starts with digits. -/
  | number {c : Char} {cs : List Char} (start : c.isDigit = true ∨ c = '.') :
    IsStep before c cs (scanNumber before (c :: cs))
  /-- A word. -/
  | word {c : Char} {cs : List Char} (start : isNameStart c = true)
    (noDigit : ¬ (c.isDigit = true ∨ c = '.')) (notAt : c ≠ '@') :
    IsStep before c cs (scanWord [c] cs)

theorem isStep_of_scan {before : Before} {p : Position} {c : Char} {cs : List Char} {s : Scan}
    (h : scan before p c cs = .ok s) : IsStep before c cs s := by
  have text {letters cs : List Char} {kind : TextKind} {mark : Char} {escapes : Bool}
      {c : Char} {more : List Char} (h : scanText p letters kind mark escapes cs = .ok s) :
      IsStep before c more s := by
    unfold scanText at h
    split at h <;> cases h
    exact .text _ _
  unfold scan at h
  split at h
  · cases h
    exact .gap
  split at h
  iterate 10 exact text h
  · split at h <;> cases h
    exact .quotedName _ (by rw [String.length_ofList]; exact quotedRun_length ‹_›)
  · split at h <;> cases h
    exact .sign _
  · cases h
    exact .gap
  · cases h
    exact .gap
  · split at h <;> cases h
    exact .gap
  · cases h
    exact .atSign
  · cases h
    exact .placeholder rfl
  · split at h
    · rename_i digit
      cases h
      exact .number (by simpa using digit)
    · rename_i noDigit
      split at h
      · cases h
        rename_i found
        unfold scanSign? at found
        obtain ⟨⟨spelling, s⟩, -, rfl⟩ := Option.map_eq_some_iff.mp found
        exact .sign s
      · split at h <;> cases h
        · exact .word ‹_› (by simpa using noDigit) ‹c = '@' → False›
        · exact .other

/-! ## Tokens that were read -/

/-- Whether characters start as an unquoted operand does. -/
def StartsPlain (text : List Char) : Prop := ∃ c ∈ text.head?, isNamePart c = true ∨ c = '.'

/-- What is known of a token that was read, about its text standing elsewhere: a word is read from
its text again, but for digits behind a period that a letter of an exponent stands behind. -/
def Token.Settled (before : Before) (rest : List Char) : Token → Prop
  | .word ⟨value, none⟩ => (before = .period ∧ IsPowerStart rest) ∨
      StartsPlain value.toList ∧ ∀ again, again = .period ∨ again = .other ∧ before ≠ .period →
        ReadsAs again value.toList (.word ⟨value, none⟩) goesOnWord
  | .word ⟨_, some mark⟩ => mark = .backtick
  | .literal (.number digits long) =>
      (∃ c ∈ (Literal.number digits long).written.toList.head?, c.isDigit = true ∨ c = '.') ∧
      ReadsAs .other (Literal.number digits long).written.toList (.literal (.number digits long))
        goesOnNumber
  | .literal (.placeholder name) => name.toList.head? = some '?' ∧
      ∀ before, ReadsAs before name.toList (.literal (.placeholder name)) Text.isNumeral
  | .literal (.boolean _) | .literal .null => False
  | _ => True

theorem goesOnWord_of_isNamePart {c : Char} (part : isNamePart c = true) : goesOnWord c = true := by
  simp [goesOnWord, part]

theorem EndsDecimal.append {whole point more rest other : List Char}
    (ends : EndsDecimal whole point (more ++ rest)) (nonempty : more ≠ []) :
    EndsDecimal whole point (more ++ other) := by
  obtain ⟨c, more, rfl⟩ := List.exists_cons_of_ne_nil nonempty
  exact ⟨ends.noDigit, ends.noPoint, ends.noHex⟩

theorem EndsDecimal.of_stops {whole point rest : List Char} (stops : Stops goesOnNumber rest) :
    EndsDecimal whole point rest := by
  have other {c : Char} (goesOn : goesOnNumber c = true) : rest.head? ≠ some c := fun head =>
    Bool.noConfusion ((stops c head).symm.trans goesOn)
  refine ⟨stops.mono fun c digit => by simp [goesOnNumber, isNamePart, digit],
    fun _ => other (by simp [goesOnNumber]), fun _ => ?_⟩
  have noHex : rest.head? ≠ some 'x' := other (by decide)
  simp [isHexStart, noHex]

/-- The first of the digits of a number, with the point. -/
theorem IsDecimal.exists_cons {whole point fraction : List Char}
    (decimal : IsDecimal whole point fraction) :
    ∃ c more, whole ++ point ++ fraction = c :: more ∧ (c.isDigit = true ∨ c = '.') ∧
      (c = '.' → ∃ d ∈ more.head?, d.isDigit = true) := by
  cases whole with
  | cons c whole =>
    have digit := decimal.wholeDigits c List.mem_cons_self
    refine ⟨c, whole ++ point ++ fraction, rfl, .inl digit, ?_⟩
    rintro rfl
    exact absurd digit (by decide)
  | nil =>
    obtain ⟨d, fraction, rfl⟩ := List.exists_cons_of_ne_nil decimal.nonempty
    obtain rfl | ⟨rfl, none⟩ := decimal.pointed
    · exact ⟨'.', _, rfl, .inr rfl, fun _ => ⟨d, rfl, decimal.fractionDigits d List.mem_cons_self⟩⟩
    · nomatch none

/-- Where the rest of a number is read again behind its digits, the whole of it is. -/
theorem IsDecimal.readsAs {whole point fraction more : List Char} {again : Before} {token : Token}
    {goesOn : Char → Bool} (decimal : IsDecimal whole point fraction) (plain : again ≠ .word)
    (ends : ∀ rest, Stops goesOn rest → EndsDecimal whole point (more ++ rest))
    (read : ∀ rest, Stops goesOn rest →
      numberEnd again (whole ++ point ++ fraction) (more ++ rest) =
        ⟨some token, whole ++ point ++ fraction ++ more, rest⟩) :
    ReadsAs again (whole ++ point ++ fraction ++ more) token goesOn := by
  obtain ⟨c, digits, same, start, fractional⟩ := decimal.exists_cons
  refine ⟨c, digits ++ more, by rw [same]; rfl, fun p rest stops => ?_⟩
  have underscore : c = '.' → (digits ++ more ++ rest).head? ≠ some '_' := by
    intro point
    obtain ⟨d, head, digit⟩ := fractional point
    rw [List.head?_append, List.head?_append, Option.mem_def.mp head]
    rintro ⟨⟩
    exact absurd digit (by decide)
  rw [scan_number start underscore, ← read rest stops,
    ← scanNumber_decimal decimal (ends rest stops) plain, same]
  simp

theorem startsPlain_cons {c : Char} {more : List Char} (start : isNamePart c = true ∨ c = '.') :
    StartsPlain (c :: more) := ⟨c, rfl, start⟩

/-- No quote mark stands behind the first character of a word. -/
theorem noQuote_behind {more rest : List Char} (inside : ∀ c ∈ more, isNamePart c = true)
    (stops : Stops goesOnWord rest) : ∀ d ∈ (more ++ rest).head?, d ≠ '\x27' ∧ d ≠ '\x22' := by
  have marks : ∀ d ∈ ['\x27', '\x22'], isNamePart d = false := by simp [isNamePart_ascii]
  intro d head
  cases more with
  | nil =>
    have ends := stops d head
    constructor <;> rintro rfl <;> simp [goesOnWord] at ends
  | cons e more =>
    obtain rfl : e = d := by simpa using head
    have part := inside e List.mem_cons_self
    constructor <;> rintro rfl
    · exact Bool.noConfusion (part.symm.trans (marks _ (by decide)))
    · exact Bool.noConfusion (part.symm.trans (marks _ (by decide)))

/-- A word is read again. -/
theorem settled_word {before : Before} {c : Char} {cs read rest : List Char} {id : Ident} {s : Scan}
    (step : IsStep before c cs s) (same : s = ⟨some (.word id), read, rest⟩) :
    (Token.word id).Settled before rest := by
  cases step with
  | gap => cases same
  | text => cases same
  | quotedName => cases same; rfl
  | sign => cases same
  | other => cases same
  | placeholder => cases same
  | atSign =>
    obtain ⟨more, rfl, rfl, again⟩ := exists_of_scanAt same
    dsimp only [Token.Settled]
    rw [String.toList_ofList]
    refine .inr ⟨startsPlain_cons (.inl (by decide)), fun before _ => ?_⟩
    exact ⟨'@', more, rfl, fun p rest stops => congrArg Except.ok
      (again rest (stops.mono fun _ => goesOnWord_of_isNamePart))⟩
  | number start =>
    obtain ⟨whole, point, fraction, tail, decimal, ends, -, last⟩ :=
      exists_of_scanNumber same start nofun nofun
    obtain ⟨rfl, word⟩ := exists_of_numberEnd_word last
    dsimp only [Token.Settled]
    rw [String.toList_ofList]
    obtain ⟨period, power⟩ | ⟨more, nonempty, rfl, rfl, again⟩ := word
    · exact .inl ⟨period, power⟩
    · obtain ⟨d, digits, first, starts, -⟩ := decimal.exists_cons
      refine .inr ⟨?_, fun again' same => ?_⟩
      · rw [first]
        exact startsPlain_cons (starts.imp_left fun digit => by simp [isNamePart, digit])
      · refine decimal.readsAs (by obtain rfl | ⟨rfl, -⟩ := same <;> decide)
          (fun rest _ => ends.append nonempty) fun rest stops => ?_
        exact again again' (same.imp_right And.right) rest
          (stops.mono fun _ => goesOnWord_of_isNamePart)
  | word start noDigit notAt =>
    obtain ⟨more, rfl, rfl, rfl, inside, -⟩ := exists_of_scanWord same
    dsimp only [Token.Settled]
    rw [String.toList_ofList]
    refine .inr ⟨startsPlain_cons (.inl (by simp [isNamePart, start])), fun again _ => ?_⟩
    refine ⟨_, more, rfl, fun p rest stops => ?_⟩
    rw [scan_name start noDigit notAt (fun _ => noQuote_behind inside stops),
      scanWord_append _ inside (stops.mono fun _ => goesOnWord_of_isNamePart)]

theorem scanAt_token (cs : List Char) (value : Literal) :
    (scanAt cs).token ≠ some (.literal value) := by
  unfold scanAt
  split <;> (try split) <;> nofun

theorem powerScan_token (before : Before) (digits rest : List Char) {value : Literal}
    (h : (powerScan before digits rest).token = some (.literal value)) :
    ∃ digits long, value = .number digits long := by
  unfold powerScan numberScan at h
  split at h
  · nomatch h
  · split at h <;> cases h <;> exact ⟨_, _, rfl⟩

/-- The only values read from digits on are numbers. -/
theorem numberEnd_token (before : Before) (digits rest : List Char) {value : Literal}
    (h : (numberEnd before digits rest).token = some (.literal value)) :
    ∃ digits long, value = .number digits long := by
  have ends := isNumberEnd_numberEnd before digits rest
  generalize numberEnd before digits rest = s at ends h
  cases ends with
  | power | letter => exact powerScan_token _ _ _ h
  | word => nomatch h
  | stop =>
    cases h
    exact ⟨_, _, rfl⟩

/-- A number or a placeholder is read again. -/
theorem settled_literal {before : Before} {c : Char} {cs read rest : List Char} {value : Literal}
    {s : Scan} (step : IsStep before c cs s) (same : s = ⟨some (.literal value), read, rest⟩) :
    (Token.literal value).Settled before rest := by
  cases step with
  | gap => nomatch same
  | text => cases same; trivial
  | quotedName => nomatch same
  | sign => nomatch same
  | other => nomatch same
  | word => nomatch same
  | atSign => exact absurd (congrArg Scan.token same) (scanAt_token cs value)
  | placeholder span =>
    cases same
    obtain ⟨-, inside, -⟩ := span_eq span
    dsimp only [Token.Settled]
    rw [String.toList_ofList]
    exact ⟨rfl, fun before => ⟨'?', _, rfl, fun p rest stops =>
      (scan_question before p _).trans (by rw [span_append inside stops]; rfl)⟩⟩
  | number start =>
    cases value with
    | text => trivial
    | number digits long =>
      obtain ⟨whole, point, fraction, tail, decimal, ends, -, last⟩ :=
        exists_of_scanNumber same start nofun nofun
      obtain ⟨more, rfl, written, rfl, again⟩ := exists_of_numberEnd last
      dsimp only [Token.Settled]
      rw [written]
      obtain ⟨d, digits, first, starts, -⟩ := decimal.exists_cons
      refine ⟨?_, decimal.readsAs nofun (fun rest stops => ?_) fun rest stops =>
        again rest (stops.mono fun c part => by simp [goesOnNumber, part])⟩
      · rw [first]
        exact ⟨d, rfl, starts⟩
      · cases more with
        | nil => exact .of_stops stops
        | cons => exact ends.append (List.cons_ne_nil _ _)
    | _ =>
      obtain ⟨whole, point, fraction, tail, -, -, -, last⟩ :=
        exists_of_scanNumber same start nofun nofun
      obtain ⟨_, _, number⟩ := numberEnd_token _ _ _ (congrArg Scan.token last)
      nomatch number

/-- What was read is settled. -/
theorem settled_of_scan {before : Before} {p : Position} {c : Char} {cs read rest : List Char}
    {token : Token} (h : scan before p c cs = .ok ⟨some token, read, rest⟩) :
    token.Settled before rest := by
  cases token with
  | word id => exact settled_word (isStep_of_scan h) rfl
  | literal value => exact settled_literal (isStep_of_scan h) rfl
  | sign => trivial
  | other => trivial

end SqlFootprint.Sql
