import SqlFootprint.Proofs.Sql.Settled

/-! # Token lists that were read

Each step of reading leaves fewer characters, so as many steps as there are characters read a whole
text. What is known of each token that was read is known along the whole list (`WereRead`). In the
other direction, a text is read as a list of tokens once each piece of it is read as its token
(`LexesTo`). -/

namespace SqlFootprint.Sql

/-! ## Progress -/

theorem two_suffix (c d : Char) (cs : List Char) : cs <:+ c :: d :: cs :=
  (List.suffix_cons _ _).trans (List.suffix_cons _ _)

theorem quotedRun_rest {mark : Char} {escapes : Bool} {cs : List Char} {run : QuotedRun}
    (h : quotedRun mark escapes cs = some run) : run.rest <:+ cs := by
  -- a run that reads some characters first
  have behind {value read cs more : List Char} {run : QuotedRun}
      (ih : ∀ {run : QuotedRun}, quotedRun mark escapes more = some run → run.rest <:+ more)
      (h : (quotedRun mark escapes more).map (QuotedRun.push value read) = some run)
      (suffix : more <:+ cs) : run.rest <:+ cs := by
    obtain ⟨inner, found, rfl⟩ := Option.map_eq_some_iff.mp h
    exact (ih found).trans suffix
  fun_induction quotedRun mark escapes cs generalizing run with
  | case1 => cases h
  | case2 => cases h; exact List.nil_suffix
  | case3 => cases h
  | case4 cs ih => exact behind ih h (two_suffix _ _ _)
  | case5 => cases h; exact List.suffix_cons _ _
  | case6 c d cs _ _ ih => exact behind ih h (two_suffix _ _ _)
  | case7 c d cs _ _ ih => exact behind ih h (List.suffix_cons _ _)

theorem commentRun_rest {depth : Nat} {cs read rest : List Char}
    (h : commentRun depth cs = some (read, rest)) : rest <:+ cs := by
  have behind {front : List Char × List Char → List Char × List Char}
      {found : Option (List Char × List Char)} {cs more read rest : List Char}
      (ih : ∀ {read rest : List Char}, found = some (read, rest) → rest <:+ more)
      (h : found.map front = some (read, rest)) (keeps : ∀ run, (front run).2 = run.2)
      (suffix : more <:+ cs) : rest <:+ cs := by
    obtain ⟨⟨_, _⟩, found, same⟩ := Option.map_eq_some_iff.mp h
    obtain rfl := (congrArg Prod.snd same).symm.trans (keeps _)
    exact (ih found).trans suffix
  fun_induction commentRun depth cs generalizing read rest with
  | case1 => nomatch h
  | case2 => nomatch h
  | case3 depth c d cs _ ih => exact behind ih h (fun _ => rfl) (two_suffix c d cs)
  | case4 c d cs => cases h; exact two_suffix c d cs
  | case5 c d cs _ _ n ih => exact behind ih h (fun _ => rfl) (two_suffix c d cs)
  | case6 depth c d cs _ _ ih => exact behind ih h (fun _ => rfl) (List.suffix_cons _ _)

theorem span_rest (p : Char → Bool) (cs : List Char) : (cs.span p).2 <:+ cs :=
  ⟨_, (span_eq (rfl : cs.span p = (_, _))).1.symm⟩

theorem lineRun_rest (cs : List Char) : (lineRun cs).2 <:+ cs := by
  have suffix := span_rest (· ≠ '\n') cs
  unfold lineRun
  split
  · exact List.nil_suffix
  · rename_i same
    rw [same] at suffix
    exact (List.suffix_cons _ _).trans suffix

theorem scanWord_rest (first cs : List Char) : (scanWord first cs).rest <:+ cs := span_rest _ cs

theorem scanAt_rest (cs : List Char) : (scanAt cs).rest <:+ cs := by
  unfold scanAt
  split
  · exact List.suffix_cons _ _
  · exact List.suffix_cons _ _
  · exact List.nil_suffix
  · split
    · exact List.suffix_cons _ _
    · exact (scanWord_rest _ _).trans (two_suffix _ _ _)
  · exact List.suffix_rfl
  · split
    · exact List.suffix_rfl
    · exact (scanWord_rest _ _).trans (List.suffix_cons _ _)

theorem scanText_rest {p : Position} {letters cs : List Char} {kind : TextKind} {mark : Char}
    {escapes : Bool} {s : Scan} (h : scanText p letters kind mark escapes cs = .ok s) :
    s.rest <:+ cs := by
  unfold scanText at h
  split at h <;> cases h
  exact quotedRun_rest ‹_›

theorem scanSign?_rest {c : Char} {cs : List Char} {s : Scan} (h : scanSign? (c :: cs) = some s) :
    s.rest <:+ cs := by
  have table : ∀ entry ∈ signTable, entry.1 ≠ [] := by decide
  unfold scanSign? at h
  obtain ⟨⟨spelling, sign⟩, found, rfl⟩ := Option.map_eq_some_iff.mp h
  obtain ⟨d, more, rfl⟩ := List.exists_cons_of_ne_nil (table _ (List.mem_of_find?_eq_some found))
  exact List.drop_suffix more.length cs

theorem powerScan_rest (before : Before) (digits rest : List Char) :
    (powerScan before digits rest).rest <:+ rest := by
  unfold powerScan numberScan
  split
  · exact List.suffix_rfl
  · split
    · exact List.suffix_cons _ _
    · exact List.suffix_rfl

theorem numberEnd_rest (before : Before) (digits rest : List Char) :
    (numberEnd before digits rest).rest <:+ rest := by
  have ends := isNumberEnd_numberEnd before digits rest
  generalize numberEnd before digits rest = s at ends ⊢
  cases ends with
  | power _ found => exact (powerScan_rest _ _ _).trans ⟨_, (exists_of_exponent? found).1.symm⟩
  | letter => exact powerScan_rest _ _ _
  | word => exact scanWord_rest _ _
  | stop => exact List.suffix_rfl

theorem numberFraction_rest (before : Before) (front rest : List Char) :
    (numberFraction before front rest).rest <:+ rest := by
  unfold numberFraction
  dsimp only
  split
  · exact span_rest _ _
  · exact (numberEnd_rest _ _ _).trans (span_rest _ _)

theorem scanNumber_rest (before : Before) {c : Char} {cs : List Char}
    (start : c.isDigit = true ∨ c = '.') : (scanNumber before (c :: cs)).rest <:+ cs := by
  cases split : (c :: cs).span Char.isDigit with
  | mk whole behind =>
    obtain ⟨same, inside, stops⟩ := span_eq split
    obtain _ | ⟨d, whole⟩ := whole
    · -- no digit, so a period
      obtain rfl : c :: cs = behind := same
      have noDigit : c.isDigit = false := stops c rfl
      obtain rfl : c = '.' := start.resolve_left (by simp [noDigit])
      rw [scanNumber_eq before split rfl, numberPoint_point]
      split
      · exact List.suffix_rfl
      · exact numberFraction_rest _ _ _
    · obtain ⟨rfl, rfl⟩ := List.cons.inj same
      refine List.IsSuffix.trans ?_ (List.suffix_append whole behind)
      cases plain : isHexStart (c :: whole) behind with
      | true =>
        obtain ⟨zero, head⟩ : c :: whole = ['0'] ∧ behind.head? = some 'x' := by
          simpa [isHexStart] using plain
        obtain ⟨rest, rfl⟩ := List.head?_eq_some_iff.mp head
        obtain ⟨digits, last, rfl, found⟩ := scanNumber_hex before (zero ▸ split)
        rw [found]
        exact ⟨'x' :: digits, rfl⟩
      | false =>
        rw [scanNumber_eq before split plain]
        by_cases atPoint : behind.head? = some '.'
        · obtain ⟨behind, rfl⟩ := List.head?_eq_some_iff.mp atPoint
          rw [numberPoint_point, if_neg (by simp)]
          exact (numberFraction_rest _ _ _).trans (List.suffix_cons _ _)
        · rw [numberPoint_plain before atPoint]
          · exact numberFraction_rest _ _ _
          · rintro ⟨⟩
            exact absurd (inside '.' List.mem_cons_self) (by decide)

/-- What a step leaves is an end of the characters behind its first one. -/
theorem scan_rest {before : Before} {p : Position} {c : Char} {cs : List Char} {s : Scan}
    (h : scan before p c cs = .ok s) : s.rest <:+ cs := by
  unfold scan at h
  split at h
  · cases h
    exact List.suffix_rfl
  split at h
  iterate 8 exact (scanText_rest h).trans (List.suffix_cons _ _)
  iterate 2 exact scanText_rest h
  · split at h <;> cases h
    exact quotedRun_rest ‹_›
  · split at h <;> cases h
    exact List.suffix_rfl
  · cases h
    exact lineRun_rest _
  · cases h
    exact lineRun_rest _
  · split at h <;> cases h
    exact (commentRun_rest ‹_›).trans (List.suffix_cons _ _)
  · cases h
    exact scanAt_rest _
  · cases h
    exact span_rest _ _
  · split at h
    · rename_i digit
      cases h
      exact scanNumber_rest before (by simpa using digit)
    · split at h
      · cases h
        exact scanSign?_rest ‹_›
      · split at h <;> cases h
        · exact scanWord_rest _ _
        · exact List.suffix_rfl

/-! ## Whole texts -/

/-- Characters that are read as a list of tokens, step by step. -/
inductive LexesTo : Before → Position → List Char → List Lexeme → Prop where
  /-- Nothing is left. -/
  | nil (before : Before) (p : Position) : LexesTo before p [] []
  /-- Blanks or a comment. -/
  | gap {before : Before} {p : Position} {c : Char} {cs read rest : List Char}
    {tokens : List Lexeme} (step : scan before p c cs = .ok ⟨none, read, rest⟩)
    (more : LexesTo .other (p.advance read) rest tokens) : LexesTo before p (c :: cs) tokens
  /-- A token. -/
  | token {before : Before} {p : Position} {c : Char} {cs read rest : List Char} {token : Token}
    {tokens : List Lexeme} (step : scan before p c cs = .ok ⟨some token, read, rest⟩)
    (more : LexesTo (.of (some token)) (p.advance read) rest tokens) :
    LexesTo before p (c :: cs) (⟨token, p⟩ :: tokens)

theorem lexFrom_cons {fuel : Nat} {before : Before} {p : Position} {c : Char} {cs : List Char}
    {s : Scan} (step : scan before p c cs = .ok s) :
    lexFrom (fuel + 1) before p (c :: cs) =
      (lexFrom fuel (.of s.token) (p.advance s.read) s.rest).map fun lexemes =>
        match s.token with
        | none => lexemes
        | some token => ⟨token, p⟩ :: lexemes := by
  rw [lexFrom, step]
  change Except.bind (lexFrom fuel (.of s.token) (p.advance s.read) s.rest) _ = _
  cases lexFrom fuel (.of s.token) (p.advance s.read) s.rest with
  | error e => rfl
  | ok lexemes => rfl

/-- As many steps as there are characters read all of them. -/
theorem lexesTo_of_lexFrom {fuel : Nat} {before : Before} {p : Position} {cs : List Char}
    {tokens : List Lexeme} (h : lexFrom fuel before p cs = .ok tokens) (enough : cs.length ≤ fuel) :
    LexesTo before p cs tokens := by
  induction fuel generalizing before p cs tokens with
  | zero =>
    obtain rfl := List.length_eq_zero_iff.mp (Nat.le_zero.mp enough)
    cases h
    exact .nil _ _
  | succ fuel ih =>
    cases cs with
    | nil =>
      cases h
      exact .nil _ _
    | cons c cs =>
      cases step : scan before p c cs with
      | error e =>
        rw [lexFrom, step] at h
        nomatch h
      | ok s =>
        obtain ⟨token, read, rest⟩ := s
        rw [lexFrom_cons step] at h
        cases found : lexFrom fuel (.of token) (p.advance read) rest with
        | error e =>
          rw [found] at h
          nomatch h
        | ok lexemes =>
          rw [found] at h
          have more := ih found ((scan_rest step).length_le.trans (Nat.le_of_succ_le_succ enough))
          cases token with
          | none =>
            cases h
            exact .gap step more
          | some token =>
            cases h
            exact .token step more

theorem LexesTo.lexFrom_eq {before : Before} {p : Position} {cs : List Char}
    {tokens : List Lexeme} (reads : LexesTo before p cs tokens) {fuel : Nat}
    (enough : cs.length ≤ fuel) : lexFrom fuel before p cs = .ok tokens := by
  induction reads generalizing fuel with
  | nil => cases fuel <;> rfl
  | gap step _ ih =>
    cases fuel with
    | zero => nomatch enough
    | succ fuel =>
      rw [lexFrom_cons step]
      exact congrArg _ (ih ((scan_rest step).length_le.trans (Nat.le_of_succ_le_succ enough)))
  | token step _ ih =>
    cases fuel with
    | zero => nomatch enough
    | succ fuel =>
      rw [lexFrom_cons step]
      exact congrArg (Except.map _)
        (ih ((scan_rest step).length_le.trans (Nat.le_of_succ_le_succ enough)))

/-- The tokens of a text are what it is read as step by step. -/
theorem lex_eq_ok_iff {text : String} {tokens : List Lexeme} :
    lex text = .ok tokens ↔ LexesTo .other .start text.toList tokens :=
  ⟨fun h => lexesTo_of_lexFrom h (by rw [String.length_toList]), fun h => h.lexFrom_eq (by
    rw [String.length_toList])⟩

/-! ## Tokens one behind another -/

/-- A token list as it comes from a text: each token is settled by what stood before and behind it.
A period before it is the token before; the letter of an exponent behind it starts a word. -/
inductive WereRead : Option Token → List Lexeme → Prop where
  /-- No token. -/
  | nil (previous : Option Token) : WereRead previous []
  /-- A token in front of others. -/
  | cons {previous : Option Token} {token : Token} {start : Position} {tokens : List Lexeme}
    (before : Before) (rest : List Char) (settled : token.Settled before rest)
    (period : before = .period → previous = some (.sign .period))
    (power : IsPowerStart rest →
      ∃ value, IsPowerStart value.toList ∧
        ∃ lexeme ∈ tokens.head?, lexeme.token = .word ⟨value, none⟩)
    (more : WereRead (some token) tokens) : WereRead previous (⟨token, start⟩ :: tokens)

/-- The letter of an exponent starts a word. -/
theorem LexesTo.exists_word {before : Before} {p : Position} {rest : List Char}
    {tokens : List Lexeme} (reads : LexesTo before p rest tokens) (start : IsPowerStart rest) :
    ∃ value, IsPowerStart value.toList ∧
      ∃ lexeme ∈ tokens.head?, lexeme.token = .word ⟨value, none⟩ := by
  obtain ⟨c, head, letter⟩ := start
  obtain ⟨cs, rfl⟩ := List.head?_eq_some_iff.mp head
  have word : scan before p c cs = .ok (scanWord [c] cs) :=
    scan_name (by obtain rfl | rfl := letter <;> decide) (by obtain rfl | rfl := letter <;> decide)
      (by obtain rfl | rfl := letter <;> decide)
      (by obtain rfl | rfl := letter <;> exact fun mem => absurd mem (by decide))
  cases reads with
  | gap step =>
    rw [word] at step
    nomatch step
  | token step =>
    rw [word] at step
    have same := Except.ok.inj step
    unfold scanWord at same
    cases same
    exact ⟨_, ⟨c, by simp, letter⟩, _, rfl, rfl⟩

theorem LexesTo.wereRead {before : Before} {p : Position} {cs : List Char} {tokens : List Lexeme}
    {previous : Option Token} (reads : LexesTo before p cs tokens)
    (period : before = .period → previous = some (.sign .period)) : WereRead previous tokens := by
  induction reads generalizing previous with
  | nil => exact .nil _
  | gap _ _ ih => exact ih nofun
  | @token before p c cs read rest token tokens step more ih =>
    refine .cons before rest (settled_of_scan step) period more.exists_word (ih fun isPeriod => ?_)
    unfold Before.of at isPeriod
    split at isPeriod
    · nomatch isPeriod
    · exact ‹some token = _›
    · nomatch isPeriod

/-- A name in quotes is shorter than what it is read from. -/
theorem length_lt_of_isStep {before : Before} {c : Char} {cs read rest : List Char} {word : String}
    {mark : QuoteMark} {s : Scan} (step : IsStep before c cs s)
    (same : s = ⟨some (.word ⟨word, some mark⟩), read, rest⟩) : word.length < cs.length := by
  cases step with
  | quotedName _ short => cases same; exact short
  | gap => nomatch same
  | text => nomatch same
  | sign => nomatch same
  | other => nomatch same
  | placeholder => nomatch same
  | atSign => obtain ⟨_, -, ⟨⟩, -⟩ := exists_of_scanAt same
  | number start =>
    obtain ⟨_, _, _, _, -, -, -, last⟩ := exists_of_scanNumber same start nofun nofun
    nomatch (exists_of_numberEnd_word last).1
  | word => obtain ⟨_, -, ⟨⟩, -⟩ := exists_of_scanWord same

theorem LexesTo.length_lt {before : Before} {p start : Position} {cs : List Char} {word : String}
    {mark : QuoteMark} {tokens : List Lexeme}
    (reads : LexesTo before p cs (⟨.word ⟨word, some mark⟩, start⟩ :: tokens)) :
    word.length < cs.length := by
  generalize same : Lexeme.mk (.word ⟨word, some mark⟩) start :: tokens = all at reads
  induction reads with
  | nil => nomatch same
  | gap step _ ih => exact (ih same).trans_le ((scan_rest step).length_le.trans (Nat.le_succ _))
  | token step =>
    cases same
    exact (length_lt_of_isStep (isStep_of_scan step) rfl).trans (Nat.lt_succ_self _)

end SqlFootprint.Sql
