import SqlFootprint.Proofs.Sql.Scanning

/-! # Reading a number again

A number is read from runs of digits, with a point and an exponent between them. It goes as far as
it can, and a word may go on with its digits. So the same digits are read as the same number in
front of other characters, if these go on neither with the digits nor with an exponent. -/

namespace SqlFootprint.Sql

/-! ## Numbers -/

/-- The digits of an exponent behind its letter and sign. -/
def exponentDigits? (front cs : List Char) : Option (List Char × List Char) :=
  match cs.span Char.isDigit with
  | ([], _) => none
  | (digits, rest) => some (front ++ digits, rest)

theorem exponentDigits?_append (front : List Char) {digits rest : List Char} (some : digits ≠ [])
    (inside : ∀ c ∈ digits, c.isDigit = true) (stops : Stops Char.isDigit rest) :
    exponentDigits? front (digits ++ rest) = .some (front ++ digits, rest) := by
  unfold exponentDigits?
  rw [span_append inside stops]
  cases digits with
  | nil => exact absurd rfl some
  | cons => rfl

theorem exists_of_exponentDigits? {front cs power rest : List Char}
    (h : exponentDigits? front cs = some (power, rest)) :
    ∃ digits, digits ≠ [] ∧ (∀ c ∈ digits, c.isDigit = true) ∧ power = front ++ digits ∧
      cs = digits ++ rest := by
  unfold exponentDigits? at h
  cases found : cs.span Char.isDigit with
  | mk digits behind =>
    obtain ⟨same, inside, -⟩ := span_eq found
    rw [found] at h
    cases digits with
    | nil => nomatch h
    | cons d digits =>
      cases h
      exact ⟨_, List.cons_ne_nil _ _, inside, rfl, same⟩

theorem exponent?_cons {e : Char} {cs : List Char} (plain : cs.head? ≠ some '+')
    (plain' : cs.head? ≠ some '-') : exponent? (e :: cs) = exponentDigits? [e] cs := by
  unfold exponent?
  split
  · rename_i same
    obtain ⟨rfl, rfl⟩ := List.cons.inj same
    exact absurd rfl plain
  · rename_i same
    obtain ⟨rfl, rfl⟩ := List.cons.inj same
    exact absurd rfl plain'
  · rename_i same
    obtain ⟨rfl, rfl⟩ := List.cons.inj same
    rfl
  · rename_i same
    nomatch same

/-- An exponent is read again. -/
theorem exists_of_exponent? {cs power rest : List Char} (h : exponent? cs = some (power, rest)) :
    cs = power ++ rest ∧ power ≠ [] ∧ ∀ rest, Stops Char.isDigit rest →
      exponent? (power ++ rest) = some (power, rest) := by
  rcases cs with _ | ⟨e, cs⟩
  · nomatch h
  by_cases plus : cs.head? = some '+'
  · obtain ⟨cs, rfl⟩ := List.head?_eq_some_iff.mp plus
    obtain ⟨digits, nonempty, inside, rfl, rfl⟩ := exists_of_exponentDigits? h
    exact ⟨rfl, List.cons_ne_nil _ _, fun rest stops =>
      exponentDigits?_append [e, '+'] nonempty inside stops⟩
  by_cases minus : cs.head? = some '-'
  · obtain ⟨cs, rfl⟩ := List.head?_eq_some_iff.mp minus
    obtain ⟨digits, nonempty, inside, rfl, rfl⟩ := exists_of_exponentDigits? h
    exact ⟨rfl, List.cons_ne_nil _ _, fun rest stops =>
      exponentDigits?_append [e, '-'] nonempty inside stops⟩
  · rw [exponent?_cons plus minus] at h
    obtain ⟨digits, nonempty, inside, rfl, rfl⟩ := exists_of_exponentDigits? h
    refine ⟨rfl, List.cons_ne_nil _ _, fun rest stops => ?_⟩
    obtain ⟨d, digits, rfl⟩ := List.exists_cons_of_ne_nil nonempty
    have digit := inside d List.mem_cons_self
    refine (exponent?_cons ?_ ?_).trans (exponentDigits?_append [e] nonempty inside stops)
    · rintro ⟨⟩
      exact absurd digit (by decide)
    · rintro ⟨⟩
      exact absurd digit (by decide)

/-- A number of some digits, with the letter of a long one if that follows. -/
def numberScan (digits rest : List Char) : Scan :=
  match rest with
  | 'L' :: more => literalScan (.number (String.ofList digits) true) (digits ++ ['L']) more
  | _ => literalScan (.number (String.ofList digits) false) digits rest

theorem numberScan_plain {digits rest : List Char} (other : rest.head? ≠ some 'L') :
    numberScan digits rest = literalScan (.number (String.ofList digits) false) digits rest := by
  unfold numberScan
  split
  · exact absurd rfl other
  · rfl

/-- A number with an exponent; behind a period it is a word. -/
def powerScan (before : Before) (digits rest : List Char) : Scan :=
  if before = .period then ⟨some (.word ⟨String.ofList digits, none⟩), digits, rest⟩
  else numberScan digits rest

/-- The end of a number or of a word that starts with digits, behind the digits. -/
def numberEnd (before : Before) (digits rest : List Char) : Scan :=
  match rest with
  | c :: _ =>
    if c = 'e' || c = 'E' then
      let (digits, rest) := match exponent? rest with
        | some (power, rest) => (digits ++ power, rest)
        | none => (digits, rest)
      powerScan before digits rest
    else if isNamePart c then scanWord digits rest
    else numberScan digits rest
  | [] => numberScan digits []

/-- A number behind its point, if it has one. -/
def numberFraction (before : Before) (front rest : List Char) : Scan :=
  let (fraction, rest) := rest.span Char.isDigit
  if front ++ fraction = ['.'] then ⟨some (.sign .period), ['.'], rest⟩
  else numberEnd before (front ++ fraction) rest

/-- A number behind its first digits. -/
def numberPoint (before : Before) (whole rest : List Char) : Scan :=
  let (point, rest) : List Char × List Char :=
    match rest with
    | '.' :: rest => (['.'], rest)
    | rest => ([], rest)
  if whole ++ point = ['.'] && before = .word then ⟨some (.sign .period), ['.'], rest⟩
  else numberFraction before (whole ++ point) rest

/-- Whether hexadecimal digits follow. -/
def isHexStart (whole rest : List Char) : Bool := whole = ['0'] && rest.head? = some 'x'

theorem scanNumber_eq (before : Before) {cs whole rest : List Char}
    (split : cs.span Char.isDigit = (whole, rest)) (plain : isHexStart whole rest = false) :
    scanNumber before cs = numberPoint before whole rest := by
  unfold scanNumber
  rw [split]
  dsimp only
  split
  · nomatch plain
  · rfl

theorem scanNumber_hex (before : Before) {cs rest : List Char}
    (split : cs.span Char.isDigit = (['0'], 'x' :: rest)) : ∃ digits behind,
      rest = digits ++ behind ∧ scanNumber before cs =
        literalScan (.text .hex (String.ofList digits)) (['0', 'x'] ++ digits) behind := by
  obtain ⟨same, -, -⟩ := span_eq (rfl : rest.span isHexDigit = (_, _))
  unfold scanNumber
  rw [split]
  exact ⟨_, _, same, rfl⟩

theorem numberPoint_plain (before : Before) {whole rest : List Char} (plain : rest.head? ≠ some '.')
    (noPeriod : whole ≠ ['.']) :
    numberPoint before whole rest = numberFraction before whole rest := by
  cases rest with
  | nil => simp [numberPoint, noPeriod]
  | cons c rest =>
    have other : c ≠ '.' := fun same => plain (same ▸ rfl)
    simp [numberPoint, noPeriod, other]

theorem numberPoint_point (before : Before) {whole rest : List Char} :
    numberPoint before whole ('.' :: rest) =
      if whole = [] ∧ before = .word then ⟨some (.sign .period), ['.'], rest⟩
      else numberFraction before (whole ++ ['.']) rest := by
  unfold numberPoint
  simp

/-- The digits of a number, with the point in front of its fraction. -/
structure IsDecimal (whole point fraction : List Char) : Prop where
  /-- The digits in front of the point. -/
  wholeDigits : ∀ c ∈ whole, c.isDigit = true
  /-- The digits behind it. -/
  fractionDigits : ∀ c ∈ fraction, c.isDigit = true
  /-- There are none without a point. -/
  pointed : point = ['.'] ∨ point = [] ∧ fraction = []
  /-- There is a digit. -/
  nonempty : whole ++ fraction ≠ []

/-- What may stand behind the digits of a number. -/
structure EndsDecimal (whole point rest : List Char) : Prop where
  /-- No digit. -/
  noDigit : Stops Char.isDigit rest
  /-- No point if there is none yet. -/
  noPoint : point = [] → rest.head? ≠ some '.'
  /-- No sign of hexadecimal digits. -/
  noHex : point = [] → isHexStart whole rest = false

theorem IsDecimal.ne_point {whole point fraction : List Char}
    (decimal : IsDecimal whole point fraction) : whole ++ point ++ fraction ≠ ['.'] := by
  intro same
  cases whole with
  | nil =>
    obtain rfl | ⟨rfl, rfl⟩ := decimal.pointed
    · exact decimal.nonempty (List.cons.inj same).2
    · exact decimal.nonempty rfl
  | cons d whole =>
    obtain rfl := (List.cons.inj same).1
    exact absurd (decimal.wholeDigits '.' List.mem_cons_self) (by decide)

theorem scanNumber_decimal {before : Before} {whole point fraction rest : List Char}
    (decimal : IsDecimal whole point fraction) (ends : EndsDecimal whole point rest)
    (plain : before ≠ .word) :
    scanNumber before (whole ++ point ++ fraction ++ rest) =
      numberEnd before (whole ++ point ++ fraction) rest := by
  have behindPoint (front : List Char) (other : front ++ fraction ≠ ['.']) :
      numberFraction before front (fraction ++ rest) =
        numberEnd before (front ++ fraction) rest := by
    unfold numberFraction
    rw [span_append decimal.fractionDigits ends.noDigit]
    exact if_neg other
  have other := decimal.ne_point
  obtain rfl | ⟨rfl, rfl⟩ := decimal.pointed
  · have first : (whole ++ ['.'] ++ fraction ++ rest).span Char.isDigit =
        (whole, '.' :: (fraction ++ rest)) := by
      have point : Stops Char.isDigit ('.' :: (fraction ++ rest)) := by
        rintro c ⟨⟩
        decide
      simpa using span_append decimal.wholeDigits point
    rw [scanNumber_eq before first (by simp [isHexStart]), numberPoint_point,
      if_neg fun h => plain h.2]
    exact behindPoint _ other
  · have first : (whole ++ [] ++ [] ++ rest).span Char.isDigit = (whole, rest) := by
      simpa using span_append decimal.wholeDigits ends.noDigit
    rw [scanNumber_eq before first (ends.noHex rfl),
      numberPoint_plain before (ends.noPoint rfl) (by simpa using other)]
    simpa using behindPoint whole (by simpa using other)

/-- What is read behind the first part of a number, if it is not a period alone. -/
theorem exists_of_numberFraction {before : Before} {front behind : List Char} {s : Scan}
    (h : numberFraction before front behind = s) (other : s.token ≠ some (.sign .period)) :
    ∃ fraction tail, behind = fraction ++ tail ∧ (∀ c ∈ fraction, c.isDigit = true) ∧
      Stops Char.isDigit tail ∧ front ++ fraction ≠ ['.'] ∧
      numberEnd before (front ++ fraction) tail = s := by
  unfold numberFraction at h
  cases split : behind.span Char.isDigit with
  | mk fraction tail =>
    obtain ⟨rfl, inside, stops⟩ := span_eq split
    rw [split] at h
    dsimp only at h
    by_cases alone : front ++ fraction = ['.']
    · rw [if_pos alone] at h
      exact absurd (h ▸ rfl) other
    · rw [if_neg alone] at h
      exact ⟨fraction, tail, rfl, inside, stops, alone, h⟩

/-- A number, or a word that starts with digits, is read from its digits on. -/
theorem exists_of_scanNumber {before : Before} {c : Char} {cs : List Char} {s : Scan}
    (h : scanNumber before (c :: cs) = s) (start : c.isDigit = true ∨ c = '.')
    (other : s.token ≠ some (.sign .period))
    (noHex : ∀ digits, s.token ≠ some (.literal (.text .hex digits))) :
    ∃ whole point fraction tail, IsDecimal whole point fraction ∧ EndsDecimal whole point tail ∧
      c :: cs = whole ++ point ++ fraction ++ tail ∧
      numberEnd before (whole ++ point ++ fraction) tail = s := by
  cases split : (c :: cs).span Char.isDigit with
  | mk whole behind =>
    obtain ⟨same, inside, stops⟩ := span_eq split
    have plain : isHexStart whole behind = false := by
      rw [Bool.eq_false_iff]
      intro hex
      obtain ⟨rfl, head⟩ : whole = ['0'] ∧ behind.head? = some 'x' := by
        simpa [isHexStart] using hex
      obtain ⟨digits, rfl⟩ := List.head?_eq_some_iff.mp head
      obtain ⟨read, rest, -, found⟩ := scanNumber_hex before split
      exact noHex _ (by rw [← h, found]; rfl)
    rw [scanNumber_eq before split plain] at h
    by_cases atPoint : behind.head? = some '.'
    · obtain ⟨behind, rfl⟩ := List.head?_eq_some_iff.mp atPoint
      rw [numberPoint_point] at h
      split at h
      · exact absurd (h ▸ rfl) other
      · obtain ⟨fraction, tail, rfl, digits, ends, alone, last⟩ := exists_of_numberFraction h other
        refine ⟨whole, ['.'], fraction, tail, ⟨inside, digits, .inl rfl, fun empty => alone ?_⟩,
          ⟨ends, nofun, nofun⟩, by simpa using same, last⟩
        obtain ⟨rfl, rfl⟩ := List.append_eq_nil_iff.mp empty
        rfl
    · have noPeriod : whole ≠ ['.'] := by
        rintro rfl
        exact absurd (inside '.' List.mem_cons_self) (by decide)
      rw [numberPoint_plain before atPoint noPeriod] at h
      obtain ⟨fraction, tail, rfl, digits, ends, -, last⟩ := exists_of_numberFraction h other
      -- the first run of digits went as far as it could
      obtain rfl : fraction = [] := by
        cases fraction with
        | nil => rfl
        | cons d fraction =>
          exact absurd ((stops d rfl).symm.trans (digits d List.mem_cons_self)) nofun
      refine ⟨whole, [], [], tail, ⟨inside, nofun, .inr ⟨rfl, rfl⟩, fun empty => ?_⟩,
        ⟨ends, fun _ => atPoint, fun _ => plain⟩, by simpa using same, by simpa using last⟩
      obtain rfl : whole = [] := by simpa using empty
      obtain rfl : c :: cs = tail := by simpa using same
      obtain digit | rfl := start
      · exact absurd ((ends c rfl).symm.trans digit) nofun
      · exact atPoint rfl

/-- Whether characters start with the letter of an exponent. -/
def IsPowerStart (rest : List Char) : Prop := ∃ c ∈ rest.head?, c = 'e' ∨ c = 'E'

theorem numberEnd_power {before : Before} {digits rest power behind : List Char}
    (start : IsPowerStart rest) (found : exponent? rest = some (power, behind)) :
    numberEnd before digits rest = powerScan before (digits ++ power) behind := by
  obtain ⟨c, head, letter⟩ := start
  obtain ⟨rest, rfl⟩ := List.head?_eq_some_iff.mp head
  unfold numberEnd
  dsimp only
  rw [if_pos (by simpa using letter), found]

theorem numberEnd_letter {before : Before} {digits rest : List Char}
    (start : IsPowerStart rest) (found : exponent? rest = none) :
    numberEnd before digits rest = powerScan before digits rest := by
  obtain ⟨c, head, letter⟩ := start
  obtain ⟨rest, rfl⟩ := List.head?_eq_some_iff.mp head
  unfold numberEnd
  dsimp only
  rw [if_pos (by simpa using letter), found]

theorem numberEnd_word {before : Before} {digits rest : List Char} {c : Char}
    (head : rest.head? = some c) (part : isNamePart c = true) (other : ¬ IsPowerStart rest) :
    numberEnd before digits rest = scanWord digits rest := by
  obtain ⟨rest, rfl⟩ := List.head?_eq_some_iff.mp head
  unfold numberEnd
  dsimp only
  rw [if_neg (fun h => other ⟨c, rfl, by simpa using h⟩), if_pos part]

theorem numberEnd_stop {before : Before} {digits rest : List Char} (stops : Stops isNamePart rest) :
    numberEnd before digits rest =
      literalScan (.number (String.ofList digits) false) digits rest := by
  have plain : numberScan digits rest =
      literalScan (.number (String.ofList digits) false) digits rest :=
    numberScan_plain fun long => absurd (stops 'L' long) (by decide)
  cases rest with
  | nil => exact plain
  | cons c rest =>
    have part := stops c rfl
    unfold numberEnd
    dsimp only
    rw [if_neg, if_neg (by simp [part]), plain]
    intro letter
    obtain rfl | rfl : c = 'e' ∨ c = 'E' := by simpa using letter
    · exact absurd part (by decide)
    · exact absurd part (by decide)

theorem IsPowerStart.append {power rest other : List Char} (start : IsPowerStart (power ++ rest))
    (nonempty : power ≠ []) : IsPowerStart (power ++ other) := by
  obtain ⟨e, power, rfl⟩ := List.exists_cons_of_ne_nil nonempty
  exact start

theorem IsPowerStart.ne_long {tail : List Char} (start : IsPowerStart tail) :
    tail.head? ≠ some 'L' := by
  obtain ⟨c, head, letter⟩ := start
  rw [Option.mem_def.mp head]
  obtain rfl | rfl := letter <;> decide

/-- How a number whose digits are read may end. -/
inductive IsNumberEnd (before : Before) (digits tail : List Char) : Scan → Prop where
  /-- With an exponent. -/
  | power {power behind : List Char} (start : IsPowerStart tail)
    (found : exponent? tail = some (power, behind)) :
    IsNumberEnd before digits tail (powerScan before (digits ++ power) behind)
  /-- In front of the letter of an exponent, without digits behind it. -/
  | letter (start : IsPowerStart tail) (found : exponent? tail = none) :
    IsNumberEnd before digits tail (powerScan before digits tail)
  /-- With other letters, which make it a word. -/
  | word {c : Char} (head : tail.head? = some c) (part : isNamePart c = true)
    (other : ¬ IsPowerStart tail) : IsNumberEnd before digits tail (scanWord digits tail)
  /-- Where nothing goes on with it. -/
  | stop (stops : Stops isNamePart tail) : IsNumberEnd before digits tail
    (literalScan (.number (String.ofList digits) false) digits tail)

theorem isNumberEnd_numberEnd (before : Before) (digits tail : List Char) :
    IsNumberEnd before digits tail (numberEnd before digits tail) := by
  by_cases start : IsPowerStart tail
  · cases found : exponent? tail with
    | none => exact numberEnd_letter start found ▸ .letter start found
    | some found' => exact numberEnd_power start found ▸ .power start found
  · by_cases stops : Stops isNamePart tail
    · exact numberEnd_stop stops ▸ .stop stops
    · obtain ⟨c, goesOn⟩ := not_forall.mp stops
      obtain ⟨head, part⟩ := Classical.not_imp.mp goesOn
      have part : isNamePart c = true := Bool.not_eq_false _ ▸ part
      exact numberEnd_word head part start ▸ .word head part start

/-- The text of a number. -/
theorem exists_of_numberEnd {before : Before} {digits tail read rest : List Char} {value : String}
    {long : Bool}
    (h : numberEnd before digits tail = ⟨some (.literal (.number value long)), read, rest⟩) :
    ∃ more, read = digits ++ more ∧ (Literal.number value long).written.toList = read ∧
      tail = more ++ rest ∧ ∀ rest, Stops isNamePart rest →
        numberEnd .other digits (more ++ rest) =
          ⟨some (.literal (.number value long)), read, rest⟩ := by
  have ends := isNumberEnd_numberEnd before digits tail
  generalize numberEnd before digits tail = s at ends h
  cases ends with
  | @power power behind start found =>
    obtain ⟨rfl, nonempty, again⟩ := exists_of_exponent? found
    rw [powerScan] at h
    split at h
    · cases h
    · have power? (rest : List Char) (stops : Stops Char.isDigit rest) :
          numberEnd .other digits (power ++ rest) = numberScan (digits ++ power) rest :=
        numberEnd_power (start.append nonempty) (again rest stops)
      by_cases long : behind.head? = some 'L'
      · obtain ⟨behind, rfl⟩ := List.head?_eq_some_iff.mp long
        cases h
        refine ⟨power ++ ['L'], by simp, by simp [Literal.written], by simp, fun rest stops => ?_⟩
        have letter : Stops Char.isDigit ('L' :: rest) := by
          rintro c ⟨⟩
          decide
        rw [List.append_assoc, List.singleton_append, power? _ letter]
        rfl
      · rw [numberScan_plain long] at h
        cases h
        refine ⟨power, rfl, by simp [Literal.written], rfl, fun rest stops => ?_⟩
        rw [power? _ (stops.mono fun c digit => by simp [isNamePart, digit])]
        exact numberScan_plain fun long => absurd (stops 'L' long) (by decide)
  | letter start =>
    rw [powerScan] at h
    split at h
    · cases h
    · rw [numberScan_plain start.ne_long] at h
      cases h
      exact ⟨[], by simp, by simp [Literal.written], rfl, fun rest stops => numberEnd_stop stops⟩
  | word => cases h
  | stop =>
    cases h
    exact ⟨[], by simp, by simp [Literal.written], rfl, fun rest stops => numberEnd_stop stops⟩

/-- The text of a word that starts with digits. -/
theorem exists_of_numberEnd_word {before : Before} {digits tail read rest : List Char} {id : Ident}
    (h : numberEnd before digits tail = ⟨some (.word id), read, rest⟩) :
    id = ⟨String.ofList read, none⟩ ∧
      ((before = .period ∧ IsPowerStart rest) ∨
        ∃ more, more ≠ [] ∧ read = digits ++ more ∧ tail = more ++ rest ∧
          ∀ again, again = .period ∨ before ≠ .period → ∀ rest, Stops isNamePart rest →
            numberEnd again digits (more ++ rest) = ⟨some (.word id), read, rest⟩) := by
  have ends := isNumberEnd_numberEnd before digits tail
  generalize numberEnd before digits tail = s at ends h
  cases ends with
  | @power power behind start found =>
    obtain ⟨rfl, nonempty, next⟩ := exists_of_exponent? found
    rw [powerScan] at h
    split at h
    · rename_i period
      cases h
      refine ⟨rfl, .inr ⟨power, nonempty, rfl, rfl, fun again same rest stops => ?_⟩⟩
      obtain rfl : again = .period := same.resolve_right (not_not.mpr period)
      exact numberEnd_power (start.append nonempty)
        (next rest (stops.mono fun c digit => by simp [isNamePart, digit]))
    · unfold numberScan at h
      split at h <;> cases h
  | letter start =>
    rw [powerScan] at h
    split at h
    · rename_i period
      cases h
      exact ⟨rfl, .inl ⟨period, start⟩⟩
    · rw [numberScan_plain start.ne_long] at h
      cases h
  | @word c head part other =>
    obtain ⟨tail, rfl⟩ := List.head?_eq_some_iff.mp head
    obtain ⟨more, rfl, rfl, same, inside, stops⟩ := exists_of_scanWord h
    have nonempty : more ≠ [] := by
      rintro rfl
      obtain rfl : c :: tail = rest := same
      exact absurd ((stops c rfl).symm.trans part) Bool.false_ne_true
    refine ⟨rfl, .inr ⟨more, nonempty, rfl, same, fun again _ rest stops => ?_⟩⟩
    obtain ⟨d, more, rfl⟩ := List.exists_cons_of_ne_nil nonempty
    obtain rfl : c = d := (List.cons.inj same).1
    have noPower : ¬ IsPowerStart (c :: more ++ rest) := other
    rw [numberEnd_word rfl part noPower]
    exact scanWord_append digits inside stops
  | stop => cases h

end SqlFootprint.Sql
