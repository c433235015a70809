import SqlFootprint.Proofs.Sql.Rereading
import SqlFootprint.Proofs.Sql.Twins

/-! # Reading a row of places

The text of a row of places is read as tokens that spell the row again, with every text between
single quotes, as long as each place is read back on its own and no sign grows into the name behind
it. One step is one place (`readsSlot`); what stands behind it starts with one of a few characters,
so that nothing goes on with its text. -/

namespace SqlFootprint.Sql

/-! ## Places that are read back -/

/-- A text whose marks are written twice when it is quoted. -/
def IsDoubled (mark : Char) (value : String) : Prop :=
  Text.widened mark value = Text.doubled mark value

/-- A parameter that is read back from its text: a question mark with digits, or a colon with a
name or a number without quotes. -/
def IsParameter (name : String) : Prop :=
  (name.toList.head? = some '?' ∧
    ∀ before, ReadsAs before name.toList (.literal (.placeholder name)) Text.isNumeral) ∨
  ∃ parameter token goesOn, name = ":" ++ parameter ∧ token.parameterName? = some parameter ∧
    StartsPlain parameter.toList ∧ (goesOn = goesOnWord ∨ goesOn = goesOnNumber) ∧
    ReadsAs .other parameter.toList token goesOn

namespace Slot

/-- The place with a text between single quotes. -/
def singleQuoted : Slot → Slot
  | value literal => value literal.singleQuoted
  | other => other

/-- What a token finds before it, directly behind the text of a place. -/
def after : Slot → Before
  | part ⟨_, some .single⟩ => .other
  | name _ | part _ | value (.boolean _) | value .null | truth _ | not => .word
  | period => .period
  | _ => .other

/-- Whether the text of a place is read back as the place. -/
def IsReadable : Slot → Prop
  | name ⟨word, none⟩ => Ident.keyword ⟨word, none⟩ ≠ "INTERVAL" ∧ StartsPlain word.toList ∧
      ReadsAs .other word.toList (.word ⟨word, none⟩) goesOnWord
  | name ⟨word, some mark⟩ => mark = .backtick ∧ IsDoubled '\x60' word
  | part ⟨word, none⟩ => Ident.keyword ⟨word, none⟩ ≠ "INTERVAL" ∧
      ReadsAs .period word.toList (.word ⟨word, none⟩) goesOnWord
  | part ⟨word, some .backtick⟩ => IsDoubled '\x60' word
  | part ⟨word, some .single⟩ => IsDoubled '\x27' word ∧ '\\' ∉ word.toList
  | part ⟨_, some .double⟩ => False
  | value (.number digits long) =>
      (∃ c ∈ (Literal.number digits long).written.toList.head?, c.isDigit = true ∨ c = '.') ∧
      ReadsAs .other (Literal.number digits long).written.toList (.literal (.number digits long))
        goesOnNumber
  | value (.text .single text) | value (.text .double text) | value (.text .national text) =>
      '\\' ∉ text.toList
  | value (.text .hex digits) => '\x27' ∉ digits.toList ∧ '\\' ∉ digits.toList
  | value (.text .bits digits) => '\x27' ∉ digits.toList
  | value (.text .doubleBits digits) => '\x22' ∉ digits.toList
  | value (.placeholder parameter) => IsParameter parameter
  | _ => True

/-- Whether a place may be written directly behind another: an at sign makes some signs longer, and
a query is taken for one behind a parenthesis. -/
def Apart : Slot → Slot → Prop
  | binary .lt, name ⟨word, none⟩ | binary .bitXor, name ⟨word, none⟩ =>
      word.toList.head? ≠ some '@'
  | leftParen, name id => id.keyword ∉ ["SELECT", "WITH"]
  | _, _ => True

theorem Apart.opens {x y : Slot} (apart : x.Apart y) : x.Opens y := by
  cases x with
  | leftParen =>
    cases y with
    | name id => exact apart
    | _ => trivial
  | _ => trivial

end Slot

/-- No period stands between a name part in single quotes and one that starts like a fraction. -/
def KeepsPeriods (slots : List Slot) : Prop :=
  ∀ value other, [.part ⟨value, some .single⟩, .period, .part ⟨other, none⟩] <:+: slots →
    ∀ c ∈ other.toList.head?, c ≠ '_' ∧ c.isDigit = false

theorem KeepsPeriods.tail {x : Slot} {slots : List Slot} (keeps : KeepsPeriods (x :: slots)) :
    KeepsPeriods slots := fun value other inside =>
  keeps value other (inside.trans (List.suffix_cons x slots).isInfix)

/-! ## The characters behind a place -/

/-- The characters that may stand behind an operand. -/
def behindChars : List Char :=
  ['=', '!', '<', '>', '+', '-', '*', '/', '%', '&', '|', '^', ' ', ')', ',']

/-- Whether an operand may start with a character; a minus sign apart. -/
def isOperandChar (c : Char) : Bool :=
  isNamePart c || ['.', '\x27', '\x60', '(', '+', '?', ':'].contains c

namespace Slot

variable {x y : Slot} {slots : List Slot}

theorem head_of_isBehind (behind : y.IsBehind) : ∃ c ∈ y.text.toList.head?, c ∈ behindChars := by
  cases y with
  | binary op => cases op <;> exact ⟨_, rfl, by decide⟩
  | is | not | isIn | between | like | rightParen | comma => exact ⟨_, rfl, by decide⟩
  | _ => exact behind.elim

/-- A row starts with the first character of its first place. -/
theorem eq_of_mem_head? {c d : Char} (first : c ∈ y.text.toList.head?)
    (head : d ∈ (rowText (y :: slots)).head?) : c = d := by
  rw [rowText_cons, List.head?_append, Option.mem_def.mp first] at head
  exact Option.some.inj head

/-- The characters behind an operand. -/
theorem stops_of_isEnd (ends : x.IsEnd) (chain : (x :: slots).IsChain Precedes)
    {goesOn : Char → Bool} (behind : ∀ c ∈ behindChars, goesOn c = false)
    (point : x.IsName → goesOn '.' = false) : Stops goesOn (rowText slots) := by
  intro c head
  cases slots with
  | nil => nomatch head
  | cons y slots =>
    have precedes := (List.isChain_cons_cons.mp chain).1
    by_cases period : y = .period
    · subst period
      obtain rfl : '.' = c := Option.some.inj head
      refine point ?_
      cases x with
      | name | part => trivial
      | value | truth | rightParen => exact (precedes : IsBehind .period).elim
      | _ => exact ends.elim
    · obtain ⟨d, first, mem⟩ := head_of_isBehind ((ends.behind precedes).resolve_right period)
      obtain rfl := eq_of_mem_head? first head
      exact behind d mem

theorem head_doubled (mark : Char) (value : String) :
    (Text.doubled mark value).toList.head? = some mark := by
  simp [Text.doubled]

theorem head_widened (mark : Char) (value : String) :
    (Text.widened mark value).toList.head? = some mark := by
  simp [Text.widened]

theorem isOperandChar_of_isNamePart {c : Char} (part : isNamePart c = true ∨ c = '.') :
    isOperandChar c = true := by
  obtain part | rfl := part
  · simp [isOperandChar, part]
  · simp [isOperandChar]

/-- The first character of a value; an at sign starts none. -/
theorem head_of_value {literal : Literal} (readable : (value literal).IsReadable) :
    ∃ c ∈ literal.compact.toList.head?, isOperandChar c = true ∧ c ≠ '@' := by
  have at? : ∀ c ∈ ['\x27', 'X', 'B', 'T', 'F', 'N', '?', ':'],
      isOperandChar c = true ∧ c ≠ '@' := by simp [isOperandChar, isNamePart_ascii]
  cases literal with
  | number digits long =>
    obtain ⟨⟨c, head, start⟩, -⟩ := readable
    refine ⟨c, head, isOperandChar_of_isNamePart (start.imp_left fun digit => by
      simp [isNamePart, digit]), ?_⟩
    rintro rfl
    revert start
    decide
  | text kind value =>
    cases kind with
    | single | double | national => exact ⟨'\x27', head_doubled _ _, at? _ (by decide)⟩
    | hex =>
      exact ⟨'X', by simp [Literal.compact, Literal.written, TextKind.written], at? _ (by decide)⟩
    | bits | doubleBits =>
      exact ⟨'B', by simp [Literal.compact, Literal.written, TextKind.written], at? _ (by decide)⟩
  | boolean b => cases b <;> exact ⟨_, rfl, at? _ (by decide)⟩
  | null => exact ⟨_, rfl, at? _ (by decide)⟩
  | placeholder name =>
    obtain ⟨head, -⟩ | ⟨_, _, _, rfl, -⟩ := readable
    · exact ⟨'?', head, at? _ (by decide)⟩
    · exact ⟨':', by simp [Literal.compact, Literal.written], at? _ (by decide)⟩

/-- The first character of an operand; an at sign starts only a name. -/
theorem head_of_isStart (starts : y.IsStart) (readable : y.IsReadable) :
    ∃ c ∈ y.text.toList.head?, (isOperandChar c = true ∨ y = .unary .minus ∧ c = '-') ∧
      (c = '@' → ∃ word, y = name ⟨word, none⟩) := by
  cases y with
  | name id =>
    obtain ⟨word, _ | mark⟩ := id
    · obtain ⟨c, head, part⟩ := readable.2.1
      exact ⟨c, head, .inl (isOperandChar_of_isNamePart part), fun _ => ⟨word, rfl⟩⟩
    · obtain ⟨rfl, -⟩ := readable
      exact ⟨'\x60', head_widened _ _, .inl (by simp [isOperandChar]), nofun⟩
  | value literal =>
    obtain ⟨c, head, operand, other⟩ := head_of_value readable
    exact ⟨c, head, .inl operand, fun same => absurd same other⟩
  | unary op =>
    cases op with
    | not => exact ⟨'N', rfl, .inl (by simp [isOperandChar, isNamePart_ascii]), nofun⟩
    | minus => exact ⟨'-', rfl, .inr ⟨rfl, rfl⟩, nofun⟩
    | plus => exact ⟨'+', rfl, .inl (by simp [isOperandChar]), nofun⟩
  | leftParen => exact ⟨'(', rfl, .inl (by simp [isOperandChar]), nofun⟩
  | _ => exact starts.elim

theorem IsStart.not_isBehind (starts : y.IsStart) : ¬ y.IsBehind := by
  cases y with
  | name | value | unary | leftParen => exact id
  | _ => exact starts.elim

/-- An operand starts behind a sign, a word with its blank, or a parenthesis. -/
theorem after_eq_other (precedes : x.Precedes y) (starts : y.IsStart) : x.after = .other := by
  cases x with
  | name | part =>
    obtain behind | rfl := precedes
    · exact absurd behind starts.not_isBehind
    · exact starts.elim
  | value | truth | rightParen => exact absurd precedes starts.not_isBehind
  | period =>
    obtain ⟨id, rfl⟩ := precedes
    exact starts.elim
  | not => obtain rfl | rfl | rfl := precedes <;> exact starts.elim
  | _ => rfl

/-- The first character of an operand behind a place. -/
theorem head_of_operand (front : ∀ z, x.Precedes z → z.IsStart)
    (chain : (x :: slots).IsChain Precedes) (readable : ∀ z ∈ slots, z.IsReadable) {c : Char}
    (head : c ∈ (rowText slots).head?) :
    (isOperandChar c = true ∨ slots.head? = some (.unary .minus) ∧ c = '-') ∧
      (c = '@' →
        ∃ word, slots.head? = some (name ⟨word, none⟩) ∧ word.toList.head? = some '@') := by
  cases slots with
  | nil => nomatch head
  | cons y slots =>
    obtain ⟨d, first, operand, named⟩ :=
      head_of_isStart (front y (List.isChain_cons_cons.mp chain).1) (readable y List.mem_cons_self)
    obtain rfl := eq_of_mem_head? first head
    refine ⟨operand.imp_right fun ⟨minus, dash⟩ => ⟨congrArg some minus, dash⟩, fun same => ?_⟩
    obtain ⟨word, rfl⟩ := named same
    exact ⟨word, rfl, same ▸ first⟩

/-- No operand goes on with a sign but with an at sign, and that only with two of them. -/
theorem stops_sign (front : ∀ z, x.Precedes z → z.IsStart) (chain : (x :: slots).IsChain Precedes)
    (readable : ∀ z ∈ slots, z.IsReadable) {spelling : List Char} (nonempty : spelling ≠ [])
    (noColon : spelling ≠ [':']) (noAt : spelling = ['<'] ∨ spelling = ['^'] →
      ∀ word, slots.head? = some (name ⟨word, none⟩) → word.toList.head? ≠ some '@') :
    Stops (signGoesOn spelling) (rowText slots) := by
  have tails : ∀ c ∈ ['>', '=', '~', '*', '<', '!', '@', '|', '/', '&', ':'],
      c = '@' ∨ c = ':' ∨ isOperandChar c = false ∧ c ≠ '-' := by
    simp [isOperandChar, isNamePart_ascii]
  intro c head
  rw [Bool.eq_false_iff]
  intro goesOn
  obtain ⟨mem, isAt, isColon, -⟩ := signGoesOn_cases nonempty goesOn
  obtain ⟨operand, named⟩ := head_of_operand front chain readable head
  obtain rfl | rfl | ⟨noChar, noDash⟩ := tails c mem
  · obtain ⟨word, first, starts⟩ := named rfl
    exact noAt (isAt rfl) word first starts
  · exact noColon (isColon rfl)
  · obtain isChar | ⟨-, isDash⟩ := operand
    · exact Bool.noConfusion (noChar.symm.trans isChar)
    · exact noDash isDash

/-- No comment starts behind a minus sign. -/
theorem no_dashes (front : ∀ z, x.Precedes z → z.IsStart) (chain : (x :: slots).IsChain Precedes)
    (readable : ∀ z ∈ slots, z.IsReadable) : ¬ ['-', ' '] <+: rowText slots := by
  have plain : isOperandChar '-' = false ∧ isOperandChar ' ' = false := by
    simp [isOperandChar, isNamePart_ascii]
  rintro ⟨rest, same⟩
  have head : '-' ∈ (rowText slots).head? := by
    rw [← same]
    rfl
  obtain isChar | ⟨minus, -⟩ := (head_of_operand front chain readable head).1
  · exact Bool.noConfusion (plain.1.symm.trans isChar)
  · -- behind the second minus sign an operand starts, and no blank
    obtain ⟨slots, rfl⟩ := List.head?_eq_some_iff.mp minus
    have text : ' ' :: rest = rowText slots := (List.cons.inj same).2
    have behind : ' ' ∈ (rowText slots).head? := by
      rw [← text]
      rfl
    have frontMinus : ∀ z, (unary .minus).Precedes z → z.IsStart := fun _ starts => starts
    obtain isChar | ⟨-, isDash⟩ := (head_of_operand frontMinus (List.isChain_cons_cons.mp chain).2
      (fun z mem => readable z (List.mem_cons_of_mem _ mem)) behind).1
    · exact Bool.noConfusion (plain.2.symm.trans isChar)
    · exact absurd isDash (by decide)

/-! ## Reading one place -/

end Slot

/-- What a token may find before it, directly behind a place: a parameter ends with a word or with a
number. -/
def Slot.Leaves (x : Slot) (after : Before) : Prop :=
  after = x.after ∨ after = .word ∧ ∃ parameter, x = .value (.placeholder parameter)

/-- In front of some characters, the text of a place is read as tokens that spell the place. -/
def ReadsSlot (before : Before) (x : Slot) (rest : List Char) : Prop :=
  ∀ p, ∃ used stop after, x.Leaves after ∧ Spells [x.singleQuoted] used ∧ ∀ tokens,
    LexesTo after stop rest tokens → LexesTo before p (x.text.toList ++ rest) (used ++ tokens)

theorem ReadsOne.slot {before : Before} {x : Slot} {token : Token} {rest : List Char}
    (reads : ReadsOne before x.text.toList token x.after rest) (fits : x.singleQuoted.Fits token) :
    ReadsSlot before x rest := fun p =>
  have ⟨start, stop, more⟩ := reads p
  ⟨[⟨token, start⟩], stop, x.after, .inl rfl, .singleton fits start, more⟩

namespace Slot

variable {x y : Slot} {slots : List Slot} {before : Before}

theorem stops_word (ends : x.IsEnd) (chain : (x :: slots).IsChain Precedes) :
    Stops goesOnWord (rowText slots) :=
  stops_of_isEnd ends chain (by simp [behindChars, goesOnWord, isNamePart_ascii]) fun _ => by
    simp [goesOnWord, isNamePart_ascii]

theorem stops_number {literal : Literal} (chain : (value literal :: slots).IsChain Precedes) :
    Stops goesOnNumber (rowText slots) := by
  have ends : (value literal).IsEnd := trivial
  exact stops_of_isEnd ends chain (by simp [behindChars, goesOnNumber, isNamePart_ascii]) False.elim

theorem head_ne_mark (ends : x.IsEnd) (chain : (x :: slots).IsChain Precedes) (mark : Char)
    (quotes : mark ∈ ['\x27', '\x22', '\x60']) : (rowText slots).head? ≠ some mark := by
  have other : ∀ mark ∈ ['\x27', '\x22', '\x60'], (∀ c ∈ behindChars, (c == mark) = false) ∧
      ('.' == mark) = false := by decide
  obtain ⟨behind, point⟩ := other mark quotes
  have stops : Stops (· == mark) (rowText slots) :=
    stops_of_isEnd ends chain behind fun _ => point
  intro head
  simpa using stops mark head

theorem readsOne_widened (before : Before) {word : String} (doubled : IsDoubled '\x60' word)
    {rest : List Char} (behind : rest.head? ≠ some '\x60') :
    ReadsOne before (Text.widened '\x60' word).toList (.word ⟨word, some .backtick⟩) .word
      rest := by
  rw [doubled]
  exact readsOne_backtick before behind

/-- A name. -/
theorem readsSlot_name {id : Ident} (chain : (name id :: slots).IsChain Precedes)
    (readable : (name id).IsReadable) : ReadsSlot .other (name id) (rowText slots) := by
  have ends : (name id).IsEnd := trivial
  obtain ⟨word, _ | mark⟩ := id
  · obtain ⟨free, -, reads⟩ := readable
    exact ReadsOne.slot (.of_readsAs reads (stops_word ends chain)) (.name _ free)
  · obtain ⟨rfl, doubled⟩ := readable
    have free : Ident.keyword ⟨word, some .backtick⟩ ≠ "INTERVAL" := show "" ≠ _ by decide
    have reads := readsOne_widened .other doubled (head_ne_mark ends chain '\x60' (by decide))
    exact ReadsOne.slot reads (.name _ free)

/-- A part of a name. -/
theorem readsSlot_part {id : Ident} (chain : (part id :: slots).IsChain Precedes)
    (readable : (part id).IsReadable) : ReadsSlot .period (part id) (rowText slots) := by
  have ends : (part id).IsEnd := trivial
  obtain ⟨word, _ | mark⟩ := id
  · obtain ⟨free, reads⟩ := readable
    exact ReadsOne.slot (.of_readsAs reads (stops_word ends chain)) (.part _ free)
  · cases mark with
    | double => exact readable.elim
    | backtick =>
      have free : Ident.keyword ⟨word, some .backtick⟩ ≠ "INTERVAL" := show "" ≠ _ by decide
      have reads := readsOne_widened .period readable
        (head_ne_mark ends chain '\x60' (by decide))
      exact ReadsOne.slot reads (.part _ free)
    | single =>
      obtain ⟨doubled, plain⟩ := readable
      have reads := readsOne_single .period plain (head_ne_mark ends chain '\x27' (by decide))
      rw [← doubled] at reads
      exact ReadsOne.slot reads (.quotedPart word)

/-- The word of a place is read as a word that spells it. -/
theorem readsOne_keyword (before : Before) (is : y.keyword ≠ "") {rest : List Char}
    (stops : Stops goesOnWord rest) :
    ReadsOne before y.keyword.toList (.word ⟨y.keyword, none⟩) .word rest ∧
      y.singleQuoted.Fits (.word ⟨y.keyword, none⟩) := by
  have words : ∀ word ∈ placeWords,
      word.toList.all Char.isUpper = true ∧ Ident.keyword ⟨word, none⟩ = word := by decide +kernel
  obtain ⟨capitals, same⟩ := words _ (keyword_mem_placeWords is)
  have fixed : y.singleQuoted = y := by
    cases y with
    | value literal =>
      cases literal with
      | text => exact absurd rfl is
      | _ => rfl
    | _ => rfl
  have nonempty : y.keyword.toList ≠ [] := fun empty => is (String.toList_eq_nil_iff.mp empty)
  have reads := readsOne_capitals before nonempty capitals stops
  rw [String.ofList_toList] at reads
  exact ⟨reads, fixed.symm ▸ .word same (same.symm ▸ is)⟩

theorem stops_blank (rest : List Char) : Stops goesOnWord (' ' :: rest) := by
  rintro _ ⟨⟩
  simp [goesOnWord, isNamePart_ascii]

/-- A word alone. -/
theorem readsSlot_keyword (is : y.keyword ≠ "") (text : y.text.toList = y.keyword.toList)
    (after : y.after = .word) {rest : List Char} (stops : Stops goesOnWord rest) :
    ReadsSlot before y rest := by
  obtain ⟨reads, fits⟩ := readsOne_keyword before is stops
  rw [← text, ← after] at reads
  exact ReadsOne.slot reads fits

/-- A word behind a blank. -/
theorem readsSlot_blank (is : y.keyword ≠ "") (text : y.text.toList = ' ' :: y.keyword.toList)
    (after : y.after = .word) {rest : List Char} (stops : Stops goesOnWord rest) :
    ReadsSlot before y rest := by
  obtain ⟨reads, fits⟩ := readsOne_keyword _ is stops
  have reads : ReadsOne before _ _ .word rest := reads.blank_cons
  rw [← text, ← after] at reads
  exact ReadsOne.slot reads fits

/-- A word in front of a blank. -/
theorem readsSlot_append_blank (is : y.keyword ≠ "")
    (text : y.text.toList = y.keyword.toList ++ [' ']) (after : y.after = .other)
    (rest : List Char) : ReadsSlot before y rest := by
  obtain ⟨reads, fits⟩ := readsOne_keyword before is (stops_blank rest)
  have reads := reads.append_blank
  rw [← text, ← after] at reads
  exact ReadsOne.slot reads fits

/-- A word between blanks. -/
theorem readsSlot_blanks (is : y.keyword ≠ "")
    (text : y.text.toList = ' ' :: (y.keyword.toList ++ [' '])) (after : y.after = .other)
    (rest : List Char) : ReadsSlot before y rest := by
  obtain ⟨reads, fits⟩ := readsOne_keyword _ is (stops_blank rest)
  have reads : ReadsOne before _ _ .other rest := reads.blanks
  rw [← text, ← after] at reads
  exact ReadsOne.slot reads fits

/-- A parameter. -/
theorem readsSlot_parameter {parameter : String}
    (chain : (value (.placeholder parameter) :: slots).IsChain Precedes)
    (readable : IsParameter parameter) :
    ReadsSlot .other (value (.placeholder parameter)) (rowText slots) := by
  have ends : (value (.placeholder parameter)).IsEnd := trivial
  obtain ⟨-, reads⟩ | ⟨name, token, goesOn, rfl, names, starts, kind, reads⟩ := readable
  · have stops : Stops Text.isNumeral (rowText slots) :=
      stops_of_isEnd ends chain (by decide) False.elim
    exact ReadsOne.slot (.of_readsAs (reads .other) stops) (.value _)
  · have stops : Stops goesOn (rowText slots) := by
      obtain rfl | rfl := kind
      · exact stops_word ends chain
      · exact stops_number chain
    -- the name starts with no character that makes a colon longer
    have alone : Stops (signGoesOn [':']) (name.toList ++ rowText slots) := by
      have tails : ∀ c ∈ ['>', '=', '~', '*', '<', '!', '@', '|', '/', '&', ':'],
          c = '@' ∨ isNamePart c = false ∧ c ≠ '.' := by simp [isNamePart_ascii]
      obtain ⟨c, head, part⟩ := starts
      rw [Stops, List.head?_append, Option.mem_def.mp head]
      rintro _ ⟨⟩
      rw [Bool.eq_false_iff]
      intro goesOn
      obtain ⟨mem, isAt, -⟩ := signGoesOn_cases (List.cons_ne_nil _ _) goesOn
      obtain same | ⟨noPart, noPoint⟩ := tails c mem
      · exact absurd (isAt same) (by decide)
      · obtain isPart | isPoint := part
        · exact Bool.noConfusion (noPart.symm.trans isPart)
        · exact noPoint isPoint
    obtain ⟨c, more, same, step⟩ := reads
    intro p
    have colon : scan .other p ':' ([] ++ (name.toList ++ rowText slots)) =
        .ok ⟨some (.sign .colon), [':'], name.toList ++ rowText slots⟩ :=
      scan_sign .other p (isSignText_of_mem ([':'], .colon) (by decide)) alone
        (fun same => absurd same (by decide)) fun same => absurd same (by decide)
    have leaves : (value (.placeholder (":" ++ name))).Leaves (.of (some token)) := by
      cases token with
      | word => exact .inr ⟨rfl, _, rfl⟩
      | literal => exact .inl rfl
      | sign | other => cases names
    refine ⟨[⟨.sign .colon, p⟩, ⟨token, p.advance [':']⟩], (p.advance [':']).advance (c :: more), _,
      leaves, .parameter (.inl rfl) names .nil, fun tokens last => ?_⟩
    have text : (value (.placeholder (":" ++ name))).text.toList = ':' :: name.toList := by
      simp [text, Literal.compact, Literal.written]
    rw [text]
    refine .token colon ?_
    rw [same]
    exact .token (same ▸ step (p.advance [':']) (rowText slots) stops) last

/-- A value. -/
theorem readsSlot_value {literal : Literal} (chain : (value literal :: slots).IsChain Precedes)
    (readable : (value literal).IsReadable) : ReadsSlot .other (value literal) (rowText slots) := by
  have ends : (value literal).IsEnd := trivial
  cases literal with
  | number digits long =>
    exact ReadsOne.slot (.of_readsAs readable.2 (stops_number chain)) (.value _)
  | text kind word =>
    have behind (mark : Char) (quotes : mark ∈ ['\x27', '\x22', '\x60']) :
        (rowText slots).head? ≠ some mark := head_ne_mark ends chain mark quotes
    cases kind with
    | single | double | national =>
      exact ReadsOne.slot (readsOne_single .other readable (behind _ (by decide))) (.value _)
    | hex =>
      have step (p cs) :
          scan .other p 'X' ('\x27' :: cs) = scanText p ['X'] .hex '\x27' true cs := rfl
      refine ReadsOne.slot ?_ (.value _)
      rw [show (value (.text .hex word)).text.toList = 'X' :: '\x27' :: (word.toList ++ ['\x27']) by
        simp [text, Literal.compact, Literal.written, TextKind.written]]
      exact readsOne_letter step readable.1 (fun _ => readable.2) (behind _ (by decide))
    | bits =>
      have step (p cs) :
          scan .other p 'B' ('\x27' :: cs) = scanText p ['B'] .bits '\x27' false cs := rfl
      refine ReadsOne.slot ?_ (.value _)
      rw [show (value (.text .bits word)).text.toList =
          'B' :: '\x27' :: (word.toList ++ ['\x27']) by
        simp [text, Literal.compact, Literal.written, TextKind.written]]
      exact readsOne_letter step readable (fun h => absurd h (by decide)) (behind _ (by decide))
    | doubleBits =>
      have step (p cs) :
          scan .other p 'B' ('\x22' :: cs) = scanText p ['B'] .doubleBits '\x22' false cs :=
        rfl
      refine ReadsOne.slot ?_ (.value _)
      rw [show (value (.text .doubleBits word)).text.toList =
        'B' :: '\x22' :: (word.toList ++ ['\x22']) by
          simp [text, Literal.compact, Literal.written, TextKind.written]]
      exact readsOne_letter step readable (fun h => absurd h (by decide)) (behind _ (by decide))
  | boolean b =>
    cases b <;> exact readsSlot_keyword (by decide) rfl rfl (stops_word ends chain)
  | null => exact readsSlot_keyword (by decide) rfl rfl (stops_word ends chain)
  | placeholder parameter => exact readsSlot_parameter chain readable

/-- A sign that stands close to its operands. -/
theorem readsSlot_sign (front : ∀ z, x.Precedes z → z.IsStart)
    (chain : (x :: slots).IsChain Precedes) (readable : ∀ z ∈ slots, z.IsReadable)
    (after : x.after = .other) {s : Sign} (sign : IsSignText x.text.toList s)
    (other : s ≠ .period ∧ s ≠ .colon) (fits : x.singleQuoted.Fits (.sign s))
    (noAt : x.text.toList = ['<'] ∨ x.text.toList = ['^'] →
      ∀ word, slots.head? = some (name ⟨word, none⟩) → word.toList.head? ≠ some '@') :
    ReadsSlot before x (rowText slots) := by
  have nonempty : x.text.toList ≠ [] := by
    obtain ⟨⟨c, head, -⟩, -⟩ := sign
    intro empty
    rw [empty] at head
    nomatch head
  have noColon : x.text.toList ≠ [':'] := by
    intro colon
    have entry :
        signTable.find? (fun entry => entry.1.isPrefixOf [':']) = some ([':'], .colon) := by
      decide
    rw [colon] at sign
    exact other.2 (Prod.mk.inj (Option.some.inj (sign.2.symm.trans entry))).2
  have noStar : (rowText slots).head? ≠ some '*' := by
    intro head
    have plain : isOperandChar '*' = false := by simp [isOperandChar, isNamePart_ascii]
    obtain isChar | ⟨-, isDash⟩ := (head_of_operand front chain readable head).1
    · exact Bool.noConfusion (plain.symm.trans isChar)
    · exact absurd isDash (by decide)
  have reads := readsOne_sign before sign other.1
    (stops_sign front chain readable nonempty noColon noAt)
    (fun _ => no_dashes front chain readable) fun _ => noStar
  rw [← after] at reads
  exact ReadsOne.slot reads fits

/-- A sign between blanks. -/
theorem readsSlot_apart {spelling rest : List Char} {s : Sign}
    (text : x.text.toList = ' ' :: (spelling ++ [' '])) (after : x.after = .other)
    (reads : ReadsOne .other spelling (.sign s) .other (' ' :: rest))
    (fits : x.singleQuoted.Fits (.sign s)) : ReadsSlot before x rest := by
  have reads : ReadsOne before _ _ .other rest := reads.blanks
  rw [← text, ← after] at reads
  exact ReadsOne.slot reads fits

/-- An operator between its operands. -/
theorem readsSlot_binary {op : BinaryOp} (chain : (binary op :: slots).IsChain Precedes)
    (apart : (binary op :: slots).IsChain Apart) (readable : ∀ z ∈ slots, z.IsReadable) :
    ReadsSlot before (binary op) (rowText slots) := by
  have noAt {op : BinaryOp} (apart : (binary op :: slots).IsChain Apart)
      (at? : op = .lt ∨ op = .bitXor) (word : String)
      (head : slots.head? = some (name ⟨word, none⟩)) : word.toList.head? ≠ some '@' := by
    obtain ⟨slots, rfl⟩ := List.head?_eq_some_iff.mp head
    obtain rfl | rfl := at? <;> exact (List.isChain_cons_cons.mp apart).1
  have close (entry : (op.compact.toList, op.sign) ∈ signTable)
      (other : op.sign ≠ .period ∧ op.sign ≠ .colon)
      (has : Parser.signOp? op.sign = some op)
      (noAt : op.compact.toList = ['<'] ∨ op.compact.toList = ['^'] →
        ∀ word, slots.head? = some (name ⟨word, none⟩) → word.toList.head? ≠ some '@') :
      ReadsSlot before (binary op) (rowText slots) :=
    readsSlot_sign (fun _ starts => starts) chain readable rfl (isSignText_of_mem _ entry)
      other (.sign has) noAt
  have spaced (text : op.compact.toList = ' ' :: (op.written.toList ++ [' ']))
      (reads : ReadsOne .other op.written.toList (.sign op.sign) .other (' ' :: rowText slots))
      (has : Parser.signOp? op.sign = some op) : ReadsSlot before (binary op) (rowText slots) :=
    readsSlot_apart text rfl reads (.sign has)
  cases op with
  | lt => exact close (by decide) (by decide) rfl fun _ => noAt apart (.inl rfl)
  | bitXor => exact close (by decide) (by decide) rfl fun _ => noAt apart (.inr rfl)
  | eq | notEq | ltEq | gt | gtEq | nullSafeEq | plus | minus | times | divide | modulo | bitAnd
  | bitOr =>
    exact close (by decide) (by decide) rfl fun same => absurd same (by decide)
  | contains | pathExists | pathMatch =>
    exact spaced (by decide) (.of_scan fun p => ⟨_, rfl⟩) rfl
  | and | or | xor | integerDivide | overlaps =>
    exact readsSlot_blanks (by decide) (by decide) rfl _
  | _ =>
    exact spaced (by decide) (readsOne_sign_blank .other
      (isSignText_of_mem (_, _) (by decide)) (by decide)) rfl

/-- An operator before its operand. -/
theorem readsSlot_unary {op : UnaryOp} (chain : (unary op :: slots).IsChain Precedes)
    (readable : ∀ z ∈ slots, z.IsReadable) : ReadsSlot before (unary op) (rowText slots) := by
  have front : ∀ z, (unary op).Precedes z → z.IsStart := fun _ starts => starts
  cases op with
  | not => exact readsSlot_append_blank (by decide) (by decide) rfl _
  | minus =>
    have sign : IsSignText ['-'] .minus := isSignText_of_mem (_, _) (by decide)
    exact readsSlot_sign front chain readable rfl sign (by decide) (.sign rfl) fun same =>
      absurd same (by decide)
  | plus =>
    have sign : IsSignText ['+'] .plus := isSignText_of_mem (_, _) (by decide)
    exact readsSlot_sign front chain readable rfl sign (by decide) (.sign rfl) fun same =>
      absurd same (by decide)

/-- A parenthesis or a comma. -/
theorem readsSlot_alone {spelling rest : List Char} {s : Sign}
    (alone : spelling ∈ [['('], [')'], [',']]) (text : x.text.toList = spelling)
    (after : x.after = .other) (sign : IsSignText spelling s) (other : s ≠ .period)
    (fits : x.singleQuoted.Fits (.sign s)) : ReadsSlot before x rest := by
  have known : spelling ≠ [] ∧ spelling ≠ ['-'] ∧ spelling ≠ ['/'] := by
    have table : ∀ spelling ∈ [['('], [')'], [',']],
        spelling ≠ [] ∧ spelling ≠ ['-'] ∧ spelling ≠ ['/'] := by decide
    exact table spelling alone
  have stops : Stops (signGoesOn spelling) rest := by
    intro c _
    rw [Bool.eq_false_iff]
    intro goesOn
    exact (signGoesOn_cases known.1 goesOn).2.2.2 alone
  have reads := readsOne_sign before sign other stops (fun same => absurd same known.2.1)
    fun same => absurd same known.2.2
  rw [← text, ← after] at reads
  exact ReadsOne.slot reads fits

/-- Only a period stands in front of a part of a name. -/
theorem eq_period_of_precedes {id : Ident} (precedes : x.Precedes (part id)) : x = period := by
  cases x with
  | period => rfl
  | _ => simp [Precedes, IsBehind, IsStart] at precedes

/-- Only a name stands in front of a period. -/
theorem isName_of_precedes (precedes : x.Precedes period) : x.IsName := by
  cases x with
  | name | part => trivial
  | _ => simp [Precedes, IsBehind, IsStart] at precedes

/-- Behind a name part in single quotes, a period is not read as the start of a fraction. -/
theorem noFraction {word : String} (chain : (period :: slots).IsChain Precedes)
    (keeps : KeepsPeriods (part ⟨word, some .single⟩ :: period :: slots))
    (readable : ∀ z ∈ slots, z.IsReadable) :
    ∀ c ∈ (rowText slots).head?, c ≠ '_' ∧ c.isDigit = false := by
  intro c head
  cases slots with
  | nil => nomatch head
  | cons y slots =>
    have precedes : ∃ id, y = part id := (List.isChain_cons_cons.mp chain).1
    obtain ⟨⟨other, _ | mark⟩, rfl⟩ := precedes
    · obtain ⟨-, d, more, same, -⟩ := readable _ List.mem_cons_self
      have first : d ∈ (part ⟨other, none⟩).text.toList.head? := by
        show other.toList.head? = some d
        rw [same, List.head?_cons]
      obtain rfl := eq_of_mem_head? first head
      exact keeps word other ⟨[], slots, rfl⟩ d first
    · have first : mark.char ∈ (part ⟨other, some mark⟩).text.toList.head? := head_widened _ _
      obtain rfl := eq_of_mem_head? first head
      cases mark <;> exact ⟨by decide, by decide⟩

/-- A period between the parts of a name. -/
theorem readsSlot_period (precedes : x.Precedes .period)
    (chain : (period :: slots).IsChain Precedes) (keeps : KeepsPeriods (x :: period :: slots))
    (readable : ∀ z ∈ slots, z.IsReadable) (leaves : x.Leaves before) :
    ReadsSlot before period (rowText slots) := by
  have plain : before = .word ∨ ∀ c ∈ (rowText slots).head?, c ≠ '_' ∧ c.isDigit = false := by
    obtain rfl | ⟨word, -⟩ := leaves
    · cases x with
      | name => exact .inl rfl
      | part id =>
        obtain ⟨word, _ | mark⟩ := id
        · exact .inl rfl
        · cases mark with
          | single => exact .inr (noFraction chain keeps readable)
          | backtick | double => exact .inl rfl
      | _ => exact (isName_of_precedes precedes).elim
    · exact .inl word
  exact ReadsOne.slot (readsOne_period plain) (.sign rfl)

/-- A place in a row. -/
theorem readsSlot (precedes : x.Precedes y) (chain : (y :: slots).IsChain Precedes)
    (apart : (y :: slots).IsChain Apart) (keeps : KeepsPeriods (x :: y :: slots))
    (readable : ∀ z ∈ y :: slots, z.IsReadable) (leaves : x.Leaves before) :
    ReadsSlot before y (rowText slots) := by
  have self := readable y List.mem_cons_self
  have others : ∀ z ∈ slots, z.IsReadable := fun z mem => readable z (List.mem_cons_of_mem _ mem)
  have atStart (starts : y.IsStart) : before = .other := by
    obtain rfl | ⟨-, parameter, rfl⟩ := leaves
    · exact after_eq_other precedes starts
    · exact absurd precedes starts.not_isBehind
  cases y with
  | name id => exact atStart trivial ▸ readsSlot_name chain self
  | part id =>
    obtain rfl := eq_period_of_precedes precedes
    obtain rfl | ⟨-, parameter, same⟩ := leaves
    · exact readsSlot_part chain self
    · nomatch same
  | value literal => exact atStart trivial ▸ readsSlot_value chain self
  | binary op => exact readsSlot_binary chain apart others
  | unary op => exact readsSlot_unary chain others
  | truth t =>
    have ends : (truth t).IsEnd := trivial
    cases t <;> exact readsSlot_keyword (by decide) rfl rfl (stops_word ends chain)
  | is | isIn | between | like => exact readsSlot_blanks (by decide) (by decide) rfl _
  | isNot => exact readsSlot_append_blank (by decide) (by decide) rfl _
  | not =>
    refine readsSlot_blank (by decide) (by decide) rfl ?_
    cases slots with
    | nil => exact nofun
    | cons z slots =>
      obtain rfl | rfl | rfl := (List.isChain_cons_cons.mp chain).1 <;> exact stops_blank _
  | period => exact readsSlot_period precedes chain keeps others leaves
  | leftParen | rightParen | comma =>
    exact readsSlot_alone (by decide) rfl rfl (isSignText_of_mem (_, _) (by decide))
      (by decide) (.sign rfl)

/-- The text of a row is read as tokens that spell it. -/
theorem lexesTo_row (chain : (x :: slots).IsChain Precedes) (apart : (x :: slots).IsChain Apart)
    (keeps : KeepsPeriods (x :: slots)) (readable : ∀ z ∈ slots, z.IsReadable)
    (leaves : x.Leaves before) (p : Position) : ∃ tokens,
      LexesTo before p (rowText slots) tokens ∧ Spells (slots.map singleQuoted) tokens := by
  induction slots generalizing x before p with
  | nil => exact ⟨[], .nil _ _, .nil⟩
  | cons y slots ih =>
    obtain ⟨precedes, chain⟩ := List.isChain_cons_cons.mp chain
    obtain ⟨used, stop, after, leavesNext, spells, reads⟩ :=
      readsSlot precedes chain apart.tail keeps readable leaves p
    obtain ⟨tokens, more, spellsMore⟩ := ih chain apart.tail keeps.tail
      (fun z mem => readable z (List.mem_cons_of_mem _ mem)) leavesNext stop
    exact ⟨used ++ tokens, reads tokens more, spells.append spellsMore⟩

end Slot

end SqlFootprint.Sql
