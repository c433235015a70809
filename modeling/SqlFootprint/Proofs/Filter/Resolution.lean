import SqlFootprint.Proofs.Filter.Substitution

/-! # Resolving second names in a tree and in its text

A condition may be resolved before it is written, by a walk over the tree (`Expr.resolved`), or
after it is written, by passes over the text (`normalize`). For conditions without quoted texts both
give the same filter, because every form of expression writes a boundary between its parts
(`Resolves.between`), so that the passes treat each part as if it stood alone. -/

namespace SqlFootprint

open Text Sql

/-! ## Elementary conditions -/

/-- A name without its mark. -/
def Sql.Ident.bare (id : Ident) : Ident := ⟨id.value, none⟩

/-- Whether a name is a plain word, bare or quoted as a name. -/
def Sql.Ident.isPlain (id : Ident) : Bool :=
  Filter.isPlainWord id.value && (id.mark == none || id.mark == some .backtick)

/-- Whether a character may stand behind the period of a number. -/
def isNumeralPart (c : Char) : Bool :=
  c.isDigit || c = 'e' || c = 'E' || c = '+' || c = '-'

/-- Whether a text is a number: a period can only stand right behind the first digits. -/
def isNumeral (digits : String) : Bool :=
  match digits.toList.dropWhile Char.isDigit with
  | [] => true
  | c :: cs => (c = '.' || isNumeralPart c) && cs.all isNumeralPart

/-- Whether a literal is a number, a truth value or the missing value. -/
def Sql.Literal.isPlain : Literal → Bool
  | .number digits _ => isNumeral digits
  | .boolean _ => true
  | .null => true
  | _ => false

/-- The conditions that both ways of resolving treat alike: no quoted text stands in them, names
have one or two parts, and every form has a compact text of its own. -/
inductive Sql.Expr.Elementary : Expr → Prop where
  /-- A plain name. -/
  | name {id : Ident} (h : id.isPlain = true) : Elementary (.name id)
  /-- A plain name behind another. -/
  | dotted {front back : Ident} (hfront : front.isPlain = true) (hback : back.isPlain = true) :
      Elementary (.dotted [front, back])
  /-- A literal that is no text. -/
  | literal {value : Literal} (h : value.isPlain = true) : Elementary (.literal value)
  /-- An operator between elementary operands. -/
  | binary {left right : Expr} (op : BinaryOp) (hleft : Elementary left)
      (hright : Elementary right) : Elementary (.binary left op right)
  /-- An operator before an elementary operand. -/
  | unary {arg : Expr} (op : UnaryOp) (h : Elementary arg) : Elementary (.unary op arg)
  /-- An elementary condition in parentheses. -/
  | nested {inner : Expr} (h : Elementary inner) : Elementary (.nested inner)
  /-- A test for absence or presence. -/
  | isNull {arg : Expr} (negated : Bool) (h : Elementary arg) :
      Elementary (.isTest arg negated .null)
  /-- A test for truth. -/
  | isTrue {arg : Expr} (h : Elementary arg) : Elementary (.isTest arg false .true)
  /-- A test for falsehood. -/
  | isFalse {arg : Expr} (h : Elementary arg) : Elementary (.isTest arg false .false)
  /-- Membership in a list of elementary items. -/
  | inList {arg : Expr} {items : List Expr} (negated : Bool) (h : Elementary arg)
      (hitems : ∀ item ∈ items, Elementary item) : Elementary (.inList arg negated items)
  /-- A test for an interval with elementary ends. -/
  | between {arg low high : Expr} (negated : Bool) (h : Elementary arg) (hlow : Elementary low)
      (hhigh : Elementary high) : Elementary (.between arg negated low high)
  /-- A test for an elementary pattern. -/
  | like {arg pattern : Expr} (negated any : Bool) (h : Elementary arg)
      (hpattern : Elementary pattern) : Elementary (.like arg negated .like any pattern none)

/-- The parts of a name without their marks, with a table for a second name in front of a column. -/
def resolvedParts (aliases : Aliases) : List Ident → List Ident
  | [front, back] => [⟨(aliases.table? front.value).getD front.value, none⟩, back.bare]
  | parts => parts.map Ident.bare

mutual

/-- A condition with its names resolved: without marks, and with a table for every second name in
front of a column. Expressions that are not elementary are left alone. -/
def Sql.Expr.resolved (aliases : Aliases) : Expr → Expr
  | .name id => .name id.bare
  | .dotted parts => .dotted (resolvedParts aliases parts)
  | .binary left op right => .binary (left.resolved aliases) op (right.resolved aliases)
  | .unary op arg => .unary op (arg.resolved aliases)
  | .nested inner => .nested (inner.resolved aliases)
  | .isTest arg negated truth => .isTest (arg.resolved aliases) negated truth
  | .inList arg negated items =>
    .inList (arg.resolved aliases) negated (resolvedItems aliases items)
  | .between arg negated low high =>
    .between (arg.resolved aliases) negated (low.resolved aliases) (high.resolved aliases)
  | .like arg negated op any pattern escape =>
    .like (arg.resolved aliases) negated op any (pattern.resolved aliases) escape
  | other => other
termination_by structural e => e

/-- Conditions with their names resolved. -/
def resolvedItems (aliases : Aliases) : List Expr → List Expr
  | [] => []
  | e :: es => e.resolved aliases :: resolvedItems aliases es
termination_by structural es => es

end

end SqlFootprint

namespace SqlFootprint.Filter

open Text Sql

/-! ## Quiet text -/

/-- Whether a character may stand in a fixed text: it is no period and no mark. -/
def isQuietChar (c : Char) : Bool := c ≠ '.' && c ≠ '\x60' && c ≠ '\x27'

/-- Whether a text holds neither periods nor marks. -/
def isQuiet (cs : List Char) : Bool := cs.all isQuietChar

/-- Whether a character parts the text for all plain second names. -/
def isGap (c : Char) : Bool := isBoundary c && isQuietChar c

/-- Whether a fixed text ends with a gap, so that it may stand in front of any text. -/
def isLead (s : String) : Bool := isQuiet s.toList && s.toList.getLast?.any isGap

/-- Whether a fixed text begins with a gap, so that it may stand behind any text. -/
def isTail (s : String) : Bool := isQuiet s.toList && s.toList.head?.any isGap

/-- Whether a fixed text begins and ends with a gap, so that it may stand between any texts. -/
def isGlue (s : String) : Bool := isLead s && isTail s

theorem ne_of_isQuietChar {c : Char} (h : isQuietChar c = true) :
    c ≠ '.' ∧ c ≠ '\x60' ∧ c ≠ '\x27' := by
  simpa [isQuietChar, and_assoc] using h

/-- Neither a period nor a mark stands in a quiet text. -/
theorem notMem_of_isQuiet {cs : List Char} (h : isQuiet cs = true) :
    '.' ∉ cs ∧ '\x60' ∉ cs ∧ '\x27' ∉ cs := by
  have quiet (c : Char) (m : c ∈ cs) := ne_of_isQuietChar (List.all_eq_true.mp h c m)
  exact ⟨fun m => (quiet _ m).1 rfl, fun m => (quiet _ m).2.1 rfl, fun m => (quiet _ m).2.2 rfl⟩

/-- A text that may stand between others begins with a gap, and the rest is empty or may stand in
front. -/
theorem exists_of_isGlue {glue : String} (h : isGlue glue = true) :
    ∃ gap more, glue.toList = gap :: more ∧ isGap gap = true ∧
      (more = [] ∨ isLead (String.ofList more) = true) := by
  obtain ⟨lead, tail⟩ := (Bool.and_eq_true _ _).mp h
  obtain ⟨quiet, last⟩ := (Bool.and_eq_true _ _).mp lead
  obtain ⟨-, first⟩ := (Bool.and_eq_true _ _).mp tail
  obtain ⟨gap, eq, hgap⟩ := (Option.any_eq_true _ _).mp first
  obtain ⟨more, eq⟩ := List.head?_eq_some_iff.mp eq
  refine ⟨gap, more, eq, hgap, ?_⟩
  cases more with
  | nil => exact Or.inl rfl
  | cons c cs =>
    -- the last character is not the first, so it is still there
    right
    rw [eq] at quiet last
    have quietMore : isQuiet (c :: cs) = true := ((Bool.and_eq_true _ _).mp quiet).2
    simpa [isLead, quietMore] using last

theorem dropMarks_append (cs ds : List Char) :
    dropMarks (cs ++ ds) = dropMarks cs ++ dropMarks ds :=
  List.filter_append cs ds

/-- Without marks there is nothing to drop. -/
theorem dropMarks_of_notMem {cs : List Char} (h : '\x60' ∉ cs) : dropMarks cs = cs :=
  List.filter_eq_self.mpr fun _ m => decide_eq_true fun e => h (e ▸ m)

/-! ## What the passes do to a text -/

/-- The passes write a text without quotes as a resolved one, wherever it stands behind a gap. -/
structure Resolves (aliases : Aliases) (text resolved : List Char) : Prop where
  /-- No quoted text begins in it. -/
  unquoted : '\x27' ∉ text
  /-- Without its marks and with tables for second names it is the resolved text. -/
  substituted : substituteFrom aliases 0 true (dropMarks text) = resolved

section

variable {aliases : Aliases}

/-- A quiet text stays as it is. -/
theorem Resolves.of_isQuiet {text : List Char} (h : isQuiet text = true) :
    Resolves aliases text text := by
  obtain ⟨noPeriod, noMark, noQuote⟩ := notMem_of_isQuiet h
  refine ⟨noQuote, ?_⟩
  rw [dropMarks_of_notMem noMark, substituteFrom_of_notMem_period aliases true noPeriod]

variable (plain : PlainAliases aliases)

include plain

/-- Texts around a gap are resolved one by one. -/
theorem Resolves.append_cons {left left' right right' : List Char} {gap : Char}
    (hgap : isGap gap = true) (hleft : Resolves aliases left left')
    (hright : Resolves aliases right right') :
    Resolves aliases (left ++ gap :: right) (left' ++ gap :: right') := by
  obtain ⟨boundary, quiet⟩ := (Bool.and_eq_true _ _).mp hgap
  obtain ⟨nePeriod, neMark, neQuote⟩ := ne_of_isQuietChar quiet
  constructor
  · simp [hleft.unquoted, hright.unquoted, neQuote.symm]
  · have kept : dropMarks (gap :: right) = gap :: dropMarks right :=
      List.filter_cons_of_pos (decide_eq_true neMark)
    rw [dropMarks_append, kept, substituteFrom_append_cons (plain.separates boundary nePeriod),
      hleft.substituted, hright.substituted]

/-- A quiet text that ends with a gap may stand in front. -/
theorem Resolves.lead {front right right' : String} (hfront : isLead front = true)
    (hr : Resolves aliases right.toList right'.toList) :
    Resolves aliases (front ++ right).toList (front ++ right').toList := by
  obtain ⟨quiet, last⟩ := (Bool.and_eq_true _ _).mp hfront
  obtain ⟨gap, eq, hgap⟩ := (Option.any_eq_true _ _).mp last
  obtain ⟨start, eq⟩ := List.getLast?_eq_some_iff.mp eq
  have quietStart : isQuiet start = true := by
    rw [eq] at quiet
    exact ((Bool.and_eq_true _ _).mp (List.all_append.symm.trans quiet)).1
  rw [String.toList_append, String.toList_append, eq]
  simpa using append_cons plain hgap (of_isQuiet quietStart) hr

/-- A quiet text that begins with a gap may stand behind. -/
theorem Resolves.tail {left left' back : String} (hl : Resolves aliases left.toList left'.toList)
    (hback : isTail back = true) :
    Resolves aliases (left ++ back).toList (left' ++ back).toList := by
  obtain ⟨quiet, first⟩ := (Bool.and_eq_true _ _).mp hback
  obtain ⟨gap, eq, hgap⟩ := (Option.any_eq_true _ _).mp first
  obtain ⟨more, eq⟩ := List.head?_eq_some_iff.mp eq
  have quietMore : isQuiet more = true := by
    rw [eq] at quiet
    exact ((Bool.and_eq_true _ _).mp quiet).2
  rw [String.toList_append, String.toList_append, eq]
  exact append_cons plain hgap hl (of_isQuiet quietMore)

/-- A quiet text that begins and ends with a gap may stand between two texts. -/
theorem Resolves.between {left left' glue right right' : String}
    (hl : Resolves aliases left.toList left'.toList) (hglue : isGlue glue = true)
    (hr : Resolves aliases right.toList right'.toList) :
    Resolves aliases (left ++ glue ++ right).toList (left' ++ glue ++ right').toList := by
  obtain ⟨first, more, eq, hfirst, hmore⟩ := exists_of_isGlue hglue
  -- the first gap parts the left text from the rest, and the last one the rest from the right text
  have inner : Resolves aliases (String.ofList more ++ right).toList
      (String.ofList more ++ right').toList := by
    rcases hmore with rfl | hmore
    · simpa using hr
    · exact hr.lead plain hmore
  have outer := append_cons plain hfirst hl inner
  simpa [String.toList_append, eq] using outer

/-- A text in parentheses. -/
theorem Resolves.parens {inner inner' : String} (h : Resolves aliases inner.toList inner'.toList) :
    Resolves aliases ("(" ++ inner ++ ")").toList ("(" ++ inner' ++ ")").toList :=
  (h.lead plain (by decide)).tail plain (by decide)

/-- Texts between commas. -/
theorem Resolves.commas {texts texts' : List String}
    (h : List.Forall₂ (fun text text' : String => Resolves aliases text.toList text'.toList) texts
      texts') :
    Resolves aliases (",".intercalate texts).toList (",".intercalate texts').toList := by
  induction h with
  | nil => exact of_isQuiet (by decide)
  | @cons text text' texts texts' first rest ih =>
    cases rest with
    | nil => simpa using first
    | cons second more =>
      rw [String.intercalate_cons_cons, String.intercalate_cons_cons]
      exact first.between plain (by decide) ih

end

/-! ## Names and literals -/

section

variable {aliases : Aliases}

/-- A plain name is written as its value, perhaps between marks. -/
theorem written_of_isPlain {id : Ident} (h : id.isPlain = true) :
    isPlainWord id.value = true ∧ (id.written.toList = id.value.toList ∨
      id.written.toList = '\x60' :: (id.value.toList ++ ['\x60'])) := by
  obtain ⟨word, mark⟩ := (Bool.and_eq_true _ _).mp h
  refine ⟨word, ?_⟩
  obtain ⟨value, mark'⟩ := id
  have noMark : '\x60' ∉ value.toList := notMem_of_isPlainWord word (by decide)
  -- a plain word holds no mark that would be doubled
  rcases (Bool.or_eq_true _ _).mp mark with bare | backtick
  · obtain rfl : mark' = none := eq_of_beq bare
    exact Or.inl rfl
  · obtain rfl : mark' = some .backtick := eq_of_beq backtick
    right
    show (widened '\x60' value).toList = _
    rw [widened, String.toList_ofList, widenMarks_of_not_mem false noMark]

/-- The marks of a plain name are dropped. -/
theorem dropMarks_written {id : Ident} (h : id.isPlain = true) :
    dropMarks id.written.toList = id.value.toList := by
  obtain ⟨word, bare | marked⟩ := written_of_isPlain h
  · rw [bare, dropMarks_of_notMem (notMem_of_isPlainWord word (by decide))]
  · have inner : dropMarks id.value.toList = id.value.toList :=
      dropMarks_of_notMem (notMem_of_isPlainWord word (by decide))
    have outer (cs : List Char) : dropMarks ('\x60' :: cs) = dropMarks cs := rfl
    rw [marked, outer, dropMarks_append, outer, inner, dropMarks_of_notMem List.not_mem_nil,
      List.append_nil]

/-- No quoted text begins in a plain name. -/
theorem quote_notMem_written {id : Ident} (h : id.isPlain = true) : '\x27' ∉ id.written.toList := by
  obtain ⟨word, bare | marked⟩ := written_of_isPlain h
  · rw [bare]
    exact notMem_of_isPlainWord word (by decide)
  · have : '\x27' ∉ id.value.toList := notMem_of_isPlainWord word (by decide)
    simp [marked, this]

/-- A name alone loses its mark, also where it is a second name. -/
theorem Resolves.name {id : Ident} (h : id.isPlain = true) :
    Resolves aliases id.written.toList id.bare.written.toList := by
  obtain ⟨word, -⟩ := written_of_isPlain h
  refine ⟨quote_notMem_written h, ?_⟩
  -- without a period behind it a name is not taken for a second name
  rw [dropMarks_written h]
  exact substituteFrom_of_notMem_period aliases true (notMem_of_isPlainWord word (by decide))

/-- Two names lose their marks, and a second name in front becomes its table. -/
theorem Resolves.dotted (plain : PlainAliases aliases) {front back : Ident}
    (hfront : front.isPlain = true) (hback : back.isPlain = true) :
    Resolves aliases (ObjectName.written [front, back]).toList
      (ObjectName.written (resolvedParts aliases [front, back])).toList := by
  obtain ⟨frontWord, -⟩ := written_of_isPlain hfront
  obtain ⟨backWord, -⟩ := written_of_isPlain hback
  have written (a b : Ident) :
      (ObjectName.written [a, b]).toList = a.written.toList ++ '.' :: b.written.toList := by
    simp [ObjectName.written]
  rw [written, resolvedParts, written]
  refine ⟨?_, ?_⟩
  · simp [quote_notMem_written hfront, quote_notMem_written hback]
  · have period (cs : List Char) : dropMarks ('.' :: cs) = '.' :: dropMarks cs := rfl
    rw [dropMarks_append, period, dropMarks_written hfront, dropMarks_written hback,
      substituteFrom_word plain frontWord (notMem_of_isPlainWord backWord (by decide))]
    rfl

/-- A character that stands behind the period of a number is quiet. -/
theorem isQuietChar_of_isNumeralPart {c : Char} (h : isNumeralPart c = true) :
    isQuietChar c = true := by
  have ne (d : Char) (hd : isNumeralPart d = false) : c ≠ d := fun e => by
    rw [e, hd] at h
    cases h
  simp [isQuietChar, ne '.' (by decide), ne '\x60' (by decide), ne '\x27' (by decide)]

/-- A number is made of digits, perhaps a period, and quiet characters. -/
theorem exists_of_isNumeral {digits : String} (h : isNumeral digits = true) :
    ∃ whole rest, (∀ d ∈ whole, d.isDigit = true) ∧ isQuiet rest = true ∧
      (digits.toList = whole ++ rest ∨ digits.toList = whole ++ '.' :: rest) := by
  have cut := List.takeWhile_append_dropWhile (p := Char.isDigit) (l := digits.toList)
  have whole : ∀ d ∈ digits.toList.takeWhile Char.isDigit, d.isDigit = true :=
    fun d m => List.all_eq_true.mp List.all_takeWhile d m
  have quiet {cs : List Char} (hcs : cs.all isNumeralPart = true) : isQuiet cs = true :=
    List.all_eq_true.mpr fun c m => isQuietChar_of_isNumeralPart (List.all_eq_true.mp hcs c m)
  unfold isNumeral at h
  -- what follows the first digits is nothing, a period, or the rest of the number
  split at h
  · next eq => exact ⟨_, [], whole, rfl, Or.inl (by rw [← eq, cut])⟩
  · next c cs eq =>
    obtain ⟨hc, hcs⟩ := (Bool.and_eq_true _ _).mp h
    rcases (Bool.or_eq_true _ _).mp hc with period | part
    · obtain rfl : c = '.' := of_decide_eq_true period
      exact ⟨_, cs, whole, quiet hcs, Or.inr (by rw [← eq, cut])⟩
    · refine ⟨_, c :: cs, whole, quiet ?_, Or.inl (by rw [← eq, cut])⟩
      rw [List.all_cons, part, hcs]
      rfl

/-- Digits are quiet. -/
theorem isQuiet_of_isDigit {cs : List Char} (h : ∀ d ∈ cs, d.isDigit = true) :
    isQuiet cs = true :=
  List.all_eq_true.mpr fun c m => isQuietChar_of_isNumeralPart (by simp [isNumeralPart, h c m])

/-- Nothing in a number is taken for a second name. -/
theorem Resolves.number (plain : PlainAliases aliases) {digits : String}
    (h : isNumeral digits = true) (long : Bool) :
    Resolves aliases (Literal.number digits long).written.toList
      (Literal.number digits long).written.toList := by
  obtain ⟨whole, rest, hwhole, hrest, eq⟩ := exists_of_isNumeral h
  -- a letter behind a long number is quiet as well
  have written : ∃ rest', isQuiet rest' = true ∧
      ((Literal.number digits long).written.toList = whole ++ rest' ∨
        (Literal.number digits long).written.toList = whole ++ '.' :: rest') := by
    cases long with
    | false => exact ⟨rest, hrest, eq⟩
    | true =>
      have quiet : isQuiet (rest ++ ['L']) = true := by
        rw [isQuiet, List.all_append, ← isQuiet, hrest]
        decide
      refine ⟨rest ++ ['L'], quiet, ?_⟩
      rcases eq with eq | eq
      · exact Or.inl (by simp [Literal.written, String.toList_append, eq])
      · exact Or.inr (by simp [Literal.written, String.toList_append, eq])
  obtain ⟨rest', hrest', eq | eq⟩ := written
  · -- without a period the whole number is quiet
    rw [eq]
    refine of_isQuiet ?_
    rw [isQuiet, List.all_append, ← isQuiet, ← isQuiet, isQuiet_of_isDigit hwhole, hrest']
    rfl
  · obtain ⟨-, noMark, noQuote⟩ := notMem_of_isQuiet (isQuiet_of_isDigit hwhole)
    obtain ⟨noPeriod', noMark', noQuote'⟩ := notMem_of_isQuiet hrest'
    -- the digits in front of the period are no second name, since none begins with a digit
    rw [eq]
    refine ⟨by simp [noQuote, noQuote'], ?_⟩
    rw [dropMarks_of_notMem (by simp [noMark, noMark']),
      substituteFrom_digits plain true hwhole noPeriod']

/-- A literal that is no text stays as it is. -/
theorem Resolves.literal (plain : PlainAliases aliases) {value : Literal}
    (h : value.isPlain = true) : Resolves aliases value.compact.toList value.compact.toList := by
  cases value with
  | number digits long => exact Resolves.number plain h long
  | boolean value => cases value <;> exact of_isQuiet (by decide)
  | null => exact of_isQuiet (by decide)
  | text kind value => cases h
  | placeholder name => cases h

end

/-! ## Text without quotes -/

/-- Without a quote no character set stands in front of a text. -/
theorem introducedText?_of_notMem {cs : List Char} (h : '\x27' ∉ cs) :
    introducedText? cs = none := by
  unfold introducedText?
  split
  · next u first cs =>
    split
    · dsimp only
      split
      · next q body eq =>
        -- the quote behind a character set would stand in the text
        have m : q ∈ cs := List.mem_of_mem_drop (eq ▸ List.mem_cons_self)
        have ne : q ≠ '\x27' := fun e =>
          h (List.mem_cons_of_mem u (List.mem_cons_of_mem first (e ▸ m)))
        rw [if_neg ne]
      · rfl
    · rfl
  · rfl

/-- Without a quote no character set is dropped. -/
theorem dropCharsets_of_notMem {cs : List Char} (h : '\x27' ∉ cs) : dropCharsets cs = cs := by
  -- a character is kept whether or not a name may begin at it
  have kept (inWord : Bool) : dropCharsetsFrom 0 inWord cs = cs := by
    induction cs generalizing inWord with
    | nil => rfl
    | cons c cs ih =>
      rw [dropCharsetsFrom, introducedText?_of_notMem h, ite_self]
      exact congrArg (c :: ·) (ih (fun m => h (List.mem_cons_of_mem c m)) _)
  exact kept false

/-- All passes together resolve a text without quotes and lower the word between conditions. -/
theorem Resolves.normalize_eq {aliases : Aliases} {text text' : String}
    (h : Resolves aliases text.toList text'.toList) :
    normalize aliases text = replace text' " AND " " and " := by
  have noQuote : '\x27' ∉ dropMarks text.toList := fun m => h.unquoted (List.mem_of_mem_filter m)
  have plainText : substituteAliases aliases
      (String.ofList (dropCharsets (dropMarks text.toList))) = text' := by
    apply String.toList_inj.mp
    rw [toList_substituteAliases, String.toList_ofList, dropCharsets_of_notMem noQuote,
      h.substituted]
  show replace (substituteAliases aliases _) " AND " " and " = _
  rw [plainText]

/-! ## Conditions -/

/-- The compact text of a condition is written by the passes as that of another. -/
def WrittenAs (aliases : Aliases) (e e' : Expr) : Prop :=
  ∃ text text', e.compact = .ok text ∧ e'.compact = .ok text' ∧
    Resolves aliases text.toList text'.toList

/-- Every operator is written between gaps. -/
theorem isGlue_compact (op : BinaryOp) : isGlue op.compact = true := by
  cases op <;> decide

/-- Every operator in front ends with a gap. -/
theorem isLead_written (op : UnaryOp) : isLead op.written = true := by
  cases op <;> decide

section

variable {aliases : Aliases}

/-- A form with one operand is resolved in its operand, if it is written around the operand's text
and keeps it apart from its own. -/
theorem WrittenAs.map (form : Expr → Expr) (write : String → String)
    (compact : ∀ e text, e.compact = .ok text → (form e).compact = .ok (write text))
    (apart : ∀ {text text' : String}, Resolves aliases text.toList text'.toList →
      Resolves aliases (write text).toList (write text').toList)
    {e e' : Expr} (h : WrittenAs aliases e e') : WrittenAs aliases (form e) (form e') := by
  obtain ⟨text, text', ht, ht', resolves⟩ := h
  exact ⟨write text, write text', compact e text ht, compact e' text' ht', apart resolves⟩

/-- A form with two operands is resolved in both of them. -/
theorem WrittenAs.map₂ (form : Expr → Expr → Expr) (write : String → String → String)
    (compact : ∀ l r left right, l.compact = .ok left → r.compact = .ok right →
      (form l r).compact = .ok (write left right))
    (apart : ∀ {left left' right right' : String}, Resolves aliases left.toList left'.toList →
      Resolves aliases right.toList right'.toList →
        Resolves aliases (write left right).toList (write left' right').toList)
    {l l' r r' : Expr} (hl : WrittenAs aliases l l') (hr : WrittenAs aliases r r') :
    WrittenAs aliases (form l r) (form l' r') := by
  obtain ⟨left, left', compactLeft, compactLeft', resolvesLeft⟩ := hl
  obtain ⟨right, right', compactRight, compactRight', resolvesRight⟩ := hr
  exact ⟨write left right, write left' right', compact l r left right compactLeft compactRight,
    compact l' r' left' right' compactLeft' compactRight', apart resolvesLeft resolvesRight⟩

/-- Lists of items are resolved item by item. -/
theorem exists_compactItems {items : List Expr}
    (h : ∀ item ∈ items, WrittenAs aliases item (item.resolved aliases)) :
    ∃ texts texts', compactItems items = .ok texts ∧
      compactItems (resolvedItems aliases items) = .ok texts' ∧
      List.Forall₂ (fun text text' : String => Resolves aliases text.toList text'.toList) texts
        texts' := by
  induction items with
  | nil => exact ⟨[], [], rfl, rfl, .nil⟩
  | cons item items ih =>
    obtain ⟨text, text', ht, ht', first⟩ := h item List.mem_cons_self
    obtain ⟨texts, texts', hts, hts', rest⟩ := ih fun e m => h e (List.mem_cons_of_mem item m)
    refine ⟨text :: texts, text' :: texts', ?_, ?_, .cons first rest⟩
    · rw [compactItems, ht, hts]
      rfl
    · rw [resolvedItems, compactItems, ht', hts']
      rfl

/-- The passes write an elementary condition as its resolved form. -/
theorem writtenAs_resolved (plain : PlainAliases aliases) {e : Expr} (h : e.Elementary) :
    WrittenAs aliases e (e.resolved aliases) := by
  -- one case for each form: its text around the operands begins and ends with gaps
  induction h with
  | name h => exact ⟨_, _, rfl, rfl, Resolves.name h⟩
  | dotted hfront hback => exact ⟨_, _, rfl, rfl, Resolves.dotted plain hfront hback⟩
  | literal h => exact ⟨_, _, rfl, rfl, Resolves.literal plain h⟩
  | binary op _ _ ihl ihr =>
    rw [Expr.resolved]
    refine ihl.map₂ (.binary · op ·) (· ++ op.compact ++ ·) (fun l r left right hl hr => ?_)
      (fun rl rr => rl.between plain (isGlue_compact op) rr) ihr
    rw [Expr.compact, hl, hr]
    rfl
  | unary op _ ih =>
    rw [Expr.resolved]
    refine ih.map (.unary op) (op.written ++ ·) (fun e text h => ?_)
      fun resolves => resolves.lead plain (isLead_written op)
    rw [Expr.compact, h]
    rfl
  | nested _ ih =>
    rw [Expr.resolved]
    refine ih.map .nested ("(" ++ · ++ ")") (fun e text h => ?_)
      fun resolves => resolves.parens plain
    rw [Expr.compact, h]
    rfl
  | isNull negated _ ih =>
    have back : isTail (" IS " ++ (notWord negated ++ "NULL")) = true := by
      cases negated <;> decide
    rw [Expr.resolved]
    refine ih.map (.isTest · negated .null) (· ++ " IS " ++ notWord negated ++ "NULL")
      (fun e text h => ?_) fun resolves => ?_
    · rw [Expr.compact, h]
      rfl
    · simpa only [String.append_assoc] using resolves.tail plain back
  | isTrue _ ih =>
    rw [Expr.resolved]
    refine ih.map (.isTest · false .true) (· ++ " IS TRUE") (fun e text h => ?_)
      fun resolves => resolves.tail plain (by decide)
    rw [Expr.compact, h]
    rfl
  | isFalse _ ih =>
    rw [Expr.resolved]
    refine ih.map (.isTest · false .false) (· ++ " IS FALSE") (fun e text h => ?_)
      fun resolves => resolves.tail plain (by decide)
    rw [Expr.compact, h]
    rfl
  | inList negated _ _ ih ihs =>
    obtain ⟨t, t', ht, ht', rt⟩ := ih
    obtain ⟨ts, ts', hts, hts', rts⟩ := exists_compactItems ihs
    refine ⟨t ++ " " ++ notWord negated ++ "IN (" ++ ",".intercalate ts ++ ")",
      t' ++ " " ++ notWord negated ++ "IN (" ++ ",".intercalate ts' ++ ")", ?_, ?_, ?_⟩
    · rw [Expr.compact, ht, hts]
      rfl
    · rw [Expr.resolved, Expr.compact, ht', hts']
      rfl
    · have glue : isGlue (" " ++ (notWord negated ++ "IN (")) = true := by
        cases negated <;> decide
      have closing : isTail ")" = true := by decide
      have whole := (rt.between plain glue (Resolves.commas plain rts)).tail plain closing
      simpa only [String.append_assoc] using whole
  | between negated _ _ _ ih ihl ihh =>
    obtain ⟨t, t', ht, ht', rt⟩ := ih
    obtain ⟨l, l', hl, hl', rl⟩ := ihl
    obtain ⟨r, r', hr, hr', rr⟩ := ihh
    refine ⟨t ++ " " ++ notWord negated ++ "BETWEEN " ++ l ++ " AND " ++ r,
      t' ++ " " ++ notWord negated ++ "BETWEEN " ++ l' ++ " AND " ++ r', ?_, ?_, ?_⟩
    · rw [Expr.compact, ht, hl, hr]
      rfl
    · rw [Expr.resolved, Expr.compact, ht', hl', hr']
      rfl
    · have glue : isGlue (" " ++ (notWord negated ++ "BETWEEN ")) = true := by
        cases negated <;> decide
      -- between the ends stands the word of a conjunction
      have ends := rl.between plain (isGlue_compact .and) rr
      have whole := rt.between plain glue ends
      simpa only [String.append_assoc, BinaryOp.compact] using whole
  | like negated any _ _ ih ihp =>
    have glue : isGlue (" " ++ (notWord negated ++ "LIKE ")) = true := by
      cases negated <;> decide
    rw [Expr.resolved]
    refine ih.map₂ (.like · negated .like any · none)
      (· ++ " " ++ notWord negated ++ "LIKE " ++ ·) (fun l r left right hl hr => ?_)
      (fun resolves pattern => ?_) ihp
    · rw [Expr.compact, hl, hr]
      rfl
    · simpa only [String.append_assoc] using resolves.between plain glue pattern

/-- What the passes write as another condition has the filter of that condition. -/
theorem render_of_writtenAs {e e' : Expr} (h : WrittenAs aliases e e') :
    ∃ text, e'.compact = .ok text ∧ render aliases e = .ok (replace text " AND " " and ") := by
  obtain ⟨text, text', ht, ht', resolves⟩ := h
  refine ⟨text', ht', ?_⟩
  rw [render, ht]
  show Except.ok (normalize aliases text) = _
  rw [resolves.normalize_eq]

end

/-- Resolving the tree and resolving its text give the same filter: the filter of an elementary
condition is the text of its resolved form, with the word between conditions in lower case. -/
theorem render_eq_compact_resolved {aliases : Aliases} (plain : PlainAliases aliases) {e : Expr}
    (h : e.Elementary) :
    ∃ text, (e.resolved aliases).compact = .ok text ∧
      render aliases e = .ok (replace text " AND " " and ") := by
  have written := writtenAs_resolved plain h
  exact render_of_writtenAs written

/-- The condition `a.x=1.5 AND b.a IN (a,-2)`, with a mark around one of the names. -/
def crossedCondition : Expr :=
  .binary (.binary (.dotted [⟨"a", none⟩, ⟨"x", none⟩]) .eq (.literal (.number "1.5" false))) .and
    (.inList (.dotted [⟨"b", some .backtick⟩, ⟨"a", none⟩]) false
      [.name ⟨"a", none⟩, .unary .minus (.literal (.number "2" false))])

theorem elementary_crossedCondition : crossedCondition.Elementary := by
  refine .binary .and (.binary .eq (.dotted ?_ ?_) (.literal ?_)) (.inList false (.dotted ?_ ?_) ?_)
  case refine_6 =>
    intro item m
    rcases List.mem_pair.mp m with rfl | rfl
    · exact .name (by decide)
    · exact .unary .minus (.literal (by decide))
  all_goals decide

/-- Second names that are each other's tables are resolved once, and a name alone is kept. -/
theorem render_crossedCondition :
    render [("a", "b"), ("b", "a")] crossedCondition = .ok "b.x=1.5 and a.a IN (a,-2)" := by
  obtain ⟨text, compact, filter⟩ := render_eq_compact_resolved
    (show PlainAliases [("a", "b"), ("b", "a")] by decide) elementary_crossedCondition
  obtain rfl : "b.x=1.5 AND a.a IN (a,-2)" = text := Except.ok.inj compact
  rw [filter]
  rfl

end SqlFootprint.Filter
