import SqlFootprint.Proofs.Filter.Canonical
import SqlFootprint.Proofs.Sql.Backslash

/-! # Literals without their character sets

A character set is written directly in front of its literal and taken away again by a pass that
works on characters alone. The pass leaves the text of the bare literals exactly if no character set
stands in front of a hexadecimal literal, whose letter it would take for part of the name, and no
literal without one holds what looks like a character set in front of a quote
(`render_eq_bare_iff`). -/

namespace SqlFootprint.Filter

open Text Sql

/-! ## A character set in front of a text -/

/-- A text written with doubled quotes ends where it does. -/
theorem closedText_doubleMarks (value : List Char) {rest : List Char}
    (ends : rest.head? ≠ some '\x27') :
    closedText (doubleMarks '\x27' value ++ '\x27' :: rest) =
      some (doubleMarks '\x27' value ++ ['\x27'], rest) := by
  induction value with
  | nil =>
    cases rest with
    | nil => rfl
    | cons d rest =>
      have other : d ≠ '\x27' := by simpa using ends
      show closedText ('\x27' :: d :: rest) = some (['\x27'], d :: rest)
      rw [closedText, if_pos rfl, if_neg other]
  | cons c value ih =>
    rw [doubleMarks_cons]
    by_cases quote : c = '\x27'
    · subst quote
      show closedText ('\x27' :: '\x27' :: (doubleMarks '\x27' value ++ '\x27' :: rest)) = _
      rw [closedText, if_pos rfl, if_pos rfl, ih]
      rfl
    · obtain ⟨d, more, eq⟩ := List.exists_cons_of_ne_nil
        (List.append_ne_nil_of_right_ne_nil (doubleMarks '\x27' value)
          (List.cons_ne_nil '\x27' rest))
      rw [if_neg quote]
      show closedText (c :: (doubleMarks '\x27' value ++ '\x27' :: rest)) = _
      rw [eq, closedText, if_neg quote, ← eq, ih]
      rfl

/-- Passing over characters drops them. -/
theorem dropCharsetsFrom_skip (inWord : Bool) (cs : List Char) (c : Char) (rest : List Char) :
    dropCharsetsFrom (cs.length + 1) inWord (cs ++ c :: rest) =
      dropCharsetsFrom 0 (isWordChar c) rest := by
  induction cs generalizing inWord with
  | nil => rfl
  | cons d cs ih => exact ih (isWordChar d)

section

variable {first : Char} (letter : first.isAlpha = true) {name : List Char}
  (parts : ∀ c ∈ name, isCharsetPart c = true) (value : List Char) {rest : List Char}
  (ends : rest.head? ≠ some '\x27')

include letter parts ends

/-- A name of a character set with a text directly behind it. -/
theorem introducedText?_name :
    introducedText?
        ('_' :: first :: (name ++ '\x27' :: (doubleMarks '\x27' value ++ '\x27' :: rest))) =
      some ('\x27' :: (doubleMarks '\x27' value ++ ['\x27']),
        2 + name.length + 1 + (doubleMarks '\x27' value ++ ['\x27']).length) := by
  -- the name ends at the quote, and no blanks stand between them
  have run (body : List Char) : (name ++ '\x27' :: body).takeWhile isCharsetPart = name := by
    rw [List.takeWhile_append_of_pos parts]
    simp [isCharsetPart]
  have gap (body : List Char) : ('\x27' :: body).takeWhile isBlank = [] :=
    List.takeWhile_cons_of_neg (by decide)
  rw [introducedText?, if_pos (by simp [letter])]
  dsimp only
  rw [run, List.drop_left, gap, List.length_nil, Nat.add_zero, List.drop_left]
  dsimp only
  rw [if_pos rfl, closedText_doubleMarks value ends]

/-- The name of a character set is removed from in front of a text, and the text is kept. -/
theorem dropCharsetsFrom_name :
    dropCharsetsFrom 0 false
        ('_' :: first :: (name ++ '\x27' :: (doubleMarks '\x27' value ++ '\x27' :: rest))) =
      '\x27' :: (doubleMarks '\x27' value ++ '\x27' :: dropCharsetsFrom 0 false rest) := by
  have behind : first :: (name ++ '\x27' :: (doubleMarks '\x27' value ++ '\x27' :: rest)) =
      (first :: (name ++ '\x27' :: doubleMarks '\x27' value)) ++ '\x27' :: rest := by simp
  have size : 2 + name.length + 1 + (doubleMarks '\x27' value ++ ['\x27']).length - 1 =
      (first :: (name ++ '\x27' :: doubleMarks '\x27' value)).length + 1 := by
    simp only [List.length_append, List.length_cons, List.length_nil]
    omega
  rw [dropCharsetsFrom, if_neg Bool.false_ne_true, introducedText?_name letter parts value ends]
  dsimp only
  rw [size, behind, dropCharsetsFrom_skip]
  simp [show isWordChar '\x27' = false by decide]

end

/-! ## Texts without a character set -/

section

variable {β : Type} {f : Char → β} (apart : f '\x27' ≠ f '_')

include apart

/-- Up to `f`, which tells quotes from underscores, the pass leaves a text and what stands behind it
exactly if no character set is found in the text and the rest is left. -/
theorem map_dropCharsetsFrom_value (inWord : Bool) (value more more' : List Char) :
    (dropCharsetsFrom 0 inWord (doubleMarks '\x27' value ++ '\x27' :: more)).map f =
        (doubleMarks '\x27' value ++ '\x27' :: more').map f ↔
      holdsIntroducer (more.contains '\x27') inWord value = false ∧
        (dropCharsetsFrom 0 false more).map f = more'.map f := by
  induction value generalizing inWord with
  | nil =>
    show (dropCharsetsFrom 0 inWord ('\x27' :: more)).map f = ('\x27' :: more').map f ↔ _
    rw [dropCharsetsFrom_quote]
    simp [holdsIntroducer]
  | cons c value ih =>
    have ih := ih (isWordChar c)
    rw [holdsIntroducer]
    cases here : !inWord && introducerAhead (more.contains '\x27') (c :: value) with
    | true =>
      -- the pass puts a quote where the text has an underscore
      rw [← introducedText?_doubleMarks] at here
      obtain ⟨cs, front⟩ : ∃ cs, doubleMarks '\x27' (c :: value) ++ '\x27' :: more = c :: cs := by
        rw [doubleMarks_cons]
        split <;> exact ⟨_, rfl⟩
      rw [front] at here ⊢
      obtain ⟨rfl, rest, eq⟩ := exists_dropCharsetsFrom_cons here
      rw [eq]
      refine iff_of_false (fun same => ?_) (by simp)
      exact apart (List.cons.inj same).1
    | false =>
      -- the character is kept, and so is the second quote of a pair
      rw [← introducedText?_doubleMarks] at here
      rw [Bool.false_or, ← ih]
      rw [doubleMarks_cons] at here ⊢
      by_cases quote : c = '\x27'
      · subst quote
        rw [if_pos rfl]
        show (dropCharsetsFrom 0 inWord ('\x27' :: '\x27' :: _)).map f =
          ('\x27' :: '\x27' :: _).map f ↔ _
        rw [dropCharsetsFrom_quote, dropCharsetsFrom_quote]
        simp [show isWordChar '\x27' = false by decide]
      · rw [if_neg quote] at here ⊢
        show (dropCharsetsFrom 0 inWord (c :: _)).map f = (c :: _).map f ↔ _
        rw [dropCharsetsFrom_cons here]
        simp

end

/-! ## Literals and comparisons with them -/

/-- The character in which a sign of comparison ends, and what stands before it. -/
theorem Comparator.exists_sign (comparator : Comparator) : ∃ front, ∃ sign ∈ signEnds,
    comparator.op.compact.toList = front ++ [sign] ∧ '\x27' ∉ front ∧ '\x60' ∉ front := by
  cases comparator
  case eq => exact ⟨[], '=', by decide⟩
  case notEq => exact ⟨['!'], '=', by decide⟩
  case lt => exact ⟨[], '<', by decide⟩
  case ltEq => exact ⟨['<'], '=', by decide⟩
  case gt => exact ⟨[], '>', by decide⟩
  case gtEq => exact ⟨['>'], '=', by decide⟩
  case nullSafeEq => exact ⟨['<', '='], '>', by decide⟩

/-- Doubling quotes brings in no other character. -/
theorem mem_doubleMarks {mark c : Char} (cs : List Char) :
    c ∈ doubleMarks mark cs ↔ c ∈ cs := by
  rw [doubleMarks, List.mem_flatMap]
  constructor
  · rintro ⟨d, m, mem⟩
    split at mem <;> simp_all
  · intro m
    exact ⟨c, m, by split <;> simp⟩

/-- A mark stands in conditions tied together exactly if it stands in one of their texts, where none
stands in front of the texts. -/
theorem mark_mem_tied {front : String} (noMark : '\x60' ∉ front.toList)
    {items : List (String × String)} (marks : ∀ item ∈ items, '\x60' ∉ item.1.toList) :
    '\x60' ∈ interleaved (tied front items) ↔ ∃ item ∈ items, '\x60' ∈ item.2.toList := by
  induction items generalizing front with
  | nil => simp [tied, interleaved]
  | cons first rest ih =>
    obtain ⟨here, later⟩ := List.forall_mem_cons.mp marks
    have ih := @ih " AND " (by decide) later
    rw [List.exists_mem_cons_iff, ← ih]
    simp [tied, interleaved, noMark, here, mem_doubleMarks]

/-- A string, or a hexadecimal literal. -/
inductive QuotedLiteral where
  /-- A string of any kind. -/
  | string (kind : TextKind) (isString : kind ∈ stringKinds) (value : String)
  /-- The digits of a hexadecimal literal. -/
  | hex (digits : String) (noQuote : '\x27' ∉ digits.toList)

namespace QuotedLiteral

/-- The literal. -/
def literal : QuotedLiteral → Literal
  | .string kind _ value => .text kind value
  | .hex digits _ => .text .hex digits

/-- What stands between the quotes. -/
def value : QuotedLiteral → String
  | .string _ _ value => value
  | .hex digits _ => digits

/-- The letter in front of the quotes, if there is one. -/
def lead : QuotedLiteral → String
  | .string _ _ _ => ""
  | .hex _ _ => "X"

@[simp] theorem toList_lead_string (kind : TextKind) (isString : kind ∈ stringKinds)
    (value : String) : (string kind isString value).lead.toList = [] := by
  simp [lead]

@[simp] theorem toList_lead_hex (digits : String) (noQuote : '\x27' ∉ digits.toList) :
    (hex digits noQuote).lead.toList = ['X'] := by
  simp [lead]

/-- Whether the literal is hexadecimal. -/
def isHex : QuotedLiteral → Bool
  | .string _ _ _ => false
  | .hex _ _ => true

/-- The compact text of a literal. -/
theorem compact_literal (l : QuotedLiteral) :
    l.literal.compact = l.lead ++ doubled '\x27' l.value := by
  cases l with
  | string kind isString value =>
    rw [lead, String.empty_append]
    simp only [stringKinds, List.mem_cons, List.not_mem_nil, or_false] at isString
    rcases isString with rfl | rfl | rfl <;> rfl
  | hex digits noQuote =>
    apply String.toList_inj.mp
    show ("X'" ++ digits ++ "'").toList = ("X" ++ doubled '\x27' digits).toList
    simp [doubled, doubleMarks_of_not_mem noQuote]

end QuotedLiteral

/-- Whether a text is the name of a character set in front of a literal: an underscore, a letter,
then letters and digits. -/
def isCharset (s : String) : Bool :=
  match s.toList with
  | u :: first :: name => u = '_' && first.isAlpha && name.all isCharsetPart
  | _ => false

/-- Names of character sets. -/
abbrev Charset := { s : String // isCharset s = true }

/-- The parts of the name of a character set. -/
theorem Charset.exists_toList (charset : Charset) : ∃ first name,
    charset.1.toList = '_' :: first :: name ∧ first.isAlpha = true ∧
      ∀ c ∈ name, isCharsetPart c = true := by
  obtain ⟨s, h⟩ := charset
  unfold isCharset at h
  split at h
  · next u first name eq =>
    simp only [Bool.and_eq_true, decide_eq_true_eq, List.all_eq_true] at h
    obtain ⟨⟨rfl, letter⟩, parts⟩ := h
    exact ⟨first, name, eq, letter, parts⟩
  · cases h

/-- A comparison of a column with a literal, which may have a character set. -/
structure LiteralComparison where
  /-- The source of the column, where one is named. -/
  source : Option Word
  /-- The column. -/
  column : Word
  /-- The sign. -/
  comparator : Comparator
  /-- The character set in front of the literal, if there is one. -/
  charset : Option Charset
  /-- The literal. -/
  literal : QuotedLiteral

/-- An expression of comparisons with every value that has a character set written without it. -/
def bare : Expr → Expr
  | .introduced _ value => value
  | .binary left op right => .binary (bare left) op (bare right)
  | other => other

/-- A conjunction is written without character sets condition by condition. -/
theorem bare_toExpr {α : Type} (expr : α → Expr) (c : Conjunction α) :
    bare (c.toExpr expr) = c.toExpr fun item => bare (expr item) := by
  induction c with
  | single item => rfl
  | both left right ihl ihr => rw [Conjunction.toExpr, bare, ihl, ihr, Conjunction.toExpr]

namespace LiteralComparison

/-- The expression of the literal with its character set. -/
def literalExpr (comparison : LiteralComparison) : Expr :=
  match comparison.charset with
  | none => .literal comparison.literal.literal
  | some charset => .introduced ⟨charset, none⟩ (.literal comparison.literal.literal)

/-- The expression of a comparison with a literal. -/
def toExpr (comparison : LiteralComparison) : Expr :=
  .binary (columnExpr comparison.source comparison.column) comparison.comparator.op
    comparison.literalExpr

/-- What stands in front of the literal and its character set. -/
def head (comparison : LiteralComparison) : String :=
  columnText comparison.source comparison.column ++ comparison.comparator.op.compact

/-- The character set as it is written. -/
def introducer (comparison : LiteralComparison) : String :=
  match comparison.charset with
  | none => ""
  | some charset => charset

/-- Whether the pass for character sets leaves the bare literal, where `more` tells whether another
literal follows: it leaves a string behind its character set, and otherwise a literal in which no
character set is found. -/
def keepsLiteral (more : Bool) (comparison : LiteralComparison) : Bool :=
  match comparison.charset with
  | none => !holdsIntroducer more false comparison.literal.value.toList
  | some _ => !comparison.literal.isHex

/-- Whether the pass leaves all bare literals of a list of comparisons. -/
def keepsLiterals : List LiteralComparison → Bool
  | [] => true
  | first :: rest => first.keepsLiteral (!rest.isEmpty) && keepsLiterals rest

/-- The compact text of a comparison with a literal. -/
theorem compact_toExpr (comparison : LiteralComparison) :
    comparison.toExpr.compact = .ok (comparison.head ++ comparison.introducer ++
      comparison.literal.lead ++ doubled '\x27' comparison.literal.value) := by
  have literal : comparison.literalExpr.compact =
      .ok (comparison.introducer ++ comparison.literal.literal.compact) := by
    unfold literalExpr introducer
    cases comparison.charset with
    | none => exact congrArg Except.ok String.empty_append.symm
    | some charset => rfl
  rw [toExpr, Expr.compact, compact_columnExpr, literal, QuotedLiteral.compact_literal]
  show Except.ok _ = _
  simp only [head, String.append_assoc]

/-- A comparison without the character set of its literal. -/
def withoutCharset (comparison : LiteralComparison) : LiteralComparison :=
  { comparison with charset := none }

/-- Without the character set of its literal, a comparison is written as the bare expression. -/
theorem toExpr_withoutCharset (comparison : LiteralComparison) :
    bare comparison.toExpr = comparison.withoutCharset.toExpr := by
  obtain ⟨source, column, comparator, charset, literal⟩ := comparison
  cases source <;> cases charset <;> rfl

/-! ## The characters of a comparison -/

/-- What stands in front of the quotes, and what stands between them. -/
def written (comparison : LiteralComparison) : String × String :=
  (comparison.head ++ comparison.introducer ++ comparison.literal.lead, comparison.literal.value)

@[simp] theorem written_withoutCharset (comparison : LiteralComparison) :
    comparison.withoutCharset.written =
      (comparison.head ++ comparison.literal.lead, comparison.literal.value) := by
  show (comparison.head ++ "" ++ comparison.literal.lead, comparison.literal.value) = _
  rw [String.append_empty]

/-- In front of the literal stands a sign of comparison, and neither quotes nor marks do. -/
theorem exists_head (comparison : LiteralComparison) : ∃ name, ∃ sign ∈ signEnds,
    comparison.head.toList = name ++ [sign] ∧ '\x27' ∉ name ∧ '\x60' ∉ name := by
  obtain ⟨front, sign, m, eq, noQuote, noMark⟩ := comparison.comparator.exists_sign
  have noColumn {c : Char} (boundary : isBoundary c = true) (ne : c ≠ '.') :=
    notMem_columnText comparison.source comparison.column boundary ne
  refine ⟨(columnText comparison.source comparison.column).toList ++ front, sign, m, ?_, ?_, ?_⟩
  · rw [head, String.toList_append, eq, List.append_assoc]
  · simp [noColumn (show isBoundary '\x27' = true by decide) (by decide), noQuote]
  · simp [noColumn (show isBoundary '\x60' = true by decide) (by decide), noMark]

/-- No mark stands in front of the quotes of a literal. -/
theorem mark_notMem_written (comparison : LiteralComparison) :
    '\x60' ∉ comparison.written.1.toList := by
  obtain ⟨name, sign, m, eq, -, noMark⟩ := comparison.exists_head
  have hsign : '\x60' ≠ sign := fun same => absurd m (same ▸ by decide)
  have hintroducer : '\x60' ∉ comparison.introducer.toList := by
    unfold introducer
    cases comparison.charset with
    | none => decide
    | some charset =>
      obtain ⟨first, name, chars, letter, parts⟩ := charset.exists_toList
      have hfirst : '\x60' ≠ first := fun same => absurd letter (same ▸ by decide)
      have hname : '\x60' ∉ name := fun mark => absurd (parts _ mark) (by decide)
      simp [chars, hfirst, hname]
  have hlead : '\x60' ∉ comparison.literal.lead.toList := by
    cases comparison.literal <;> simp
  simp [written, eq, noMark, hsign, hintroducer, hlead]

/-- The pass keeps the letter in front of the quotes of a literal, and the opening quote. -/
theorem dropCharsetsFrom_lead (literal : QuotedLiteral) (rest : List Char) :
    dropCharsetsFrom 0 false (literal.lead.toList ++ '\x27' :: rest) =
      literal.lead.toList ++ '\x27' :: dropCharsetsFrom 0 false rest := by
  cases literal with
  | string kind isString value =>
    rw [QuotedLiteral.toList_lead_string]
    exact dropCharsetsFrom_quote false rest
  | hex digits noQuote =>
    have kept : (!false && (introducedText? ('X' :: '\x27' :: rest)).isSome) = false := by
      rw [introducedText?_of_ne (by decide), Bool.and_false]
    rw [QuotedLiteral.toList_lead_hex]
    show dropCharsetsFrom 0 false ('X' :: '\x27' :: rest) = _
    rw [dropCharsetsFrom_cons kept, dropCharsetsFrom_quote]
    rfl

section

variable {β : Type} {f : Char → β} (hname : f '\x27' ≠ f '_') (hX : f '\x27' ≠ f 'X')

include hname hX

/-- Up to `f`, the pass leaves a bare literal and what stands behind it exactly if it leaves
both. -/
theorem map_dropCharsetsFrom_literal (comparison : LiteralComparison) {more : List Char}
    (more' : List Char) (ends : more.head? ≠ some '\x27') :
    (dropCharsetsFrom 0 false (comparison.introducer.toList ++
        (comparison.literal.lead.toList ++ '\x27' ::
          (doubleMarks '\x27' comparison.literal.value.toList ++ '\x27' :: more)))).map f =
        (comparison.literal.lead.toList ++ '\x27' ::
          (doubleMarks '\x27' comparison.literal.value.toList ++ '\x27' :: more')).map f ↔
      comparison.keepsLiteral (more.contains '\x27') = true ∧
        (dropCharsetsFrom 0 false more).map f = more'.map f := by
  unfold introducer keepsLiteral
  cases comparison.charset with
  | none =>
    have value := map_dropCharsetsFrom_value hname false comparison.literal.value.toList more more'
    dsimp only
    rw [String.toList_empty, List.nil_append, dropCharsetsFrom_lead, List.map_append,
      List.map_append, List.append_cancel_left_eq, List.map_cons, List.map_cons, List.cons.injEq,
      value]
    simp
  | some charset =>
    obtain ⟨first, name, chars, letter, parts⟩ := charset.exists_toList
    dsimp only
    rw [chars]
    cases comparison.literal with
    | string kind isString value =>
      rw [QuotedLiteral.toList_lead_string]
      show (dropCharsetsFrom 0 false ('_' :: first :: (name ++ '\x27' :: _))).map f =
        ('\x27' :: _).map f ↔ _
      rw [dropCharsetsFrom_name letter parts _ ends]
      simp [QuotedLiteral.isHex, QuotedLiteral.value]
    | hex digits noQuote =>
      -- the letter in front of the quotes goes with the name
      have longer : ∀ c ∈ name ++ ['X'], isCharsetPart c = true := by
        intro c m
        rcases List.mem_append.mp m with m | m
        · exact parts c m
        · exact List.mem_singleton.mp m ▸ by decide
      have removed := dropCharsetsFrom_name letter longer digits.toList ends
      rw [List.append_assoc] at removed
      refine iff_of_false (fun same => ?_) (by simp [QuotedLiteral.isHex])
      rw [QuotedLiteral.toList_lead_hex] at same
      exact hX (List.cons.inj ((congrArg (List.map f) removed).symm.trans same)).1

/-- Up to `f`, the pass leaves the bare literals of comparisons exactly if it leaves each. -/
theorem map_dropCharsetsFrom_tied (inWord : Bool) {front : String} (noQuote : '\x27' ∉ front.toList)
    (comparisons : List LiteralComparison) :
    (dropCharsetsFrom 0 inWord (interleaved (tied front (comparisons.map written)))).map f =
        (interleaved (tied front (comparisons.map fun c => c.withoutCharset.written))).map f ↔
      keepsLiterals comparisons = true := by
  induction comparisons generalizing inWord front with
  | nil => simp [tied, interleaved, keepsLiterals, dropCharsetsFrom]
  | cons first rest ih =>
    obtain ⟨name, sign, hsign, eq, noQuote', -⟩ := first.exists_head
    have gap : '\x27' ∉ front.toList ++ name := by simp [noQuote, noQuote']
    have ends : (interleaved (tied " AND " (rest.map written))).head? ≠ some '\x27' := by
      cases rest with
      | nil => simp [tied, interleaved]
      | cons second others => simp [tied, interleaved]
    have quotes : (interleaved (tied " AND " (rest.map written))).contains '\x27' =
        !rest.isEmpty := by
      rw [contains_interleaved]
      cases rest <;> rfl
    have literal := map_dropCharsetsFrom_literal hname hX first
      (interleaved (tied " AND " (rest.map fun c => c.withoutCharset.written))) ends
    rw [quotes, ih false (by decide)] at literal
    -- up to the sign both texts are the same, and behind it stand the literal and the others
    have written : interleaved (tied front ((first :: rest).map written)) =
        (front.toList ++ name) ++ sign :: (first.introducer.toList ++
          (first.literal.lead.toList ++ '\x27' ::
            (doubleMarks '\x27' first.literal.value.toList ++ '\x27' ::
              interleaved (tied " AND " (rest.map written))))) := by
      simp [tied, interleaved, LiteralComparison.written, eq]
    have bare : interleaved (tied front ((first :: rest).map fun c => c.withoutCharset.written)) =
        (front.toList ++ name) ++ sign :: (first.literal.lead.toList ++ '\x27' ::
          (doubleMarks '\x27' first.literal.value.toList ++ '\x27' ::
            interleaved (tied " AND " (rest.map fun c => c.withoutCharset.written)))) := by
      simp [tied, interleaved, eq]
    have map_front (cs : List Char) :
        (front.toList ++ name ++ cs).map f = (front.toList ++ name).map f ++ cs.map f :=
      List.map_append
    rw [written, bare, dropCharsetsFrom_gap hsign inWord gap, map_front, map_front,
      List.append_cancel_left_eq, List.map_cons, List.map_cons, List.cons.injEq, literal,
      keepsLiterals, Bool.and_eq_true]
    simp

end

end LiteralComparison

/-! ## Filters without character sets -/

/-- Without second names, the normal form takes three passes. -/
theorem toList_normalize_nil (text : String) :
    (normalize [] text).toList = lowerWord (dropCharsets (dropMarks text.toList)) := by
  have last := getLast?_passes [] text
  rw [passes, substituteFrom_empty] at last
  exact Option.some.inj last.symm

/-- A text with a mark is no filter, not even with the word in lower case. -/
theorem lowerWord_ne_of_mark (cs : List Char) {ds : List Char} (mark : '\x60' ∈ ds) :
    lowerWord (dropCharsets (dropMarks cs)) ≠ lowerWord ds := by
  intro same
  have left := ((lowered_lowerWord ds).mem_iff (by decide)).mpr mark
  rw [← same, (lowered_lowerWord _).mem_iff (by decide)] at left
  have kept := List.mem_filter.mp ((dropped_dropCharsets _).sublist.subset left)
  simp at kept

/-- Texts that are the same with the word in lower case differ in the case of its letters only. -/
theorem map_lowered_eq {cs ds : List Char} (same : lowerWord cs = lowerWord ds) :
    cs.map lowered = ds.map lowered := by
  have mapped := congrArg (List.map lowered) same
  rwa [(lowered_lowerWord cs).map_eq rfl rfl rfl, (lowered_lowerWord ds).map_eq rfl rfl rfl]
    at mapped

/-- The texts of a conjunction, with and without the character sets, and their characters. -/
theorem exists_compact_bare (chain : Conjunction LiteralComparison) : ∃ text plain,
    (chain.toExpr LiteralComparison.toExpr).compact = .ok text ∧
    (bare (chain.toExpr LiteralComparison.toExpr)).compact = .ok plain ∧
    text.toList = interleaved (tied "" (chain.items.map LiteralComparison.written)) ∧
    plain.toList =
      interleaved (tied "" (chain.items.map fun c => c.withoutCharset.written)) := by
  have plain (comparison : LiteralComparison) : (bare comparison.toExpr).compact = _ :=
    comparison.toExpr_withoutCharset ▸ comparison.withoutCharset.compact_toExpr
  rw [bare_toExpr]
  exact ⟨_, _, chain.compact_toExpr LiteralComparison.compact_toExpr, chain.compact_toExpr plain,
    chain.toList_intercalate_items LiteralComparison.written,
    chain.toList_intercalate_items fun c => c.withoutCharset.written⟩

/-- The filter of a conjunction is the text of its bare literals, with the word between conditions
in lower case, exactly if no literal holds a mark and the pass for character sets leaves all bare
literals: strings behind their character sets and literals without one in which none is found, but
no hexadecimal literals behind character sets. -/
theorem render_eq_bare_iff (chain : Conjunction LiteralComparison) : ∃ filter plain,
    render [] (chain.toExpr LiteralComparison.toExpr) = .ok filter ∧
    (bare (chain.toExpr LiteralComparison.toExpr)).compact = .ok plain ∧
    (filter = replace plain " AND " " and " ↔
      (∀ comparison ∈ chain.items, '\x60' ∉ comparison.literal.value.toList) ∧
        LiteralComparison.keepsLiterals chain.items = true) := by
  obtain ⟨text, plain, compact, compact', chars, chars'⟩ := exists_compact_bare chain
  refine ⟨normalize [] text, plain, ?_, compact', ?_⟩
  · rw [render, compact]
    rfl
  have lower : (replace plain " AND " " and ").toList = lowerWord plain.toList :=
    String.toList_ofList
  have marks : '\x60' ∈ text.toList ↔
      ∃ comparison ∈ chain.items, '\x60' ∈ comparison.literal.value.toList := by
    rw [chars, mark_mem_tied (by decide)
      (List.forall_mem_map.mpr fun c _ => c.mark_notMem_written)]
    simp [LiteralComparison.written]
  have marks' : '\x60' ∈ plain.toList ↔
      ∃ comparison ∈ chain.items, '\x60' ∈ comparison.literal.value.toList := by
    rw [chars', mark_mem_tied (by decide)
      (List.forall_mem_map.mpr fun c _ => c.withoutCharset.mark_notMem_written)]
    simp
  have leaves {β : Type} {f : Char → β} (hname : f '\x27' ≠ f '_') (hX : f '\x27' ≠ f 'X') :
      (dropCharsets text.toList).map f = plain.toList.map f ↔
        LiteralComparison.keepsLiterals chain.items = true := by
    rw [chars, chars']
    exact LiteralComparison.map_dropCharsetsFrom_tied hname hX false (by decide) chain.items
  rw [← String.toList_inj, toList_normalize_nil, lower]
  constructor
  · intro same
    have unmarked : '\x60' ∉ plain.toList := fun mark => lowerWord_ne_of_mark _ mark same
    rw [dropMarks_of_notMem (mt (marks'.mpr ∘ marks.mp) unmarked)] at same
    -- the word in lower case hides no difference between a quote and a letter or an underscore
    refine ⟨?_, (leaves (by decide) (by decide)).mp (map_lowered_eq same)⟩
    exact fun comparison m mark => unmarked (marks'.mpr ⟨comparison, m, mark⟩)
  · rintro ⟨none, kept⟩
    have unmarked : '\x60' ∉ text.toList := by
      intro mark
      obtain ⟨comparison, m, mark⟩ := marks.mp mark
      exact none comparison m mark
    have same := (leaves (f := id) (by decide) (by decide)).mpr kept
    rw [List.map_id, List.map_id] at same
    rw [dropMarks_of_notMem unmarked, same]

/-- The condition `code=_utf8X'4D'`. -/
def hexBehindCharset : Conjunction LiteralComparison :=
  .single ⟨none, ⟨"code", by decide⟩, .eq, some ⟨"_utf8", by decide⟩, .hex "4D" (by decide)⟩

/-- Not every filter is the text of the bare literals: the letter of a hexadecimal literal goes with
its character set. -/
theorem not_forall_render_eq_bare : ¬∀ chain : Conjunction LiteralComparison, ∀ filter plain,
    (∀ comparison ∈ chain.items, '\x60' ∉ comparison.literal.value.toList ∧
      ¬" AND ".toList <:+: comparison.literal.value.toList) →
    render [] (chain.toExpr LiteralComparison.toExpr) = .ok filter →
    (bare (chain.toExpr LiteralComparison.toExpr)).compact = .ok plain →
    filter = replace plain " AND " " and " := by
  intro all
  have h := all hexBehindCharset "code='4D'" "code=X'4D'" (by decide) rfl rfl
  exact absurd h (by decide)

end SqlFootprint.Filter
