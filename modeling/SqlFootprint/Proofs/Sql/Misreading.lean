import SqlFootprint.Proofs.Sql.RoundTrip

/-! # Conditions that are read otherwise

The compact text of a condition is not always read as that condition. It leaves out the word ANY
(`Expr.compact_withoutAny`), and for each other requirement on a condition that is read back there
is a text that does not meet it and is read otherwise (`forall_readsOtherwise`). -/

namespace SqlFootprint.Sql

/-! ## The word ANY -/

mutual

/-- The expression with every test for any of several patterns as a test for one pattern, as far as
it is reached through operands. -/
def Expr.withoutAny : Expr → Expr
  | .introduced charset value => .introduced charset value.withoutAny
  | .binary left op right => .binary left.withoutAny op right.withoutAny
  | .unary op arg => .unary op arg.withoutAny
  | .nested inner => .nested inner.withoutAny
  | .isTest arg negated .null => .isTest arg.withoutAny negated .null
  | .isTest arg false .true => .isTest arg.withoutAny false .true
  | .isTest arg false .false => .isTest arg.withoutAny false .false
  | .inList arg negated items => .inList arg.withoutAny negated (itemsWithoutAny items)
  | .inQuery arg negated body => .inQuery arg.withoutAny negated body
  | .between arg negated low high =>
    .between arg.withoutAny negated low.withoutAny high.withoutAny
  | .like arg negated .like _ pattern none =>
    .like arg.withoutAny negated .like false pattern.withoutAny none
  | other => other
termination_by structural e => e

/-- Expressions with every test for any of several patterns as a test for one pattern. -/
def itemsWithoutAny : List Expr → List Expr
  | [] => []
  | e :: es => e.withoutAny :: itemsWithoutAny es
termination_by structural es => es

end

mutual

/-- The compact text leaves out the word ANY. -/
theorem Expr.compact_withoutAny (e : Expr) : e.withoutAny.compact = e.compact := by
  cases e with
  | introduced charset value =>
    rw [Expr.withoutAny, Expr.compact, Expr.compact, value.compact_withoutAny]
  | binary left op right =>
    rw [Expr.withoutAny, Expr.compact, Expr.compact, left.compact_withoutAny,
      right.compact_withoutAny]
  | unary op arg => rw [Expr.withoutAny, Expr.compact, Expr.compact, arg.compact_withoutAny]
  | nested inner => rw [Expr.withoutAny, Expr.compact, Expr.compact, inner.compact_withoutAny]
  | isTest arg negated truth =>
    have arg := arg.compact_withoutAny
    cases truth with
    | null => rw [Expr.withoutAny, Expr.compact, Expr.compact, arg]
    | true =>
      cases negated with
      | false => rw [Expr.withoutAny, Expr.compact, Expr.compact, arg]
      | true => rfl
    | false =>
      cases negated with
      | false => rw [Expr.withoutAny, Expr.compact, Expr.compact, arg]
      | true => rfl
    | unknown => cases negated <;> rfl
  | inList arg negated items =>
    rw [Expr.withoutAny, Expr.compact, Expr.compact, arg.compact_withoutAny,
      compactItems_withoutAny items]
  | inQuery arg negated body =>
    rw [Expr.withoutAny, Expr.compact, Expr.compact, arg.compact_withoutAny]
  | between arg negated low high =>
    rw [Expr.withoutAny, Expr.compact, Expr.compact, arg.compact_withoutAny, low.compact_withoutAny,
      high.compact_withoutAny]
  | like arg negated op any pattern escape =>
    have arg := arg.compact_withoutAny
    have pattern := pattern.compact_withoutAny
    cases op with
    | ilike | similarTo => rfl
    | like =>
      cases escape with
      | some c => rfl
      | none => rw [Expr.withoutAny, Expr.compact, Expr.compact, arg, pattern]
  | _ => rfl
termination_by structural e

/-- So do the compact texts of several expressions. -/
theorem compactItems_withoutAny :
    (es : List Expr) → compactItems (itemsWithoutAny es) = compactItems es
  | [] => rfl
  | e :: es => by
    rw [itemsWithoutAny, compactItems, compactItems, e.compact_withoutAny,
      compactItems_withoutAny es]
termination_by structural es => es

end

/-! ## Conditions that are not read back -/

/-- Whether no backslash stands in the string value that a place may be. -/
def Slot.isUnescaped : Slot → Bool
  | .value (.text .single text) | .value (.text .double text) | .value (.text .national text) =>
      !text.toList.contains '\\'
  | _ => true

/-- The text gives a condition that is built, but for the word ANY, only from what has a compact
text of its own, without backslashes in its string values, and the compact text is not read as that
condition. -/
def ReadsOtherwise (text : String) : Prop :=
  ∃ e restored, parseExpr false text = .ok e ∧ e.withoutAny.IsOwn ∧
    (∀ slot ∈ e.slots, slot.isUnescaped = true) ∧ e.compact = .ok restored ∧
    parseExpr false restored ≠ .ok e.singleQuoted

/-- Whether a text reads otherwise, by the places and the canonical form of what is read. -/
def readsOtherwise (text : String) : Bool :=
  match parseExpr false text with
  | .error _ => false
  | .ok e => decide e.withoutAny.IsOwn && e.slots.all Slot.isUnescaped && match e.compact with
    | .error _ => false
    | .ok restored => match parseExpr false restored with
      | .error _ => true
      | .ok other =>
        other.slots ≠ e.singleQuoted.slots || other.written ≠ e.singleQuoted.written

theorem ReadsOtherwise.of_check {text : String} (check : readsOtherwise text = true) :
    ReadsOtherwise text := by
  unfold readsOtherwise at check
  split at check
  case h_1 => nomatch check
  case h_2 e parsed =>
    rw [Bool.and_eq_true, Bool.and_eq_true, decide_eq_true_eq, List.all_eq_true] at check
    obtain ⟨⟨own, unescaped⟩, check⟩ := check
    split at check
    case h_1 => nomatch check
    case h_2 restored written =>
      refine ⟨e, restored, parsed, own, unescaped, written, fun again => ?_⟩
      rw [again] at check
      simp at check

/-- Each requirement on a condition that is read back is needed. The texts have, in this order, a
sign that takes an at sign behind it (two texts), a parameter whose name needs backquotes (two), a
quote mark or a backslash in the digits of a hexadecimal or bit literal (four), a quoted name with
marks that are not all doubled or with a backslash (three), a period in front of an underscore or a
digit (two), a name at which a query is tried, and the word ANY. -/
theorem forall_readsOtherwise :
    ["a < @v", "a ^ @v", "@\x60v\x60 = 1", ":\x60a b\x60 = 1", "x'4''d' = a", "x'4\\\\d' = a",
      "b'1''0' = a", "b\"1\"\"0\" = a", "\x60a\x60\x60\x60\x60b\x60 = 1", "a.'b''''c' = 1",
      "a.'b\\\\c' = 1", "a.'b'. _c = 1", "a.'b'. 1c = 1",
      "a IN (select OR from AND NOT (N'x'))", "a LIKE ANY ('x')"].Forall ReadsOtherwise := by
  refine List.forall_iff_forall_mem.mpr fun text mem => .of_check ?_
  revert text
  decide +kernel

end SqlFootprint.Sql
