import Mathlib.Data.List.Lex
import SqlFootprint.Filter.Normal

/-! # Stars in conditions

A star has no text as a filter, and neither has an expression that is put together from one. The
operands of an expression are what its compact text is put together from, from left to right and
with fixed words around them (`exists_compact_eq_weave`); what is written in canonical form has
none. So a condition has no text exactly if it reaches a star through operands
(`fails_iff_reachesStar`), and the error tells the leftmost one (`compact_eq_error_iff`). -/

namespace SqlFootprint.Sql

/-! ## Operands -/

/-- Whether an expression is a star: all columns, or all columns of one table. -/
def Expr.isStar : Expr → Bool
  | .wildcard | .tableWildcard _ => true
  | _ => false

/-- The parts of an expression that stand in its compact text in compact form, from left to right.
An expression that is written in canonical form has none. -/
def Expr.operands : Expr → List Expr
  | .binary left _ right => [left, right]
  | .introduced _ arg | .unary _ arg | .nested arg | .inQuery arg _ _ => [arg]
  | .isTest arg _ .null | .isTest arg false .true | .isTest arg false .false => [arg]
  | .inList arg _ items => arg :: items
  | .between arg _ low high => [arg, low, high]
  | .like arg _ .like _ pattern none => [arg, pattern]
  | _ => []

/-- The operands of an expression are smaller. -/
theorem Expr.sizeOf_operands (e : Expr) : ∀ operand ∈ e.operands, sizeOf operand < sizeOf e := by
  unfold operands
  split <;> simp <;> try omega
  -- what is left are the items of a list
  refine ⟨by omega, fun item m => ?_⟩
  have := List.sizeOf_lt_of_mem m
  omega

/-- A star has no operands. -/
theorem Expr.isStar_eq_false {e : Expr} (h : e.operands ≠ []) : e.isStar = false := by
  cases e with
  | wildcard => exact absurd rfl h
  | tableWildcard parts => exact absurd rfl h
  | _ => rfl

/-! ## Texts of several expressions -/

section

variable {f : Expr → Except RestoreError String} {es : List Expr}

/-- Every expression has one text. -/
theorem length_of_mapM {texts : List String} (h : es.mapM f = .ok texts) :
    texts.length = es.length := by
  induction es generalizing texts with
  | nil =>
    obtain rfl : [] = texts := Except.ok.inj h
    rfl
  | cons e es ih =>
    rw [List.mapM_cons] at h
    cases here : f e with
    | error error =>
      rw [here] at h
      cases h
    | ok text =>
      cases later : es.mapM f with
      | error error =>
        rw [here, later] at h
        cases h
      | ok others =>
        rw [here, later] at h
        obtain rfl : text :: others = texts := Except.ok.inj h
        rw [List.length_cons, ih later, List.length_cons]

/-- Expressions of which one has no text have none. -/
theorem exists_mapM_eq_error {e : Expr} (m : e ∈ es) {error : RestoreError}
    (h : f e = .error error) : ∃ first, es.mapM f = .error first := by
  induction es with
  | nil => cases m
  | cons other es ih =>
    rw [List.mapM_cons]
    cases here : f other with
    | error first => exact ⟨first, rfl⟩
    | ok text =>
      rcases List.mem_cons.mp m with rfl | m
      · cases h.symm.trans here
      · obtain ⟨first, later⟩ := ih m
        exact ⟨first, by rw [later]; rfl⟩

/-- The error of several expressions is that of the first one without a text. -/
theorem exists_of_mapM_eq_error {error : RestoreError} (h : es.mapM f = .error error) :
    ∃ (n : Nat) (e : Expr), es[n]? = some e ∧ f e = .error error ∧
      ∀ m < n, ∀ other, es[m]? = some other → ∃ text, f other = .ok text := by
  induction es with
  | nil => cases h
  | cons e es ih =>
    rw [List.mapM_cons] at h
    cases here : f e with
    | error first =>
      rw [here] at h
      obtain rfl : first = error := Except.error.inj h
      exact ⟨0, e, rfl, here, fun m lt => absurd lt (Nat.not_lt_zero m)⟩
    | ok text =>
      cases later : es.mapM f with
      | ok texts =>
        rw [here, later] at h
        cases h
      | error last =>
        rw [here, later] at h
        obtain rfl : last = error := Except.error.inj h
        obtain ⟨n, other, stands, fails, fine⟩ := ih later
        refine ⟨n + 1, other, stands, fails, fun m lt before found => ?_⟩
        cases m with
        | zero =>
          obtain rfl : e = before := Option.some.inj found
          exact ⟨text, here⟩
        | succ m => exact fine m (Nat.lt_of_succ_lt_succ lt) before found

end

/-! ## Texts between words -/

/-- Texts between words: `first`, and then each text with the word behind it. -/
def weave (first : String) (behind texts : List String) : String :=
  first ++ String.join (List.zipWith (· ++ ·) texts behind)

/-- The words behind the operand of a list and behind its items; `ahead` stands in front of the
items. -/
def listWords (ahead : String) : List Expr → List String
  | [] => [ahead ++ ")"]
  | _ :: items => ahead :: (List.replicate items.length "," ++ [")"])

theorem length_listWords (ahead : String) (items : List Expr) :
    (listWords ahead items).length = items.length + 1 := by
  cases items <;> simp [listWords]

/-- Items with commas between them and a parenthesis behind the last. -/
theorem join_zipWith_commas (text : String) (texts : List String) :
    String.join (List.zipWith (· ++ ·) (text :: texts)
      (List.replicate texts.length "," ++ [")"])) = ",".intercalate (text :: texts) ++ ")" := by
  induction texts generalizing text with
  | nil => simp
  | cons other texts ih =>
    rw [List.length_cons, List.replicate_succ, List.cons_append, List.zipWith_cons_cons,
      String.join_cons, ih, String.intercalate_cons_cons, String.append_assoc, String.append_assoc,
      String.append_assoc]

/-- The text of a list behind its operand. -/
theorem weave_listWords (ahead text : String) {items : List Expr} {texts : List String}
    (size : texts.length = items.length) :
    weave "" (listWords ahead items) (text :: texts) =
      text ++ ahead ++ ",".intercalate texts ++ ")" := by
  cases items with
  | nil =>
    obtain rfl := List.length_eq_zero_iff.mp size
    simp [weave, listWords, String.join, String.append_assoc]
  | cons item items =>
    cases texts with
    | nil => cases size
    | cons first texts =>
      obtain size : texts.length = items.length := Nat.succ.inj size
      rw [weave, listWords, List.zipWith_cons_cons, String.join_cons, ← size, join_zipWith_commas,
        String.empty_append, String.append_assoc, String.append_assoc, String.append_assoc]

theorem compactItems_eq_mapM (items : List Expr) :
    compactItems items = items.mapM Expr.compact := by
  induction items with
  | nil => rfl
  | cons e es ih => rw [compactItems, List.mapM_cons, ih]

/-- The compact text of an expression that is no star is made of the texts of its operands, with
fixed words around them; it has none if one of them has none. -/
theorem exists_compact_eq_weave {e : Expr} (h : e.isStar = false) :
    ∃ first behind, behind.length = e.operands.length ∧
      e.compact = weave first behind <$> e.operands.mapM Expr.compact := by
  -- a form with no operands has all of its text in front
  have closed (text : String) (none : e.operands = []) (eq : e.compact = .ok text) :
      ∃ first behind, behind.length = e.operands.length ∧
        e.compact = weave first behind <$> e.operands.mapM Expr.compact :=
    ⟨text, [], by rw [none]; rfl, by
      rw [none, eq]
      simp [weave, pure, Except.pure, Functor.map, Except.map]⟩
  cases e with
  | wildcard => cases h
  | tableWildcard parts => cases h
  | binary left op right =>
    refine ⟨"", [op.compact, ""], rfl, ?_⟩
    simp [Expr.compact, Expr.operands, weave, String.join]
  | introduced charset value =>
    refine ⟨charset.written, [""], rfl, ?_⟩
    simp [Expr.compact, Expr.operands, weave, String.join]
  | unary op arg =>
    refine ⟨op.written, [""], rfl, ?_⟩
    simp [Expr.compact, Expr.operands, weave, String.join]
  | nested inner =>
    refine ⟨"(", [")"], rfl, ?_⟩
    simp [Expr.compact, Expr.operands, weave, String.join, String.append_assoc]
  | isTest arg negated truth =>
    cases truth with
    | null =>
      refine ⟨"", [" IS " ++ notWord negated ++ "NULL"], rfl, ?_⟩
      simp [Expr.compact, Expr.operands, weave, String.join, String.append_assoc]
    | unknown => cases negated <;> exact closed _ rfl rfl
    | true =>
      cases negated with
      | true => exact closed _ rfl rfl
      | false =>
        refine ⟨"", [" IS TRUE"], rfl, ?_⟩
        simp [Expr.compact, Expr.operands, weave, String.join]
    | false =>
      cases negated with
      | true => exact closed _ rfl rfl
      | false =>
        refine ⟨"", [" IS FALSE"], rfl, ?_⟩
        simp [Expr.compact, Expr.operands, weave, String.join]
  | inList arg negated items =>
    refine ⟨"", listWords (" " ++ notWord negated ++ "IN (") items, length_listWords _ items, ?_⟩
    rw [Expr.compact, Expr.operands, List.mapM_cons, ← compactItems_eq_mapM]
    cases arg.compact with
    | error error => rfl
    | ok text =>
      cases found : compactItems items with
      | error error => rfl
      | ok texts =>
        have size := length_of_mapM ((compactItems_eq_mapM items).symm.trans found)
        change Except.ok _ = Except.ok _
        rw [weave_listWords _ _ size, ← String.append_assoc, ← String.append_assoc]
  | inQuery arg negated body =>
    refine ⟨"", [" " ++ notWord negated ++ "IN (" ++ body.written ++ ")"], rfl, ?_⟩
    simp [Expr.compact, Expr.operands, weave, String.join, String.append_assoc]
  | between arg negated low high =>
    refine ⟨"", [" " ++ notWord negated ++ "BETWEEN ", " AND ", ""], rfl, ?_⟩
    simp [Expr.compact, Expr.operands, weave, String.join, String.append_assoc]
  | like arg negated op any pattern escape =>
    cases op with
    | ilike => exact closed _ rfl rfl
    | similarTo => exact closed _ rfl rfl
    | like =>
      cases escape with
      | some c => exact closed _ rfl rfl
      | none =>
        refine ⟨"", [" " ++ notWord negated ++ "LIKE ", ""], rfl, ?_⟩
        simp [Expr.compact, Expr.operands, weave, String.join, String.append_assoc]
  | _ => exact closed _ rfl rfl

/-- Of an expression that is no star, an error is that of its first operand without a text. -/
theorem exists_operand_of_error {e : Expr} (h : e.isStar = false) {error : RestoreError}
    (fails : e.compact = .error error) :
    ∃ (n : Nat) (operand : Expr), e.operands[n]? = some operand ∧ operand.compact = .error error ∧
      ∀ m < n, ∀ other, e.operands[m]? = some other → ∃ text, other.compact = .ok text := by
  obtain ⟨first, behind, -, eq⟩ := exists_compact_eq_weave h
  cases all : e.operands.mapM Expr.compact with
  | error last =>
    rw [eq, all] at fails
    obtain rfl : last = error := Except.error.inj fails
    exact exists_of_mapM_eq_error all
  | ok texts =>
    rw [eq, all] at fails
    cases fails

/-- An expression with an operand without a text has none. -/
theorem exists_error_of_operand {e operand : Expr} (m : operand ∈ e.operands)
    {error : RestoreError} (h : operand.compact = .error error) :
    ∃ first, e.compact = .error first := by
  obtain ⟨words, behind, -, eq⟩ :=
    exists_compact_eq_weave (Expr.isStar_eq_false (List.ne_nil_of_mem m))
  obtain ⟨first, fails⟩ := exists_mapM_eq_error m h
  exact ⟨first, by rw [eq, fails]; rfl⟩

/-! ## Places -/

/-- An expression stands at a place in another one, reached through operands. The place tells at
each step how many operands are passed over. -/
inductive StandsAt (inner : Expr) : (place : List Nat) → Expr → Prop where
  /-- An expression stands in itself. -/
  | here : StandsAt inner [] inner
  /-- What stands in an operand stands behind the operands before it. -/
  | inOperand {n : Nat} {place : List Nat} {operand e : Expr}
      (found : e.operands[n]? = some operand) (h : StandsAt inner place operand) :
      StandsAt inner (n :: place) e

/-- At one place stands one expression. -/
theorem StandsAt.unique {inner other e : Expr} {place : List Nat} (h : StandsAt inner place e)
    (h' : StandsAt other place e) : inner = other := by
  induction h with
  | here =>
    cases h'
    rfl
  | inOperand found _ ih =>
    cases h' with
    | inOperand found' h' =>
      obtain rfl := Option.some.inj (found.symm.trans found')
      exact ih h'

/-- Whether a star is reached through operands. -/
def Expr.ReachesStar (e : Expr) : Prop :=
  ∃ star place, star.isStar = true ∧ StandsAt star place e

/-- The star that comes first among the stars reached through operands, from left to right. -/
def Expr.IsLeftmostStar (e star : Expr) : Prop :=
  star.isStar = true ∧ ∃ place, StandsAt star place e ∧
    ∀ other elsewhere, other.isStar = true → StandsAt other elsewhere e →
      place = elsewhere ∨ List.Lex (· < ·) place elsewhere

/-- There is only one leftmost star. -/
theorem Expr.IsLeftmostStar.unique {e star other : Expr} (h : e.IsLeftmostStar star)
    (h' : e.IsLeftmostStar other) : star = other := by
  obtain ⟨isStar, place, stands, least⟩ := h
  obtain ⟨isStar', elsewhere, stands', least'⟩ := h'
  rcases least other elsewhere isStar' stands' with rfl | lt
  · exact stands.unique stands'
  · rcases least' star place isStar stands with rfl | gt
    · exact stands.unique stands'
    · exact absurd gt (asymm lt)

/-! ## Errors -/

/-- A star has no text. -/
theorem compact_of_isStar {star : Expr} (h : star.isStar = true) :
    star.compact = .error (.unsupported star.written) := by
  cases star with
  | wildcard => rfl
  | tableWildcard parts => rfl
  | _ => cases h

/-- An expression that reaches a star has no text. -/
theorem exists_error_of_standsAt {star e : Expr} {place : List Nat} (isStar : star.isStar = true)
    (h : StandsAt star place e) : ∃ error, e.compact = .error error := by
  induction h with
  | here => exact ⟨_, compact_of_isStar isStar⟩
  | inOperand found _ ih =>
    obtain ⟨error, fails⟩ := ih
    exact exists_error_of_operand (List.mem_of_getElem? found) fails

/-- An expression without a text has a leftmost star, which the error tells. -/
theorem exists_leftmostStar {e : Expr} {error : RestoreError} (h : e.compact = .error error) :
    ∃ star, e.IsLeftmostStar star ∧ error = .unsupported star.written := by
  cases isStar : e.isStar with
  | true =>
    refine ⟨e, ⟨isStar, [], .here, ?_⟩, Except.error.inj (h.symm.trans (compact_of_isStar isStar))⟩
    intro other elsewhere _ stands
    cases stands with
    | here => exact .inl rfl
    | inOperand _ _ => exact .inr .nil
  | false =>
    obtain ⟨n, operand, found, fails, fine⟩ := exists_operand_of_error isStar h
    obtain ⟨star, ⟨starry, place, stands, least⟩, told⟩ := exists_leftmostStar fails
    refine ⟨star, ⟨starry, n :: place, .inOperand found stands, ?_⟩, told⟩
    intro other elsewhere otherStar standsOther
    cases standsOther with
    | here => cases isStar.symm.trans otherStar
    | @inOperand m _ operand' _ found' inside =>
      rcases Nat.lt_trichotomy m n with lt | rfl | gt
      · -- the operands before have texts, so that none of them reaches a star
        obtain ⟨text, has⟩ := fine m lt operand' found'
        obtain ⟨error, fails'⟩ := exists_error_of_standsAt otherStar inside
        cases has.symm.trans fails'
      · obtain rfl := Option.some.inj (found.symm.trans found')
        rcases least other _ otherStar inside with rfl | lt
        · exact .inl rfl
        · exact .inr (.cons lt)
      · exact .inr (.rel gt)
termination_by sizeOf e
decreasing_by exact e.sizeOf_operands _ (List.mem_of_getElem? found)

/-- An expression has no text exactly if it reaches a star. -/
theorem exists_error_iff {e : Expr} : (∃ error, e.compact = .error error) ↔ e.ReachesStar := by
  constructor
  · rintro ⟨error, h⟩
    obtain ⟨star, ⟨isStar, place, stands, -⟩, -⟩ := exists_leftmostStar h
    exact ⟨star, place, isStar, stands⟩
  · rintro ⟨star, place, isStar, stands⟩
    exact exists_error_of_standsAt isStar stands

/-- The error tells the leftmost star. -/
theorem compact_eq_error_iff {e : Expr} {error : RestoreError} :
    e.compact = .error error ↔
      ∃ star, e.IsLeftmostStar star ∧ error = .unsupported star.written := by
  constructor
  · exact exists_leftmostStar
  · rintro ⟨star, leftmost, rfl⟩
    have ⟨isStar, place, stands, _⟩ := leftmost
    obtain ⟨error, fails⟩ := exists_error_of_standsAt isStar stands
    obtain ⟨other, leftmost', rfl⟩ := exists_leftmostStar fails
    rw [fails, leftmost'.unique leftmost]

end SqlFootprint.Sql

namespace SqlFootprint.Filter

open Sql

/-- A condition has no text as a filter exactly if it reaches a star through operands. The error
then tells the leftmost star, and the filter is empty, whatever the second names. -/
theorem fails_iff_reachesStar (e : Expr) :
    ((∃ error, e.compact = .error error) ↔ e.ReachesStar) ∧
      (∀ error, e.compact = .error error ↔
        ∃ star, e.IsLeftmostStar star ∧ error = .unsupported star.written) ∧
      (e.ReachesStar → ∀ aliases, renderOrEmpty aliases (some e) = "") ∧
      (¬e.ReachesStar → (∃ text, e.compact = .ok text) ∧ ∃ filter, render [] e = .ok filter) := by
  refine ⟨exists_error_iff, fun _ => compact_eq_error_iff, fun reaches aliases => ?_,
    fun free => ?_⟩
  · obtain ⟨error, fails⟩ := exists_error_iff.mpr reaches
    rw [renderOrEmpty, render, fails]
    rfl
  · cases found : e.compact with
    | error error => exact absurd (exists_error_iff.mp ⟨error, found⟩) free
    | ok text => exact ⟨⟨text, rfl⟩, normalize [] text, by rw [render, found]; rfl⟩

/-- The condition `a=t.* AND b IN (1,_utf8*)`. -/
def starsOfTwoTables : Expr :=
  .binary (.binary (.name ⟨"a", none⟩) .eq (.tableWildcard [⟨"t", none⟩])) .and
    (.inList (.name ⟨"b", none⟩) false
      [.literal (.number "1" false), .introduced ⟨"_utf8", none⟩ .wildcard])

/-- The condition `COUNT(*)>1`. -/
def countedRows : Expr :=
  .binary
    (.call ⟨[⟨"COUNT", none⟩], true, none, [.wildcard "" []], [], none, none, [], "", .none⟩) .gt
    (.literal (.number "1" false))

/-- The star of a table comes before the star of a list, which stands behind a character set, and a
star among the arguments of a function is none of the condition. -/
theorem fails_starsOfTwoTables :
    starsOfTwoTables.compact = .error (.unsupported "t.*") ∧
      (starsOfTwoTables.ReachesStar ∧
        ∀ aliases, renderOrEmpty aliases (some starsOfTwoTables) = "") ∧
      ¬countedRows.ReachesStar ∧ ∃ filter, render [] countedRows = .ok filter := by
  have reaches : starsOfTwoTables.ReachesStar :=
    ⟨.wildcard, [1, 2, 0], rfl,
      .inOperand (n := 1) rfl (.inOperand (n := 2) rfl (.inOperand (n := 0) rfl .here))⟩
  have free : ¬countedRows.ReachesStar := fun reaches => by
    obtain ⟨error, fails⟩ := (fails_iff_reachesStar countedRows).1.mpr reaches
    have found : countedRows.compact = .ok "COUNT(*)>1" := by decide +kernel
    cases fails.symm.trans found
  exact ⟨by decide +kernel, ⟨reaches, (fails_iff_reachesStar _).2.2.1 reaches⟩, free,
    ((fails_iff_reachesStar _).2.2.2 free).2⟩

end SqlFootprint.Filter
