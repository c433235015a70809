import SqlFootprint.Proofs.Sql.Agreement

/-! # Operands of twins

A word that is no name there starts a form of its own, and every other operand is a value, a name or
stands in parentheses. Twins are read as operands of the same shape (`alike_operandStart`). -/

namespace SqlFootprint.Sql.Parser

variable {α β : Type} {g : Grammar} {x : Slot}

/-! ## Words -/

theorem alike_choice (alike : IsAlike g) : Alike SameShape (choice g) (choice g) := by
  have arm : Alike Whatever
      (do let condition ← g.full
          keyword "THEN"
          return ⟨condition, ← g.full⟩ : Parser CaseArm)
      (do let condition ← g.full
          keyword "THEN"
          return ⟨condition, ← g.full⟩) :=
    (alike.expr 0).bind fun _ _ _ => (alike_keyword (by decide)).bindEq fun _ =>
      (alike.expr 0).bind fun _ _ _ => .pure trivial
  have arms (f f' : List CaseArm → Option Expr → Expr)
      (h : ∀ as bs a b, SameShape (f as a) (f' bs b)) : Alike SameShape
      (do let first ← (do
            let condition ← g.full
            keyword "THEN"
            return ⟨condition, ← g.full⟩ : Parser CaseArm)
          let others ← many (after? "WHEN" (do
            let condition ← g.full
            keyword "THEN"
            return ⟨condition, ← g.full⟩ : Parser CaseArm))
          let otherwise ← exprAfter? g "ELSE"
          keyword "END"
          return f (first :: others) otherwise)
      (do let first ← (do
            let condition ← g.full
            keyword "THEN"
            return ⟨condition, ← g.full⟩ : Parser CaseArm)
          let others ← many (after? "WHEN" (do
            let condition ← g.full
            keyword "THEN"
            return ⟨condition, ← g.full⟩ : Parser CaseArm))
          let otherwise ← exprAfter? g "ELSE"
          keyword "END"
          return f' (first :: others) otherwise) :=
    arm.bind fun _ _ _ => (Alike.after? (by decide) arm).many.bind fun _ _ _ =>
      (Alike.after? (by decide) (alike.expr 0)).bind fun _ _ _ =>
      (alike_keyword (by decide)).bindEq fun _ => .pure (h _ _ _ _)
  exact .ifKeyword (by decide) (arms _ _ fun _ _ _ _ => rfl)
    ((alike.expr 0).bind fun _ _ _ => (alike_keyword (by decide)).bindEq fun _ =>
      arms _ _ fun _ _ _ _ => rfl)

theorem alike_negation (alike : IsAlike g) : Alike SameShape (negation g) (negation g) := by
  have noRows : ∀ y : Slot, y.IsName → AlikeAt y SameShape (existsRow g true) (existsRow g true) :=
    fun y name => .of_stops name.isEnd fun tokens stops => (stops.parens_fails _).bind
  exact fun x => .ifWord (by decide) noRows
    (((alike.expr _).bind fun _ _ same => .pure (same.unary .not)) x)

/-- A look for a parenthesis, which does not stand behind an operand. -/
theorem AlikeAt.lookParen {S : β → β → Prop} {f f' : Bool → Parser β}
    (h : ∀ ahead, (x.IsEnd → ahead = false) → AlikeAt x S (f ahead) (f' ahead)) :
    AlikeAt x S (isSign .leftParen >>= f) (isSign .leftParen >>= f') := by
  intro tokens others twins
  have agree := alike_isSign (by decide : Sign.IsSure .leftParen) x twins
  generalize found : isSign .leftParen tokens = first at agree
  generalize foundOther : isSign .leftParen others = second at agree
  cases agree with
  | ok related =>
    cases related
    cases isSign_eq_ok found
    cases isSign_eq_ok foundOther
    rw [bind_ok found, bind_ok foundOther]
    refine h _ (fun ends => ?_) twins
    have none := (stopsOperand_of_isEnd ends twins).1.isSign_leftParen
    cases found.symm.trans none
    rfl
  | tooDeep => nomatch found
  | error => nomatch found

theorem fullText_fails {tokens : List Lexeme} (stops : StopsOperand tokens) :
    Fails fullText tokens :=
  Fails.bind (.behind stops.isSign_leftParen (.bind (.expected _ _)))

/-- A word means the same as a keyword on both sides. -/
theorem alike_keywordExpr? (alike : IsAlike g) {id other : Ident}
    (twin : x.Twin (.word id) (.word other)) {ahead : Bool} (closed : x.IsEnd → ahead = false) :
    Option.Rel (AlikeAt x SameShape) (keywordExpr? g id ahead) (keywordExpr? g other ahead) := by
  have sole (name : x.IsName) (free : id.keyword ≠ "INTERVAL") :
      Option.Rel (AlikeAt x SameShape) (keywordExpr? g id ahead) (keywordExpr? g id ahead) := by
    obtain rfl := closed name.isEnd
    have inParens (p : Parser Expr) : AlikeAt x SameShape (parens p) (parens p) :=
      .of_stops name.isEnd fun tokens stops => stops.parens_fails p
    unfold keywordExpr?
    generalize id.keyword = word at free
    split
    · exact .some (.pure rfl)
    · exact .some (.pure rfl)
    · exact .some (.pure rfl)
    iterate 5 exact .some (.skipParen name.isEnd (.pure rfl))
    · exact .some (alike_choice alike x)
    iterate 4 exact .some (inParens _)
    · exact .some (.of_stops name.isEnd fun tokens stops => (stops.parens_fails _).bind)
    iterate 3 exact .some (inParens _)
    · exact .none
    iterate 4 exact .some (inParens _)
    · exact absurd rfl free
    · exact .some (alike_negation alike x)
    · exact .some (.of_stops name.isEnd fun tokens stops => fullText_fails stops)
    · exact .none
  cases twin with
  | name id free => exact sole trivial free
  | part id free => exact sole trivial free
  | word same sameOther is =>
    have mem := Slot.keyword_mem_placeWords is
    unfold keywordExpr?
    rw [same, sameOther]
    generalize x.keyword = word at mem
    simp only [Slot.placeWords, Slot.behindWords, List.cons_append, List.nil_append, List.mem_cons,
      List.not_mem_nil, or_false] at mem
    rcases mem with rfl | rfl | rfl | rfl | rfl | rfl | rfl | rfl | rfl | rfl | rfl | rfl | rfl |
      rfl
    iterate 3 exact .some (.pure rfl)
    iterate 7 exact .none
    · exact .some (alike_negation alike x)
    iterate 3 exact .none

/-- The word of a place names no character set. -/
theorem startsWith_eq_false {id : Ident} (mem : id.keyword ∈ Slot.placeWords) :
    id.value.startsWith "_" = false := by
  rw [String.startsWith_string_eq_false_iff]
  intro starts
  obtain ⟨rest, same⟩ := starts
  have plain : ∀ word ∈ Slot.placeWords, word.toList.head? ≠ some '_' := by decide
  refine plain _ mem ?_
  obtain ⟨value, mark⟩ := id
  cases mark with
  | none =>
    have same : '_' :: rest = value.toList := same
    have keyword :
        (Ident.mk value none).keyword = String.ofList (value.toList.flatMap capitals) := rfl
    rw [keyword, ← same]
    simp [capitals]
  | some mark => exact absurd mem (show "" ∉ Slot.placeWords by decide)

theorem nameExpr_sign {id : Ident} {s : Sign} {start : Position} {rest : List Lexeme}
    (other : s ≠ .leftParen) :
    nameExpr g id (⟨.sign s, start⟩ :: rest) = .ok (.name id, ⟨.sign s, start⟩ :: rest) := by
  cases s with
  | leftParen => exact absurd rfl other
  | _ => rfl

theorem nameExpr_literal {id : Ident} {value : Literal} {start : Position} {rest : List Lexeme}
    (plain : id.value.startsWith "_" = false) :
    nameExpr g id (⟨.literal value, start⟩ :: rest) =
      .ok (.name id, ⟨.literal value, start⟩ :: rest) := by
  cases value with
  | text kind value =>
    unfold nameExpr
    rw [plain]
    rfl
  | _ => rfl

theorem alike_nameExpr (alike : IsAlike g) {id other : Ident}
    (twin : x.Twin (.word id) (.word other)) :
    AlikeAt x SameShape (nameExpr g id) (nameExpr g other) := by
  intro tokens others twins
  have whole := twins
  have call := alike_call alike [id] [other] x whole
  have plain {y : Slot} (precedes : x.Precedes y) (inside : ¬ (y.IsBehind ∨ y = .period)) :
      id.value.startsWith "_" = false ∧ other.value.startsWith "_" = false := by
    cases twin with
    | name id => exact absurd (Slot.IsEnd.behind (by trivial) precedes) inside
    | part id => exact absurd (Slot.IsEnd.behind (by trivial) precedes) inside
    | word same sameOther is =>
      have mem := Slot.keyword_mem_placeWords is
      exact ⟨startsWith_eq_false (same ▸ mem), startsWith_eq_false (sameOther ▸ mem)⟩
  cases twins with
  | nil => exact .ok rfl whole
  | parameter _ marks => obtain rfl | rfl := marks <;> exact .ok rfl whole
  | cons precedes _ behind twins =>
    cases behind with
    | @sign _ s t has hasOther =>
      have same := has.eq_iff hasOther (by decide : Sign.IsSure .leftParen)
      by_cases paren : s = .leftParen
      · obtain rfl := paren
        obtain rfl := same.mp rfl
        exact call
      · rw [nameExpr_sign paren, nameExpr_sign (mt same.mpr paren)]
        exact .ok rfl whole
    | value literal =>
      obtain ⟨first, second⟩ := plain precedes fun inside => (inside.resolve_right nofun).elim
      rw [nameExpr_literal first, nameExpr_literal second]
      exact .ok rfl whole
    | quotedPart value =>
      obtain ⟨first, second⟩ := plain precedes fun inside => (inside.resolve_right nofun).elim
      rw [nameExpr_literal first, nameExpr_literal second]
      exact .ok rfl whole
    | _ => exact .ok rfl whole

theorem alike_wordExpr (alike : IsAlike g) {id other : Ident}
    (twin : x.Twin (.word id) (.word other)) :
    AlikeAt x SameShape (wordExpr g id) (wordExpr g other) := by
  refine .lookParen fun ahead closed => ?_
  have forms := alike_keywordExpr? alike twin closed
  generalize keywordExpr? g id ahead = form at forms
  generalize keywordExpr? g other ahead = otherForm at forms
  cases forms with
  | none => exact alike_nameExpr alike twin
  | some form =>
    have same : id.keyword = other.keyword := twin.keyword_eq
    dsimp only
    rw [← same]
    split
    · exact form
    · exact form.preferring (alike_nameExpr alike twin)

/-! ## Operands -/

theorem isQueryAhead_run (tokens : List Lexeme) :
    isQueryAhead tokens = .ok (["SELECT", "WITH"].contains (headKeyword tokens), tokens) := by
  cases tokens <;> rfl

/-- What is read in parentheses in which no query stands. -/
def parenItems (g : Grammar) : Parser Expr := do
  let e ← match ← commaList g.full with
    | [inner] => pure (Expr.nested inner)
    | items => pure (.tuple items)
  sign .rightParen
  return e

theorem alike_parenExpr (alike : IsAlike g) :
    AlikeAt .leftParen SameShape (parenExpr g) (parenExpr g) := by
  have close (e f : Expr) (same : SameShape e f) : Alike SameShape
      (do sign .rightParen; return e) (do sign .rightParen; return f) :=
    (alike_sign (by decide)).bindEq fun _ => .pure same
  have items : Alike SameShape (parenItems g) (parenItems g) := by
    refine (alike.expr 0).commaList.bind fun es fs related => ?_
    cases related with
    | nil => exact close _ _ rfl
    | cons first more =>
      cases more with
      | nil => exact close _ _ first.nested
      | cons => exact close _ _ rfl
  intro tokens others twins
  have absent : ["SELECT", "WITH"].contains (headKeyword tokens) = false := by
    simpa using headKeyword_leftParen twins
  have first := isQueryAhead_run tokens
  have second := isQueryAhead_run others
  rw [absent] at first
  rw [← headKeyword_eq twins, absent] at second
  unfold parenExpr
  rw [bind_ok first, bind_ok second]
  exact items _ twins

theorem alike_operandStart (alike : IsAlike g) :
    Alike SameShape (operandStart g) (operandStart g) := by
  refine (alike_typedLiteral (R := fun _ _ => False)).attempt.bind fun typed other related => ?_
  cases related with
  | some never => exact never.elim
  | none =>
    intro x tokens others twins
    have whole := twins
    have value : Agree SameShape ((do return .literal (← literal) : Parser Expr) tokens)
        ((do return .literal (← literal) : Parser Expr) others) :=
      (alike_literal.bind fun a b _ =>
        .pure (show SameShape (.literal a) (.literal b) from rfl)) x whole
    cases twins with
    | nil => exact .error nofun nofun
    | parameter _ marks => obtain rfl | rfl := marks <;> exact value
    | @cons _ y _ _ _ _ _ _ _ _ twin twins =>
      cases twin with
      | name id free => exact alike_wordExpr alike (.name id free) twins
      | part id free => exact alike_wordExpr alike (.part id free) twins
      | word same sameOther is => exact alike_wordExpr alike (.word same sameOther is) twins
      | value => exact .ok rfl twins
      | quotedPart => exact .ok rfl twins
      | @sign _ s t has hasOther =>
        obtain rfl | ⟨equality, otherEquality⟩ := has.unique hasOther
        · cases s with
          | minus => exact ((alike.expr _).bind fun _ _ same => .pure (same.unary .minus)) y twins
          | plus => exact ((alike.expr _).bind fun _ _ same => .pure (same.unary .plus)) y twins
          | leftParen =>
            obtain rfl := Slot.eq_leftParen has
            exact alike_parenExpr alike twins
          | colon => exact absurd (.inl rfl) (ne_mark_of_hasSign has)
          | atSign => exact absurd (.inr rfl) (ne_mark_of_hasSign has)
          | _ => exact .error nofun nofun
        · simp only [List.mem_cons, List.not_mem_nil, or_false] at equality otherEquality
          obtain rfl | rfl := equality <;> obtain rfl | rfl := otherEquality <;>
            exact .error nofun nofun

end SqlFootprint.Sql.Parser
