import SqlFootprint.Proofs.Sql.Recognition

/-! # What the parser of names has read

The parser takes a name with periods apart and puts it together again, and an operand may turn out
to be a name only at its end. So the tokens it has read spell the places of the name as a whole. -/

namespace SqlFootprint.Sql

namespace Parser

variable {α β : Type} {g : Grammar}

/-! ## Parts of names -/

theorem exists_of_allNames?_append {parts more : List Expr} {ids : List Ident}
    (h : allNames? (parts ++ more) = some ids) :
    ∃ front back, allNames? parts = some front ∧ allNames? more = some back ∧
      ids = front ++ back := by
  induction parts generalizing ids with
  | nil => exact ⟨[], ids, rfl, h, rfl⟩
  | cons e parts ih =>
    cases e with
    | name id =>
      obtain ⟨tail, same, rfl⟩ := Option.map_eq_some_iff.mp h
      obtain ⟨front, back, first, last, rfl⟩ := ih same
      exact ⟨id :: front, back, by simp [allNames?, first], last, rfl⟩
    | _ => nomatch h

theorem allNames?_map_name (ids : List Ident) : allNames? (ids.map Expr.name) = some ids := by
  induction ids with
  | nil => rfl
  | cons id ids ih => simp [allNames?, ih]

/-- The tokens of a part of a name, or of several at once. -/
theorem spells_parts {id : Ident} {ids : List Ident} {used : List Lexeme} (start : Position)
    (spells : Spells (nameSlots (id :: ids)) used) :
    Spells ((id :: ids).flatMap fun id => [.period, .part id])
      (⟨.sign .period, start⟩ :: used) := by
  refine .cons (.sign rfl) ?_
  cases spells with
  | cons fits spells =>
    cases fits with
    | name _ free => exact .cons (.part id free) spells
    | word same is => exact absurd same is
    | sign has => exact has.elim

/-- The expressions that one step adds to the parts of a value. -/
def partsOf : Expr → List Expr
  | .access root more => root :: more
  | .dotted ids => ids.map Expr.name
  | e => [e]

/-- What one step adds to the parts of a value, if a period comes next. -/
def partGroup (g : Grammar) : Parser (Option (List Expr)) := fun tokens =>
  match tokens with
  | ⟨.sign .period, _⟩ :: ⟨.sign .star, _⟩ :: _ => .ok (none, tokens)
  | ⟨.sign .period, _⟩ :: ⟨.literal (.text .single value), _⟩ :: rest =>
    .ok (some [.name ⟨value, some .single⟩], rest)
  | ⟨.sign .period, _⟩ :: rest => (g.expr Strength.period rest).map fun (e, rest) =>
    (some (partsOf e), rest)
  | _ => .ok (none, tokens)

/-- A part that is an expression. -/
def partExpr (g : Grammar) : Parser (Option (List Expr)) := do
  let _ ← next
  match ← g.expr Strength.period with
  | .access root more => return some (root :: more)
  | .dotted ids => return some (ids.map Expr.name)
  | e => return some [e]

theorem partExpr_eq (lexeme : Lexeme) (tokens : List Lexeme) :
    partExpr g (lexeme :: tokens) = (g.expr Strength.period tokens).map fun (e, rest) =>
      (some (partsOf e), rest) := by
  change Except.bind (g.expr Strength.period tokens) _ = _
  cases g.expr Strength.period tokens with
  | error => rfl
  | ok found =>
    obtain ⟨e, rest⟩ := found
    cases e <;> rfl

theorem parts_eq (g : Grammar) :
    parts g = (do let found ← many (partGroup g); return found.flatten) := by
  unfold parts
  congr 2
  funext tokens
  rcases tokens with _ | ⟨⟨token, start⟩, tokens⟩
  · rfl
  cases token with
  | sign s =>
    by_cases period : s = .period
    · cases period
      have general := partExpr_eq (g := g) ⟨.sign .period, start⟩ tokens
      rcases tokens with _ | ⟨⟨token, start⟩, tokens⟩
      · exact general
      · cases token with
        | sign s => cases s <;> first | rfl | exact general
        | literal value =>
          cases value with
          | text kind value => cases kind <;> first | rfl | exact general
          | _ => exact general
        | _ => exact general
    · cases s <;> first | rfl | contradiction
  | _ => rfl

/-- What one step adds to the parts of a value: nothing, a name in quotes, or what an expression
behind the period stands for. -/
theorem partGroup_eq_ok {tokens rest : List Lexeme} {group : Option (List Expr)}
    (h : partGroup g tokens = .ok (group, rest)) :
    (group = none ∧ rest = tokens) ∨
      (∃ start place value, group = some [.name ⟨value, some .single⟩] ∧
        tokens = ⟨.sign .period, start⟩ :: ⟨.literal (.text .single value), place⟩ :: rest) ∨
      ∃ start e behind, group = some (partsOf e) ∧ tokens = ⟨.sign .period, start⟩ :: behind ∧
        g.expr Strength.period behind = .ok (e, rest) := by
  unfold partGroup at h
  split at h
  · cases h
    exact .inl ⟨rfl, rfl⟩
  · cases h
    exact .inr (.inl ⟨_, _, _, rfl, rfl⟩)
  · rename_i start behind _ _
    cases given : g.expr Strength.period behind with
    | error e => rw [given] at h; nomatch h
    | ok found =>
      rw [given] at h
      cases h
      exact .inr (.inr ⟨start, found.1, behind, rfl, rfl, given⟩)
  · cases h
    exact .inl ⟨rfl, rfl⟩

/-- The parts behind a value, if all of them are names. -/
theorem recognizes_parts (faithful : IsFaithful g) {tokens rest : List Lexeme} {found : List Expr}
    {ids : List Ident} (h : parts g tokens = .ok (found, rest))
    (names : allNames? found = some ids) :
    ∃ used, tokens = used ++ rest ∧ Spells (ids.flatMap fun id => [.period, .part id]) used := by
  rw [parts_eq] at h
  obtain ⟨groups, middle, run, last⟩ := bind_eq_ok.mp h
  obtain ⟨rfl, rfl⟩ := pure_eq_ok.mp last
  obtain ⟨_, _, ⟨⟩, run⟩ := bind_eq_ok.mp run
  refine manyFuel_induction (fun groups tokens rest => ∀ ids,
    allNames? groups.flatten = some ids → ∃ used, tokens = used ++ rest ∧
      Spells (ids.flatMap fun id => [.period, .part id]) used)
    ?_ ?_ ?_ _ run ids names
  · rintro tokens ids ⟨⟩
    exact ⟨[], rfl, .nil⟩
  · rintro tokens rest stop ids ⟨⟩
    obtain ⟨-, rfl⟩ | ⟨_, _, _, none, -⟩ | ⟨_, _, _, none, -⟩ := partGroup_eq_ok stop
    · exact ⟨[], rfl, .nil⟩
    · nomatch none
    · nomatch none
  · intro tokens middle rest group groups next ih ids names
    obtain ⟨front, back, namesFront, namesBack, rfl⟩ := exists_of_allNames?_append names
    suffices one : ∃ used, tokens = used ++ middle ∧
        Spells (front.flatMap fun id => [.period, .part id]) used by
      obtain ⟨used, rfl, spells⟩ := one
      obtain ⟨usedMore, rfl, spellsMore⟩ := ih back namesBack
      exact ⟨used ++ usedMore, (List.append_assoc ..).symm,
        by rw [List.flatMap_append]; exact spells.append spellsMore⟩
    obtain ⟨none, -⟩ | ⟨start, place, value, same, rfl⟩ | ⟨start, e, behind, same, rfl, given⟩ :=
      partGroup_eq_ok next
    · nomatch none
    · cases same
      cases namesFront
      exact ⟨[_, _], rfl, .cons (.sign rfl) (.cons (.quotedPart value) .nil)⟩
    · cases same
      have whole := faithful.whole _ given
      have recognized := faithful.recognizes _ given
      cases e with
      | name id =>
        cases namesFront
        obtain ⟨used, rfl, spells⟩ := recognized (.name id)
        exact ⟨_ :: used, rfl, spells_parts start spells⟩
      | dotted ids =>
        obtain rfl := Option.some.inj ((allNames?_map_name ids).symm.trans namesFront)
        cases ids with
        | nil => exact absurd rfl whole
        | cons first others =>
          obtain ⟨used, rfl, spells⟩ := recognized (.dotted first others)
          exact ⟨_ :: used, rfl, spells_parts start spells⟩
      | access root more =>
        nomatch (show allNames? (root :: more) = none from whole).symm.trans namesFront
      | _ => nomatch namesFront

/-- A value with its parts, if it is a row of places, has no parts or is a name with them. -/
theorem accessed_isOwn {root : Expr} {found : List Expr} (own : (accessed root found).IsOwn) :
    (found = [] ∧ accessed root found = root) ∨
      ∃ id ids, root = .name id ∧ allNames? found = some ids ∧
        accessed root found = .dotted (id :: ids) := by
  unfold accessed at own ⊢
  cases found with
  | nil => exact .inl ⟨rfl, rfl⟩
  | cons first more =>
    right
    rw [List.isEmpty_cons, if_neg Bool.false_ne_true] at own ⊢
    cases root with
    | name id =>
      dsimp only at own ⊢
      split at own
      · rename_i ids names
        rw [names]
        exact ⟨id, ids, rfl, rfl, rfl⟩
      · split at own <;> nomatch own
    | _ => nomatch own

/-- A value with its parts is whole. -/
theorem isWhole_accessed {root : Expr} (found : List Expr) (whole : IsWhole root) :
    IsWhole (accessed root found) := by
  unfold accessed
  split
  · exact whole
  · cases root with
    | name id =>
      dsimp only
      split
      · exact List.cons_ne_nil _ _
      · rename_i noNames
        split
        · trivial
        · exact Option.map_eq_none_iff.mpr noNames
    | _ => rfl

theorem recognizes_operand (faithful : IsFaithful g) : Recognizes [] (operand g) := by
  intro tokens rest e found own
  obtain ⟨start, middle, first, next⟩ := bind_eq_ok.mp found
  have behindRoot : ∀ (root : Expr) (behind : List Lexeme),
      (do return accessed root (← parts g) : Parser Expr) behind = .ok (e, rest) →
      (root.IsOwn → ∃ used, tokens = used ++ behind ∧ Spells root.slots used) →
      ∃ used, tokens = used ++ rest ∧ Spells e.slots used := by
    intro root behind last read
    obtain ⟨found, more, run, last⟩ := bind_eq_ok.mp last
    obtain ⟨rfl, rfl⟩ := pure_eq_ok.mp last
    obtain ⟨rfl, same⟩ | ⟨id, ids, rfl, names, same⟩ := accessed_isOwn own
    · rw [same] at own ⊢
      obtain ⟨used, rfl, spells⟩ := read own
      obtain ⟨usedMore, rfl, spellsMore⟩ := recognizes_parts faithful run rfl
      cases spellsMore
      exact ⟨used, rfl, spells⟩
    · rw [same]
      obtain ⟨used, rfl, spells⟩ := read (.name id)
      obtain ⟨usedMore, rfl, spellsMore⟩ := recognizes_parts faithful run names
      exact ⟨used ++ usedMore, (List.append_assoc ..).symm, spells.append spellsMore⟩
  obtain ⟨collated, behind, ask, last⟩ := bind_eq_ok.mp next
  split at last
  · obtain ⟨collation, behind, -, last⟩ := bind_eq_ok.mp last
    exact behindRoot _ _ last nofun
  · rename_i notCollated
    obtain ⟨rfl, -⟩ | ⟨rfl, rfl⟩ := keyword?_eq_ok (by decide) ask
    · contradiction
    · exact behindRoot _ _ last (recognizes_operandStart faithful first)

theorem gives_whole_keywordExpr {name : Ident} {parenAhead : Bool} {form : Parser Expr}
    (h : keywordExpr? g name parenAhead = some form) : Gives IsWhole form := by
  by_cases special : name.keyword ∈ ["TRUE", "FALSE", "NULL", "NOT"]
  · simp only [List.mem_cons, List.not_mem_nil, or_false] at special
    obtain is | is | is | is := special <;> rw [keywordExpr?, is] at h <;> cases h
    · exact .pure trivial
    · exact .pure trivial
    · exact .pure trivial
    · refine .bind fun _ => ?_
      split
      · exact .bind fun _ => .pure trivial
      · exact .bind fun _ => .pure trivial
  · exact fun tokens rest e found => (gives_keywordExpr h special found).2

theorem gives_whole_nameExpr (name : Ident) : Gives IsWhole (nameExpr g name) := by
  refine .bind fun _ => ?_
  split
  · exact fun tokens rest e found => (gives_call _ found).2
  · split
    · exact .bind fun _ => .pure trivial
    · exact .pure trivial
  · exact .pure trivial

theorem gives_whole_wordExpr (name : Ident) : Gives IsWhole (wordExpr g name) := by
  refine .bind fun _ => ?_
  split
  · exact gives_whole_nameExpr name
  · rename_i form some
    split
    · exact gives_whole_keywordExpr some
    · exact (gives_whole_keywordExpr some).preferring (gives_whole_nameExpr name)

theorem gives_whole_parenExpr : Gives IsWhole (parenExpr g) := by
  have close : ∀ e, IsWhole e → Gives IsWhole (do sign .rightParen; return e) :=
    fun e whole => .bind fun _ => .pure whole
  refine .bind fun _ => ?_
  split
  · exact .bind fun _ => .of_bind (.pure trivial) close
  · refine .bind fun items => ?_
    split
    · exact .of_bind (.pure trivial) close
    · exact .of_bind (.pure trivial) close

theorem gives_whole_operandStart : Gives IsWhole (operandStart g) := by
  have typed : Gives IsWhole (typedLiteral g) :=
    fun tokens rest e found => (gives_typedLiteral found).2
  refine typed.attempt.of_bind fun found whole => ?_
  cases found with
  | some e => exact .pure (whole e rfl)
  | none =>
    refine .bind fun ahead => ?_
    split
    · exact .bind fun _ => gives_whole_wordExpr _
    · exact .bind fun _ => .pure trivial
    · exact .bind fun _ => .pure trivial
    · exact .bind fun _ => .pure trivial
    · exact .bind fun _ => .bind fun _ => .pure trivial
    · exact .bind fun _ => .bind fun _ => .pure trivial
    · exact .bind fun _ => gives_whole_parenExpr
    · exact .expected

theorem gives_whole_operand : Gives IsWhole (operand g) := by
  have behindRoot : ∀ root : Expr, IsWhole root →
      Gives IsWhole (do return accessed root (← parts g)) :=
    fun root whole => .bind fun found => .pure (isWhole_accessed found whole)
  refine gives_whole_operandStart.of_bind fun start whole => .bind fun _ => ?_
  split
  · exact .bind fun _ => .of_bind (.pure trivial) behindRoot
  · exact .of_bind (.pure whole) behindRoot

theorem gives_whole_isTest (left : Expr) : Gives IsWhole (isTest g left) := by
  unfold isTest
  repeat' first
    | exact Gives.expected
    | refine Gives.pure trivial
    | refine Gives.bind fun _ => ?_
    | split

theorem gives_whole_predicate (left : Expr) : Gives IsWhole (predicate g left) := by
  unfold predicate membership between like
  repeat' first
    | exact Gives.expected
    | refine Gives.pure trivial
    | refine Gives.parens ?_
    | refine Gives.bind fun _ => ?_
    | split

/-- Behind an operator stands an operand; what is quantified is no row of places. -/
theorem rightSide_eq_ok {left e : Expr} {op : BinaryOp} {strength : Nat} {start : Position}
    {tokens rest : List Lexeme} (h : rightSide g left op strength start tokens = .ok (e, rest)) :
    (∃ right, e = .binary left op right ∧ g.expr strength tokens = .ok (right, rest)) ∨
      IsForeign e := by
  obtain ⟨quantifier, middle, ask, last⟩ := bind_eq_ok.mp h
  cases quantifier with
  | none =>
    obtain ⟨right, behind, given, last⟩ := bind_eq_ok.mp last
    obtain ⟨rfl, rfl⟩ := pure_eq_ok.mp last
    rw [oneOf?_eq_none ask] at given
    exact .inl ⟨right, rfl, given⟩
  | some word =>
    right
    refine (?_ : Gives IsForeign _) last
    repeat' first
      | refine Gives.pure ⟨nofun, trivial⟩
      | refine Gives.bind fun _ => ?_
      | refine Gives.ite ?_ ?_

theorem isWhole_of_rightSide {left e : Expr} {op : BinaryOp} {strength : Nat} {start : Position}
    {tokens rest : List Lexeme} (h : rightSide g left op strength start tokens = .ok (e, rest)) :
    IsWhole e := by
  obtain ⟨right, rfl, -⟩ | foreign := rightSide_eq_ok h
  · trivial
  · exact foreign.2

theorem gives_whole_step (left : Expr) (strength : Nat) : Gives IsWhole (step g left strength) := by
  refine .bind fun ahead => ?_
  repeat' first
    | exact Gives.fail
    | exact Gives.expected
    | exact fun tokens rest e found => isWhole_of_rightSide found
    | exact gives_whole_isTest _
    | exact gives_whole_predicate _
    | refine Gives.pure trivial
    | refine Gives.bind fun _ => ?_
    | split

theorem gives_whole_expr (strength : Nat) : Gives IsWhole (expr g strength) := by
  refine gives_whole_operand.of_bind fun left whole => .bind fun fuel => ?_
  induction fuel generalizing left with
  | nil => exact .pure whole
  | cons _ fuel ih =>
    refine .bind fun ahead => .bind fun atPeriod => ?_
    split
    · exact .pure whole
    · exact (gives_whole_step left ahead).of_bind fun e whole => ih e whole

end Parser

end SqlFootprint.Sql
