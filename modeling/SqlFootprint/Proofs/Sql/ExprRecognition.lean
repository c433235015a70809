import SqlFootprint.Proofs.Sql.NameRecognition

/-! # What the parser of expressions has read

Behind an operand the parser adds operators and predicates one by one, and each spells its places
behind those of what was read before (`Extends`). So the tokens of a whole expression spell its
places (`isFaithful_grammar`). -/

namespace SqlFootprint.Sql

namespace Parser

variable {α β : Type} {g : Grammar}

/-! ## Operators behind an expression -/

/-- An operand behind an operator. -/
theorem extends_binary (faithful : IsFaithful g) {left : Expr} {op : BinaryOp} {token : Token}
    {start : Position} (fits : (Slot.binary op).Fits token) (strength : Nat)
    {tokens rest : List Lexeme} {e right : Expr}
    (given : g.expr strength tokens = .ok (right, rest)) (same : e = .binary left op right)
    (own : e.IsOwn) : left.IsOwn ∧ ∃ used more, tokens = used ++ rest ∧
      e.slots = left.slots ++ more ∧ Spells more ([⟨token, start⟩] ++ used) := by
  subst same
  cases own with
  | binary _ ownLeft ownRight =>
    obtain ⟨used, rfl, spells⟩ := faithful.recognizes strength given ownRight
    exact ⟨ownLeft, used, _, rfl, rfl, .cons fits spells⟩

theorem extends_rightSide (faithful : IsFaithful g) {left : Expr} {op : BinaryOp} {token : Token}
    {start : Position} (fits : (Slot.binary op).Fits token) (strength : Nat) (place : Position) :
    Extends left [⟨token, start⟩] (rightSide g left op strength place) := by
  intro tokens rest e found own
  obtain ⟨right, same, given⟩ | foreign := rightSide_eq_ok found
  · exact extends_binary faithful fits strength given same own
  · exact (foreign.1 own).elim

/-- Words that have the keywords of places spell them. -/
theorem spells_of_keywords {slots : List Slot} {used : List Lexeme}
    (same : used.map (·.token.keyword) = slots.map Slot.keyword)
    (words : ∀ slot ∈ slots, slot.keyword ≠ "") : Spells slots used := by
  induction slots generalizing used with
  | nil =>
    obtain rfl := List.map_eq_nil_iff.mp same
    exact .nil
  | cons slot slots ih =>
    cases used with
    | nil => nomatch same
    | cons lexeme used =>
      obtain ⟨isWord, others⟩ := List.cons.inj same
      obtain ⟨is, more⟩ := List.forall_mem_cons.mp words
      obtain ⟨token, start⟩ := lexeme
      obtain ⟨id, rfl, isSlot⟩ := exists_of_keyword isWord is
      exact .cons (.word isSlot (isSlot ▸ is)) (ih others more)

/-- Some words, or the same words behind a negation. -/
theorem negated_eq_ok {words : List String} {tokens rest : List Lexeme} {found : Option Bool}
    (h : (do
      if ← keywords? words then return some false
      if ← keywords? ("NOT" :: words) then return some true
      return none : Parser (Option Bool)) tokens = .ok (found, rest)) :
    (∃ no used, found = some no ∧ tokens = used ++ rest ∧
      used.map (·.token.keyword) = (if no then ["NOT"] else []) ++ words) ∨
      (found = none ∧ rest = tokens) := by
  obtain ⟨plain, middle, ask, last⟩ := bind_eq_ok.mp h
  obtain ⟨rfl, used, rfl, same⟩ | ⟨rfl, rfl⟩ := keywords?_eq_ok ask
  · obtain ⟨rfl, rfl⟩ := pure_eq_ok.mp last
    exact .inl ⟨false, used, rfl, rfl, same⟩
  · obtain ⟨negated, behind, askNot, final⟩ := bind_eq_ok.mp last
    obtain ⟨rfl, used, rfl, same⟩ | ⟨rfl, rfl⟩ := keywords?_eq_ok askNot
    · obtain ⟨rfl, rfl⟩ := pure_eq_ok.mp final
      exact .inl ⟨true, used, rfl, rfl, same⟩
    · obtain ⟨rfl, rfl⟩ := pure_eq_ok.mp final
      exact .inr ⟨rfl, rfl⟩

/-- A test for one truth value; if it does not come next, something else is read. -/
theorem extends_testElse {left : Expr} {name : Ident} {start : Position} (is : name.keyword = "IS")
    (truth : Truth) {other : Parser Expr} (h : Extends left [⟨.word name, start⟩] other) :
    Extends left [⟨.word name, start⟩] (do
      if let some no ← (do
        if ← keywords? [truth.written] then return some false
        if ← keywords? ("NOT" :: [truth.written]) then return some true
        return none : Parser (Option Bool)) then return .isTest left no truth
      other) := by
  intro tokens rest e found own
  obtain ⟨no, middle, ask, next⟩ := bind_eq_ok.mp found
  obtain ⟨no, used, rfl, rfl, same⟩ | ⟨rfl, rfl⟩ := negated_eq_ok ask
  · cases next
    have spells : Spells ((if no then [Slot.isNot] else []) ++ [.truth truth]) used :=
      spells_of_keywords (by rw [same]; cases no <;> rfl) (by cases no <;> cases truth <;> decide)
    exact ⟨by cases own <;> assumption, used, _, rfl, rfl,
      .cons (.word is (by rw [is]; decide)) spells⟩
  · exact h next own

theorem extends_isTest (left : Expr) {name : Ident} (start : Position)
    (is : name.keyword = "IS") : Extends left [⟨.word name, start⟩] (isTest g left) := by
  refine extends_testElse is .null (extends_testElse is .true (extends_testElse is .false
    (extends_testElse is .unknown (.of_gives (.bind fun no => ?_)))))
  cases no with
  | none => exact .expected
  | some no => exact .bind fun _ => .pure ⟨nofun, trivial⟩

/-! ## Predicates -/

theorem Extends.ifKeyword {left : Expr} {front : List Lexeme} {word : String} {p q : Parser Expr}
    (nonempty : word ≠ "")
    (yes : ∀ id start, id.keyword = word → Extends left (front ++ [⟨.word id, start⟩]) p)
    (no : Extends left front q) :
    Extends left front (do if ← keyword? word then p else q) := by
  intro tokens rest e found own
  obtain ⟨ahead, middle, ask, next⟩ := bind_eq_ok.mp found
  obtain ⟨rfl, id, start, rfl, is⟩ | ⟨rfl, rfl⟩ := keyword?_eq_ok nonempty ask
  · obtain ⟨ownLeft, used, more, rfl, same, spells⟩ := yes id start is next own
    exact ⟨ownLeft, _ :: used, more, rfl, same, by simpa using spells⟩
  · exact no next own

theorem extends_membership (faithful : IsFaithful g) {left : Expr} {negated : Bool}
    {front : List Lexeme} (spellsFront : Spells (notSlots negated ++ [.isIn]) front) :
    Extends left front (membership g left negated) := by
  intro tokens rest e found own
  obtain ⟨_, middle, opens, next⟩ := bind_eq_ok.mp found
  obtain ⟨start, rfl⟩ := sign_eq_ok opens
  obtain ⟨found, behind, inside, next⟩ := bind_eq_ok.mp next
  obtain ⟨_, after, closes, last⟩ := bind_eq_ok.mp next
  obtain ⟨stop, rfl⟩ := sign_eq_ok closes
  obtain ⟨rfl, rfl⟩ := pure_eq_ok.mp last
  obtain ⟨body, _, ask, listed⟩ := bind_eq_ok.mp inside
  obtain ⟨query, rfl, -⟩ | ⟨rfl, rfl, -⟩ := attempt_eq_ok ask
  · obtain ⟨rfl, rfl⟩ := pure_eq_ok.mp listed
    nomatch own
  · obtain ⟨items, _, list, final⟩ := bind_eq_ok.mp listed
    obtain ⟨rfl, rfl⟩ := pure_eq_ok.mp final
    cases own with
    | inList _ ownLeft ownItems =>
      obtain ⟨used, rfl, spells⟩ := recognizes_commaList faithful list ownItems
      exact ⟨ownLeft, ⟨.sign .leftParen, start⟩ :: (used ++ [⟨.sign .rightParen, stop⟩]), _,
        by simp, rfl, spellsFront.behindWord (spells.paren start stop)⟩

theorem extends_between (faithful : IsFaithful g) {left : Expr} {negated : Bool}
    {front : List Lexeme} (spellsFront : Spells (notSlots negated ++ [.between]) front) :
    Extends left front (between g left negated) := by
  intro tokens rest e found own
  obtain ⟨low, middle, first, next⟩ := bind_eq_ok.mp found
  obtain ⟨_, behind, word, next⟩ := bind_eq_ok.mp next
  obtain ⟨high, after, second, last⟩ := bind_eq_ok.mp next
  obtain ⟨rfl, rfl⟩ := pure_eq_ok.mp last
  obtain ⟨id, start, rfl, is⟩ := keyword_eq_ok (by decide) word
  cases own with
  | between _ ownLeft ownLow ownHigh =>
    obtain ⟨used, rfl, spells⟩ := faithful.recognizes _ first ownLow
    obtain ⟨usedHigh, rfl, spellsHigh⟩ := faithful.recognizes _ second ownHigh
    have fits : (Slot.binary .and).Fits (.word id) := .word is (by rw [is]; decide)
    exact ⟨ownLeft, used ++ ⟨.word id, start⟩ :: usedHigh, _, by simp, rfl,
      spellsFront.behindWord (spells.append (.cons fits spellsHigh))⟩

theorem gives_like (left : Expr) (negated : Bool) {op : LikeOp} (other : op ≠ .like) :
    Gives IsForeign (like g left negated op) := by
  cases op with
  | like => exact absurd rfl other
  | ilike => exact .bind fun _ => .bind fun _ => .bind fun _ => .pure ⟨nofun, trivial⟩
  | similarTo => exact .bind fun _ => .bind fun _ => .bind fun _ => .pure ⟨nofun, trivial⟩

theorem extends_like (faithful : IsFaithful g) {left : Expr} {negated : Bool}
    {front : List Lexeme} (spellsFront : Spells (notSlots negated ++ [.like]) front) :
    Extends left front (like g left negated .like) := by
  intro tokens rest e found own
  obtain ⟨any, middle, ask, next⟩ := bind_eq_ok.mp found
  obtain ⟨pattern, behind, first, next⟩ := bind_eq_ok.mp next
  obtain ⟨escape, after, askEscape, last⟩ := bind_eq_ok.mp next
  obtain ⟨rfl, rfl⟩ := pure_eq_ok.mp last
  cases own with
  | like _ ownLeft ownPattern =>
    obtain ⟨yes, -⟩ | ⟨-, rfl⟩ := keyword?_eq_ok (by decide) ask
    · nomatch yes
    obtain ⟨used, rfl, spells⟩ := faithful.recognizes _ first ownPattern
    obtain ⟨escaped, _, askWord, last⟩ := bind_eq_ok.mp askEscape
    obtain ⟨rfl, -⟩ | ⟨rfl, rfl⟩ := keyword?_eq_ok (by decide) askWord
    · obtain ⟨_, _, -, last⟩ := bind_eq_ok.mp last
      nomatch (pure_eq_ok.mp last).1
    · obtain ⟨-, rfl⟩ := pure_eq_ok.mp last
      exact ⟨ownLeft, used, _, rfl, rfl, spellsFront.behindWord spells⟩

theorem extends_predicate (faithful : IsFaithful g) (left : Expr) :
    Extends left [] (predicate g left) := by
  have regexp : ∀ (negated word : Bool), Gives IsForeign
      (do return .regexp left negated word (← g.expr Strength.pattern)) :=
    fun negated word => .bind fun _ => .pure ⟨nofun, trivial⟩
  have word {id : Ident} {slot : Slot} (start : Position) (is : id.keyword = slot.keyword)
      (nonempty : slot.keyword ≠ "") : Spells [slot] [⟨.word id, start⟩] :=
    .singleton (.word is (is ▸ nonempty)) start
  have behindNot : ∀ (negated : Bool) (front : List Lexeme), Spells (notSlots negated) front →
      Extends left front (do
        if ← keyword? "REGEXP" then return .regexp left negated false (← g.expr Strength.pattern)
        if ← keyword? "RLIKE" then return .regexp left negated true (← g.expr Strength.pattern)
        if ← keyword? "IN" then membership g left negated
        else if ← keyword? "BETWEEN" then between g left negated
        else if ← keyword? "LIKE" then like g left negated .like
        else if ← keyword? "ILIKE" then like g left negated .ilike
        else if ← keywords? ["SIMILAR", "TO"] then like g left negated .similarTo
        else expected "IN or BETWEEN after NOT") := by
    intro negated front spells
    refine .ifKeyword (by decide) (fun _ _ _ => .of_gives (regexp negated false)) ?_
    refine .ifKeyword (by decide) (fun _ _ _ => .of_gives (regexp negated true)) ?_
    refine .ifKeyword (by decide) (fun id start is => extends_membership faithful
      (spells.append (word start is (by decide)))) ?_
    refine .ifKeyword (by decide) (fun id start is => extends_between faithful
      (spells.append (word start is (by decide)))) ?_
    refine .ifKeyword (by decide) (fun id start is => extends_like faithful
      (spells.append (word start is (by decide)))) ?_
    refine .ifKeyword (by decide) (fun _ _ _ => .of_gives (gives_like left negated nofun)) ?_
    refine .of_gives (.bind fun similar => ?_)
    exact .ite (gives_like left negated nofun) .expected
  intro tokens rest e found own
  obtain ⟨negated, middle, ask, next⟩ := bind_eq_ok.mp found
  obtain ⟨rfl, id, start, rfl, is⟩ | ⟨rfl, rfl⟩ := keyword?_eq_ok (by decide) ask
  · obtain ⟨ownLeft, used, more, rfl, same, spells⟩ :=
      behindNot true [_] (word start is (by decide)) next own
    exact ⟨ownLeft, _ :: used, more, rfl, same, spells⟩
  · exact behindNot false [] .nil next own

/-! ## Whole expressions -/

/-- What is read behind a token that was read already. -/
theorem Extends.behindToken {left : Expr} {lexeme : Lexeme} {tokens rest : List Lexeme} {e : Expr}
    {p : Parser Expr} (h : Extends left [lexeme] p) (found : p tokens = .ok (e, rest))
    (own : e.IsOwn) :
    left.IsOwn ∧ ∃ used more, lexeme :: tokens = used ++ rest ∧ e.slots = left.slots ++ more ∧
      Spells more used := by
  obtain ⟨ownLeft, used, more, rfl, same, spells⟩ := h found own
  exact ⟨ownLeft, lexeme :: used, more, rfl, same, spells⟩

theorem extends_step (faithful : IsFaithful g) (left : Expr) (strength : Nat) :
    Extends left [] (step g left strength) := by
  intro tokens rest e found own
  obtain ⟨_, _, ⟨⟩, next⟩ := bind_eq_ok.mp found
  cases tokens with
  | nil => nomatch next
  | cons lexeme tokens =>
    obtain ⟨token, start⟩ := lexeme
    cases token with
    | sign s =>
      dsimp only [List.head?_cons] at next
      split at next
      · have foreign :
            Gives IsForeign (do let _ ← Parser.next; return .doubleColon left (← dataType)) :=
          .bind fun _ => .bind fun _ => .pure ⟨nofun, trivial⟩
        exact ((foreign next).1 own).elim
      · cases isOp : signOp? s with
        | none => simp only [isOp] at next; nomatch next
        | some op =>
          simp only [isOp] at next
          obtain ⟨_, _, ⟨⟩, last⟩ := bind_eq_ok.mp next
          exact (extends_rightSide faithful (.sign isOp) strength start).behindToken last own
    | word name =>
      dsimp only [List.head?_cons] at next
      have word {op : BinaryOp} (is : name.keyword = (Slot.binary op).keyword)
          (nonempty : (Slot.binary op).keyword ≠ "") : (Slot.binary op).Fits (.word name) :=
        .word is (is ▸ nonempty)
      have operator (op : BinaryOp) (is : name.keyword = (Slot.binary op).keyword)
          (nonempty : (Slot.binary op).keyword ≠ "") :
          Extends left [⟨.word name, start⟩] (rightSide g left op strength start) :=
        extends_rightSide faithful (word is nonempty) strength start
      generalize isWord : name.keyword = keyword at next
      split at next
      · obtain ⟨_, _, ⟨⟩, next⟩ := bind_eq_ok.mp next
        obtain ⟨right, behind, given, last⟩ := bind_eq_ok.mp next
        obtain ⟨rfl, rfl⟩ := pure_eq_ok.mp last
        have fits : (Slot.binary .integerDivide).Fits (.word name) := word isWord (by decide)
        obtain ⟨ownLeft, used, more, rfl, same, spells⟩ :=
          extends_binary faithful fits 0 given rfl own
        exact ⟨ownLeft, _ :: used, more, rfl, same, spells⟩
      · obtain ⟨_, _, ⟨⟩, last⟩ := bind_eq_ok.mp next
        exact (operator .and isWord (by decide)).behindToken last own
      · obtain ⟨_, _, ⟨⟩, last⟩ := bind_eq_ok.mp next
        exact (operator .or isWord (by decide)).behindToken last own
      · obtain ⟨_, _, ⟨⟩, last⟩ := bind_eq_ok.mp next
        exact (operator .xor isWord (by decide)).behindToken last own
      · obtain ⟨_, _, ⟨⟩, last⟩ := bind_eq_ok.mp next
        exact (operator .overlaps isWord (by decide)).behindToken last own
      · obtain ⟨_, _, ⟨⟩, last⟩ := bind_eq_ok.mp next
        exact (extends_isTest left start isWord).behindToken last own
      · have foreign : Gives IsForeign (do keywords ["AT", "TIME", "ZONE"]
                                           return .atTimeZone left (← g.expr strength)) :=
          .bind fun _ => .bind fun _ => .pure ⟨nofun, trivial⟩
        exact ((foreign next).1 own).elim
      · have foreign : Gives IsForeign (do let _ ← Parser.next
                                           unless ← keyword? "OF" do expected "OF after MEMBER"
                                           return .memberOf left (← parens g.full)) := by
          refine .bind fun _ => .bind fun _ => ?_
          exact .ite (.bind fun _ => .pure ⟨nofun, trivial⟩)
            (.bind fun _ => .bind fun _ => .pure ⟨nofun, trivial⟩)
        exact ((foreign next).1 own).elim
      iterate 8 exact extends_predicate faithful left next own
      · nomatch next
    | literal value => nomatch next
    | other c => nomatch next

/-- The operators behind an expression extend it one after the other. -/
theorem extends_stepsFuel (faithful : IsFaithful g) (strength : Nat) (fuel : List Lexeme)
    (left : Expr) : Extends left [] (stepsFuel g strength fuel left) := by
  induction fuel generalizing left with
  | nil =>
    intro tokens rest e found own
    obtain ⟨rfl, rfl⟩ := pure_eq_ok.mp found
    exact ⟨own, [], [], rfl, (List.append_nil _).symm, .nil⟩
  | cons _ fuel ih =>
    intro tokens rest e found own
    obtain ⟨ahead, _, look, next⟩ := bind_eq_ok.mp found
    cases nextStrength_eq_ok look
    obtain ⟨atPeriod, _, lookSign, last⟩ := bind_eq_ok.mp next
    cases isSign_eq_ok lookSign
    split at last
    · obtain ⟨rfl, rfl⟩ := pure_eq_ok.mp last
      exact ⟨own, [], [], rfl, (List.append_nil _).symm, .nil⟩
    · obtain ⟨extended, behind, one, others⟩ := bind_eq_ok.mp last
      obtain ⟨ownExtended, usedMore, more, rfl, slotsMore, spellsMore⟩ := ih extended others own
      obtain ⟨ownLeft, used, first, rfl, slots, spells⟩ :=
        extends_step faithful left ahead one ownExtended
      exact ⟨ownLeft, used ++ usedMore, first ++ more, (List.append_assoc ..).symm,
        by rw [slotsMore, slots, List.append_assoc], spells.append spellsMore⟩

theorem recognizes_expr (faithful : IsFaithful g) (strength : Nat) :
    Recognizes [] (expr g strength) := by
  intro tokens rest e found own
  obtain ⟨left, middle, first, next⟩ := bind_eq_ok.mp found
  obtain ⟨fuel, _, ⟨⟩, steps⟩ := bind_eq_ok.mp next
  obtain ⟨ownLeft, usedMore, more, rfl, slots, spellsMore⟩ :=
    extends_stepsFuel faithful strength middle left steps own
  obtain ⟨used, rfl, spells⟩ := recognizes_operand faithful first ownLeft
  exact ⟨used ++ usedMore, (List.append_assoc ..).symm, slots ▸ spells.append spellsMore⟩

theorem isFaithful_grammar (depth : Nat) : IsFaithful (grammar depth) := by
  induction depth with
  | zero => exact ⟨fun _ => nofun, fun _ => nofun⟩
  | succ depth ih => exact ⟨recognizes_expr ih, gives_whole_expr⟩

end Parser

end SqlFootprint.Sql
