import SqlFootprint.Proofs.Sql.ExprRecognition

/-! # Token lists that are parsed alike

Two token lists are twins if they spell the same row of places, up to the kinds of texts, the
letters of words and the positions (`Twins`). The parsers of expressions cannot tell them apart:
both fail, or both give expressions of the same shape and leave twins behind (`Alike`). What stands
behind a place is known from the order of the places, so that most attempts to read something else
than a row of places fail at once. -/

namespace SqlFootprint.Sql

/-- A value whose text stands between single quotes. -/
def Literal.singleQuoted : Literal → Literal
  | .text .double value | .text .national value => .text .single value
  | other => other

namespace Slot

/-- Whether a place is the name of a thing. -/
def IsName : Slot → Prop
  | name _ | part _ => True
  | _ => False

theorem IsName.isEnd {x : Slot} (name : x.IsName) : x.IsEnd := by
  cases x with
  | name | part => trivial
  | _ => exact name.elim

/-- What may stand behind an operand. -/
theorem IsEnd.behind {x y : Slot} (ends : x.IsEnd) (precedes : x.Precedes y) :
    y.IsBehind ∨ y = period := by
  cases x with
  | name | part => exact precedes
  | value | truth | rightParen => exact .inl precedes
  | _ => exact ends.elim

/-- Whether a place may follow another although a query might start there: no parenthesis stands in
front of a name that reads like the first word of a query. -/
def Opens : Slot → Slot → Prop
  | leftParen, name id => id.keyword ∉ ["SELECT", "WITH"]
  | _, _ => True

/-- Whether two tokens stand for the same place. -/
inductive Twin : Slot → Token → Token → Prop where
  /-- A name is the same word. -/
  | name (id : Ident) (free : id.keyword ≠ "INTERVAL") : Twin (name id) (.word id) (.word id)
  /-- So is a part of a name. -/
  | part (id : Ident) (free : id.keyword ≠ "INTERVAL") : Twin (part id) (.word id) (.word id)
  /-- A part of a name in single quotes is the same text. -/
  | quotedPart (value : String) : Twin (part ⟨value, some .single⟩)
    (.literal (.text .single value)) (.literal (.text .single value))
  /-- A value is the same, but for the marks around a text. -/
  | value (literal : Literal) :
    Twin (value literal) (.literal literal) (.literal literal.singleQuoted)
  /-- A word may have other letters. -/
  | word {slot : Slot} {id other : Ident} (same : id.keyword = slot.keyword)
    (sameOther : other.keyword = slot.keyword) (is : slot.keyword ≠ "") :
    Twin slot (.word id) (.word other)
  /-- A sign is the same, or another sign for the same operator. -/
  | sign {slot : Slot} {s t : Sign} (has : slot.HasSign s) (hasOther : slot.HasSign t) :
    Twin slot (.sign s) (.sign t)

end Slot

/-- The first sign of an operator; some sign for an operator without one. -/
def BinaryOp.sign : BinaryOp → Sign
  | .eq => .eq | .notEq => .notEq | .lt => .lt | .ltEq => .ltEq | .gt => .gt | .gtEq => .gtEq
  | .nullSafeEq => .nullSafeEq
  | .plus => .plus | .minus => .minus | .times => .star | .divide => .slash | .modulo => .percent
  | .bitAnd => .ampersand | .bitOr => .pipe | .bitXor => .caret
  | .concat => .doublePipe | .assign => .assign | .arrow => .arrow | .longArrow => .longArrow
  | .containedBy => .arrowAt | .contains => .atArrow | .pathExists => .atQuestion
  | .pathMatch => .doubleAt
  | .matches => .tilde | .iMatches => .tildeStar
  | .notMatches => .bangTilde | .notIMatches => .bangTildeStar
  | .resembles => .doubleTilde | .iResembles => .doubleTildeStar
  | .notResembles => .bangDoubleTilde | .notIResembles => .bangDoubleTildeStar
  | .integerDivide | .and | .or | .xor | .overlaps => .eq

/-- The one operator with two signs is equality. -/
theorem signOp?_eq_some {s : Sign} {op : BinaryOp} (h : Parser.signOp? s = some op) :
    s = op.sign ∨ s = .doubleEq ∧ op = .eq := by
  cases s <;> first | (cases h; simp [BinaryOp.sign]) | nomatch h

/-- Whether a sign stands for itself only, and starts no parameter. -/
def Sign.IsSure (s : Sign) : Prop := s ∉ [.eq, .doubleEq, .colon, .atSign]

instance : DecidablePred Sign.IsSure := fun s => inferInstanceAs (Decidable (s ∉ _))

/-- Two signs of the same place are the same, but for equality. -/
theorem Slot.HasSign.unique {slot : Slot} {s t : Sign} (has : slot.HasSign s)
    (hasOther : slot.HasSign t) :
    s = t ∨ s ∈ [Sign.eq, .doubleEq] ∧ t ∈ [Sign.eq, .doubleEq] := by
  cases slot with
  | binary op =>
    obtain rfl | ⟨rfl, rfl⟩ := signOp?_eq_some has
    · obtain rfl | ⟨rfl, rfl⟩ := signOp?_eq_some hasOther
      · exact .inl rfl
      · exact .inr (by decide)
    · obtain rfl | ⟨rfl, -⟩ := signOp?_eq_some hasOther
      · exact .inr (by decide)
      · exact .inl rfl
  | unary op =>
    cases op with
    | not => exact has.elim
    | minus => exact .inl (Eq.trans has (Eq.symm hasOther))
    | plus => exact .inl (Eq.trans has (Eq.symm hasOther))
  | period => exact .inl (Eq.trans has (Eq.symm hasOther))
  | leftParen => exact .inl (Eq.trans has (Eq.symm hasOther))
  | rightParen => exact .inl (Eq.trans has (Eq.symm hasOther))
  | comma => exact .inl (Eq.trans has (Eq.symm hasOther))
  | _ => exact has.elim

theorem Sign.IsSure.notMem {s : Sign} (sure : s.IsSure) : s ∉ [Sign.eq, .doubleEq] :=
  fun mem => sure (by simp only [List.mem_cons, List.not_mem_nil, or_false] at mem ⊢; tauto)

theorem Slot.HasSign.eq_iff {slot : Slot} {s t sure : Sign} (has : slot.HasSign s)
    (hasOther : slot.HasSign t) (isSure : sure.IsSure) : s = sure ↔ t = sure := by
  obtain rfl | ⟨equality, otherEquality⟩ := has.unique hasOther
  · rfl
  · exact ⟨fun same => absurd (same ▸ equality) isSure.notMem,
      fun same => absurd (same ▸ otherEquality) isSure.notMem⟩

/-- Signs of the same place bind with the same strength. -/
theorem Slot.HasSign.strength_eq {slot : Slot} {s t : Sign} (has : slot.HasSign s)
    (hasOther : slot.HasSign t) :
    Parser.Strength.ofSign s = Parser.Strength.ofSign t := by
  obtain rfl | ⟨equality, otherEquality⟩ := has.unique hasOther
  · rfl
  · simp only [List.mem_cons, List.not_mem_nil, or_false] at equality otherEquality
    obtain rfl | rfl := equality <;> obtain rfl | rfl := otherEquality <;> rfl

theorem Slot.eq_leftParen {slot : Slot} (has : slot.HasSign .leftParen) : slot = .leftParen := by
  cases slot with
  | leftParen => rfl
  | unary op => cases op <;> nomatch has
  | _ => nomatch has

theorem Slot.eq_period {slot : Slot} (has : slot.HasSign .period) : slot = .period := by
  cases slot with
  | period => rfl
  | unary op => cases op <;> nomatch has
  | _ => nomatch has

/-- Token lists for the same row of places behind a place. -/
inductive Twins : Slot → List Lexeme → List Lexeme → Prop where
  /-- The row may end behind an operand. -/
  | nil {x : Slot} (ends : x.IsEnd) : Twins x [] []
  /-- A place of one token. -/
  | cons {x y : Slot} {t u : Token} {start place : Position} {tokens others : List Lexeme}
    (precedes : x.Precedes y) (opens : x.Opens y) (twin : y.Twin t u)
    (twins : Twins y tokens others) : Twins x (⟨t, start⟩ :: tokens) (⟨u, place⟩ :: others)
  /-- A parameter with a name of its own. -/
  | parameter {x : Slot} {mark : Sign} {name parameter : String} {t u : Token}
    {start place : Position} {tokens others : List Lexeme}
    (precedes : x.Precedes (.value (.placeholder parameter)))
    (marks : mark = .colon ∨ mark = .atSign) (names : t.parameterName? = some name)
    (namesOther : u.parameterName? = some name)
    (twins : Twins (.value (.placeholder parameter)) tokens others) :
    Twins x (⟨.sign mark, start⟩ :: ⟨t, start.advance mark.written.toList⟩ :: tokens)
      (⟨.sign mark, place⟩ :: ⟨u, place.advance mark.written.toList⟩ :: others)

theorem Slot.Twin.keyword_eq {slot : Slot} {t u : Token} (twin : slot.Twin t u) :
    t.keyword = u.keyword := by
  cases twin with
  | name => rfl
  | part => rfl
  | quotedPart => rfl
  | value => rfl
  | word same sameOther => exact same.trans sameOther.symm
  | sign => rfl

/-! ## The words of places -/

namespace Slot

/-- The words that stand behind an operand. -/
def behindWords : List String :=
  ["AND", "OR", "XOR", "DIV", "OVERLAPS", "IS", "NOT", "IN", "BETWEEN", "LIKE"]

/-- The word of a place behind an operand. -/
theorem keyword_mem_behindWords {y : Slot} (behind : y.IsBehind) (is : y.keyword ≠ "") :
    y.keyword ∈ behindWords := by
  cases y with
  | binary op => cases op <;> first | decide | exact absurd rfl is
  | is | not | isIn | between | like => decide
  | rightParen | comma => exact absurd rfl is
  | _ => exact behind.elim

/-- The words that places have. -/
def placeWords : List String :=
  ["TRUE", "FALSE", "NULL", "UNKNOWN"] ++ behindWords

theorem keyword_mem_placeWords {y : Slot} (is : y.keyword ≠ "") : y.keyword ∈ placeWords := by
  cases y with
  | value literal =>
    cases literal with
    | boolean b => cases b <;> decide
    | null => decide
    | _ => exact absurd rfl is
  | binary op => cases op <;> first | decide | exact absurd rfl is
  | unary op => cases op <;> first | decide | exact absurd rfl is
  | truth t => cases t <;> decide
  | is | isNot | not | isIn | between | like => decide
  | name | part | period | leftParen | rightParen | comma => exact absurd rfl is

/-- A word that no place has as its own is a name. -/
theorem Twin.isName {y : Slot} {t u : Token} (twin : y.Twin t u) (is : t.keyword ≠ "")
    (other : t.keyword ∉ placeWords) : y.IsName := by
  cases twin with
  | name | part => exact trivial
  | word same _ isWord => exact absurd (keyword_mem_placeWords isWord) (same ▸ other)
  | _ => exact absurd rfl is

end Slot

namespace Twins

variable {x : Slot} {tokens others : List Lexeme}

theorem length_eq (twins : Twins x tokens others) : tokens.length = others.length := by
  induction twins with
  | nil => rfl
  | cons _ _ _ _ ih => simp [ih]
  | parameter _ _ _ _ _ ih => simp [ih]

/-- Twins start with the same words, and twins stand behind these. -/
theorem words {words : List String} (nonempty : "" ∉ words) (twins : Twins x tokens others) :
    ((tokens.take words.length).map (·.token.keyword) = words ∧
      (others.take words.length).map (·.token.keyword) = words ∧
      ∃ y, Twins y (tokens.drop words.length) (others.drop words.length)) ∨
    ((tokens.take words.length).map (·.token.keyword) ≠ words ∧
      (others.take words.length).map (·.token.keyword) ≠ words) := by
  induction words generalizing x tokens others with
  | nil => exact .inl ⟨rfl, rfl, x, twins⟩
  | cons word words ih =>
    obtain ⟨isWord, more⟩ := not_or.mp (mt List.mem_cons.mpr nonempty)
    cases twins with
    | nil => exact .inr ⟨nofun, nofun⟩
    | @cons _ y t u _ _ rest others _ _ twin twins =>
      have same := twin.keyword_eq
      by_cases is : t.keyword = word
      · obtain ⟨h, hOther, behind⟩ | ⟨h, hOther⟩ := ih more twins
        · left
          simp [h, hOther, is, ← same, behind]
        · rw [List.map_take] at h hOther
          right
          simp [h, hOther, is, ← same]
      · right
        simp [is, ← same]
    | parameter =>
      exact .inr ⟨fun h => isWord (List.cons.inj h).1, fun h => isWord (List.cons.inj h).1⟩

end Twins

namespace Parser

variable {α β : Type} {x : Slot} {R : α → α → Prop} {S : β → β → Prop}

/-- Two outcomes agree: values in a relation and twins behind them, or errors of the same kind. -/
inductive Agree (R : α → α → Prop) :
    Except SyntaxError (α × List Lexeme) → Except SyntaxError (α × List Lexeme) → Prop where
  /-- Both give a value. -/
  | ok {x : Slot} {a b : α} {tokens others : List Lexeme} (related : R a b)
    (twins : Twins x tokens others) : Agree R (.ok (a, tokens)) (.ok (b, others))
  /-- Both are nested too deeply. -/
  | tooDeep : Agree R (.error .tooDeep) (.error .tooDeep)
  /-- Both fail otherwise. -/
  | error {e f : SyntaxError} (h : e ≠ .tooDeep) (hf : f ≠ .tooDeep) :
    Agree R (.error e) (.error f)

/-- Two parsers have outcomes that agree on twins behind a place. -/
def AlikeAt (x : Slot) (R : α → α → Prop) (p q : Parser α) : Prop :=
  ∀ ⦃tokens others : List Lexeme⦄, Twins x tokens others → Agree R (p tokens) (q others)

/-- Two parsers have outcomes that agree on all twins. -/
def Alike (R : α → α → Prop) (p q : Parser α) : Prop := ∀ x, AlikeAt x R p q

theorem attempt_of_error {p : Parser α} {tokens : List Lexeme} {e : SyntaxError}
    (h : p tokens = .error e) (notDeep : e ≠ .tooDeep) :
    attempt p tokens = .ok (none, tokens) := by
  unfold attempt
  rw [h]
  cases e <;> first | rfl | contradiction

theorem bind_run (p : Parser α) (f : α → Parser β) (tokens : List Lexeme) :
    (p >>= f) tokens = (p tokens).bind fun found => f found.1 found.2 := rfl

theorem bind_ok {p : Parser α} {f : α → Parser β} {tokens rest : List Lexeme} {a : α}
    (h : p tokens = .ok (a, rest)) : (p >>= f) tokens = f a rest := by
  rw [bind_run, h]
  rfl

namespace AlikeAt

theorem bind {p q : Parser α} {f f' : α → Parser β} (h : AlikeAt x R p q)
    (hf : ∀ a b, R a b → Alike S (f a) (f' b)) : AlikeAt x S (p >>= f) (q >>= f') := by
  intro tokens others twins
  change Agree S (Except.bind (p tokens) fun (a, rest) => f a rest)
    (Except.bind (q others) fun (a, rest) => f' a rest)
  have agree := h twins
  generalize p tokens = first at agree ⊢
  generalize q others = second at agree ⊢
  cases agree with
  | ok related twins => exact hf _ _ related _ twins
  | tooDeep => exact .tooDeep
  | error h hf => exact .error h hf

/-- Parsers that give equal values. -/
theorem bindEq {p q : Parser α} {f f' : α → Parser β} (h : AlikeAt x Eq p q)
    (hf : ∀ a, Alike S (f a) (f' a)) : AlikeAt x S (p >>= f) (q >>= f') :=
  h.bind fun a _ same => same ▸ hf a

theorem pure {a b : α} (related : R a b) : AlikeAt x R (pure a) (pure b) :=
  fun _ _ twins => .ok related twins

theorem fail {e f : SyntaxError} (h : e ≠ .tooDeep) (hf : f ≠ .tooDeep) :
    AlikeAt x R (fail e) (fail f) :=
  fun _ _ _ => .error h hf

theorem expected (what : String) : AlikeAt x R (expected what) (expected what) :=
  fun _ _ _ => .error nofun nofun

theorem mono {T : α → α → Prop} {p q : Parser α} (h : AlikeAt x R p q)
    (le : ∀ a b, R a b → T a b) : AlikeAt x T p q := by
  intro tokens others twins
  have agree := h twins
  generalize p tokens = first at agree ⊢
  generalize q others = second at agree ⊢
  cases agree with
  | ok related twins => exact .ok (le _ _ related) twins
  | tooDeep => exact .tooDeep
  | error h hf => exact .error h hf

theorem attempt {p q : Parser α} (h : AlikeAt x R p q) :
    AlikeAt x (Option.Rel R) (attempt p) (attempt q) := by
  intro tokens others twins
  have agree := h twins
  generalize found : p tokens = first at agree
  generalize foundOther : q others = second at agree
  cases agree with
  | ok related twins =>
    simp only [Parser.attempt, found, foundOther]
    exact .ok (.some related) twins
  | tooDeep =>
    simp only [Parser.attempt, found, foundOther]
    exact .tooDeep
  | error notDeep otherNotDeep =>
    rw [attempt_of_error found notDeep, attempt_of_error foundOther otherNotDeep]
    exact .ok .none twins

theorem preferring {R : Expr → Expr → Prop} {p q p' q' : Parser Expr} (h : AlikeAt x R p q)
    (hs : AlikeAt x R p' q') : AlikeAt x R (preferring p p') (preferring q q') := by
  intro tokens others twins
  unfold Parser.preferring
  have agree := h twins
  generalize p tokens = first at agree ⊢
  generalize q others = second at agree ⊢
  cases agree with
  | ok related twins => exact .ok related twins
  | tooDeep =>
    have agree := hs twins
    generalize p' tokens = first at agree ⊢
    generalize q' others = second at agree ⊢
    cases agree with
    | ok related twins => exact .ok related twins
    | tooDeep => exact .tooDeep
    | error => exact .tooDeep
  | error h hf =>
    have agree := hs twins
    generalize p' tokens = first at agree ⊢
    generalize q' others = second at agree ⊢
    cases agree with
    | ok related twins => exact .ok related twins
    | tooDeep => exact .error h hf
    | error => exact .error h hf

end AlikeAt

theorem Alike.manyFuel {p q : Parser (Option α)} (h : Alike (Option.Rel R) p q)
    {fuel otherFuel : List Lexeme} (length : fuel.length = otherFuel.length) :
    Alike (List.Forall₂ R) (manyFuel p fuel) (manyFuel q otherFuel) := by
  induction fuel generalizing otherFuel with
  | nil =>
    obtain rfl := List.length_eq_zero_iff.mp length.symm
    exact fun x => .pure .nil
  | cons _ fuel ih =>
    cases otherFuel with
    | nil => nomatch length
    | cons _ otherFuel =>
      intro x
      refine (h x).bind fun a b related => ?_
      cases related with
      | none => exact fun x => .pure .nil
      | some related =>
        exact fun x => (ih (Nat.succ.inj length) x).bind fun as bs more => fun x =>
          .pure (.cons related more)

theorem Alike.many {p q : Parser (Option α)} (h : Alike (Option.Rel R) p q) :
    Alike (List.Forall₂ R) (many p) (many q) :=
  fun x _ _ twins => h.manyFuel twins.length_eq x twins

theorem alike_keywords? {words : List String} (nonempty : "" ∉ words) :
    Alike Eq (keywords? words) (keywords? words) := by
  intro x tokens others twins
  unfold keywords?
  obtain ⟨h, hOther, y, behind⟩ | ⟨h, hOther⟩ := twins.words nonempty
  · rw [if_pos h, if_pos hOther]
    exact .ok rfl behind
  · rw [if_neg h, if_neg hOther]
    exact .ok rfl twins

theorem alike_keyword? {word : String} (nonempty : word ≠ "") :
    Alike Eq (keyword? word) (keyword? word) :=
  alike_keywords? fun mem => nonempty (List.mem_singleton.mp mem).symm

theorem alike_keyword {word : String} (nonempty : word ≠ "") :
    Alike Eq (keyword word) (keyword word) := by
  intro x
  refine (alike_keyword? nonempty x).bindEq fun found x => ?_
  split
  · exact .pure rfl
  · exact .expected _

theorem alike_keywords {words : List String} (nonempty : "" ∉ words) :
    Alike Eq (keywords words) (keywords words) := by
  induction words with
  | nil => exact fun x => .pure rfl
  | cons word words ih =>
    obtain ⟨isWord, more⟩ := not_or.mp (mt List.mem_cons.mpr nonempty)
    exact fun x => (alike_keyword (Ne.symm isWord) x).bindEq fun _ => ih more

theorem oneOf?_nil {words : List String} (absent : words.contains "" = false) :
    oneOf? words [] = .ok (none, []) := by
  change (if words.contains "" then _ else _ : Parser _) [] = _
  rw [absent]
  rfl

theorem oneOf?_cons {words : List String} {lexeme : Lexeme} {tokens : List Lexeme} :
    oneOf? words (lexeme :: tokens) =
      if words.contains lexeme.token.keyword then .ok (some lexeme.token.keyword, tokens)
      else .ok (none, lexeme :: tokens) := by
  change (if words.contains lexeme.token.keyword then _ else _ : Parser _) (lexeme :: tokens) = _
  split <;> rfl

theorem alike_oneOf? {words : List String} (nonempty : "" ∉ words) :
    Alike Eq (oneOf? words) (oneOf? words) := by
  have absent : words.contains "" = false := by simpa using nonempty
  intro x tokens others twins
  cases twins with
  | nil ends =>
    rw [oneOf?_nil absent]
    exact .ok rfl (.nil ends)
  | @cons _ y t u _ _ rest others precedes opens twin twins =>
    rw [oneOf?_cons, oneOf?_cons, ← twin.keyword_eq]
    split
    · exact .ok rfl twins
    · exact .ok rfl (.cons precedes opens twin twins)
  | parameter precedes marks names namesOther twins =>
    rw [oneOf?_cons, oneOf?_cons, if_neg (by simpa [Token.keyword] using absent),
      if_neg (by simpa [Token.keyword] using absent)]
    exact .ok rfl (.parameter precedes marks names namesOther twins)

theorem Sign.IsSure.ne_mark {s mark : Sign} (sure : s.IsSure)
    (marks : mark = .colon ∨ mark = .atSign) : mark ≠ s := by
  rintro rfl
  obtain rfl | rfl := marks
  · exact absurd sure (by decide)
  · exact absurd sure (by decide)

theorem alike_sign? {s : Sign} (sure : s.IsSure) : Alike Eq (sign? s) (sign? s) := by
  intro x tokens others twins
  have whole := twins
  cases twins with
  | nil => exact .ok rfl whole
  | cons precedes opens twin twins =>
    cases twin with
    | sign has hasOther =>
      have same := has.eq_iff hasOther sure
      unfold sign?
      dsimp only
      split
      · rw [if_pos (same.mp ‹_›)]
        exact .ok rfl twins
      · rw [if_neg (mt same.mpr ‹_›)]
        exact .ok rfl whole
    | _ => exact .ok rfl whole
  | parameter _ marks _ _ _ =>
    have other := Sign.IsSure.ne_mark sure marks
    unfold sign?
    dsimp only
    rw [if_neg other, if_neg other]
    exact .ok rfl whole

theorem alike_sign {s : Sign} (sure : s.IsSure) : Alike Eq (sign s) (sign s) := by
  intro x
  refine (alike_sign? sure x).bindEq fun found x => ?_
  split
  · exact .pure rfl
  · exact .expected _

theorem alike_isSign {s : Sign} (sure : s.IsSure) : Alike Eq (isSign s) (isSign s) := by
  intro x tokens others twins
  have whole := twins
  unfold isSign
  cases twins with
  | nil => exact .ok rfl whole
  | cons precedes opens twin twins =>
    cases twin with
    | sign has hasOther =>
      have same := has.eq_iff hasOther sure
      exact .ok (by simp [same]) whole
    | _ => exact .ok rfl whole
  | parameter _ marks _ _ _ =>
    have other := Sign.IsSure.ne_mark sure marks
    exact .ok (by simp) whole

/-- The keyword that a list of tokens starts with. -/
def headKeyword : List Lexeme → String
  | [] => ""
  | lexeme :: _ => lexeme.token.keyword

/-- Words of which the first does not come next. -/
theorem keywords?_of_ne {tokens : List Lexeme} {word : String} {words : List String}
    (h : headKeyword tokens ≠ word) :
    keywords? (word :: words) tokens = .ok (false, tokens) := by
  unfold keywords?
  rw [if_neg]
  cases tokens with
  | nil => nofun
  | cons => exact fun same => h (List.cons.inj same).1

/-- Words of which none comes next. -/
theorem oneOf?_of_notMem {tokens : List Lexeme} {words : List String}
    (h : headKeyword tokens ∉ words) :
    oneOf? words tokens = .ok (none, tokens) := by
  have absent : words.contains (headKeyword tokens) = false := by simpa using h
  cases tokens with
  | nil => exact oneOf?_nil absent
  | cons =>
    rw [oneOf?_cons]
    exact if_neg (Bool.eq_false_iff.mp absent)

theorem nextStrength_word (name : Ident) (start : Position) (tokens : List Lexeme) :
    nextStrength (⟨.word name, start⟩ :: tokens) =
      .ok (Strength.ofKeyword name.keyword (headKeyword tokens) (headKeyword tokens.tail),
        ⟨.word name, start⟩ :: tokens) := by
  rcases tokens with _ | ⟨second, _ | ⟨third, tokens⟩⟩ <;> rfl

theorem ofKeyword_nil (word last other : String) :
    Strength.ofKeyword word "" last = Strength.ofKeyword word "" other := by
  unfold Strength.ofKeyword
  split <;> rfl

theorem headKeyword_eq {tokens others : List Lexeme} (twins : Twins x tokens others) :
    headKeyword tokens = headKeyword others := by
  cases twins with
  | nil => rfl
  | cons _ _ twin _ => exact twin.keyword_eq
  | parameter => rfl

theorem ofKeyword_eq {word : String} {tokens others : List Lexeme} (twins : Twins x tokens others) :
    Strength.ofKeyword word (headKeyword tokens) (headKeyword tokens.tail) =
      Strength.ofKeyword word (headKeyword others) (headKeyword others.tail) := by
  cases twins with
  | nil => rfl
  | cons _ _ twin twins =>
    rw [List.tail_cons, List.tail_cons, headKeyword_eq twins]
    exact congrArg (Strength.ofKeyword word · _) twin.keyword_eq
  | parameter => exact ofKeyword_nil _ _ _

theorem alike_nextStrength : Alike Eq nextStrength nextStrength := by
  intro x tokens others twins
  have whole := twins
  cases twins with
  | nil => exact .ok rfl whole
  | cons precedes opens twin twins =>
    cases twin with
    | sign has hasOther => exact .ok (has.strength_eq hasOther) whole
    | name id free =>
      rw [nextStrength_word, nextStrength_word, ofKeyword_eq twins]
      exact .ok rfl whole
    | part id free =>
      rw [nextStrength_word, nextStrength_word, ofKeyword_eq twins]
      exact .ok rfl whole
    | word same sameOther is =>
      rw [nextStrength_word, nextStrength_word, ofKeyword_eq twins, same, sameOther]
      exact .ok rfl whole
    | quotedPart => exact .ok rfl whole
    | value => exact .ok rfl whole
  | parameter _ marks =>
    obtain rfl | rfl := marks <;> exact .ok rfl whole

theorem Alike.parens {p q : Parser α} (h : Alike R p q) : Alike R (parens p) (parens q) :=
  fun x => (alike_sign (by decide) x).bindEq fun _ x => (h x).bind fun _ _ related x =>
    (alike_sign (by decide) x).bindEq fun _ _ => .pure related

theorem Alike.commaList {p q : Parser α} (h : Alike R p q) :
    Alike (List.Forall₂ R) (commaList p) (commaList q) := by
  have more : Alike (Option.Rel R)
      (do if ← sign? .comma then return some (← p) else return none)
      (do if ← sign? .comma then return some (← q) else return none) := by
    intro x
    refine (alike_sign? (by decide) x).bindEq fun found x => ?_
    split
    · exact (h x).bind fun a b related x => .pure (.some related)
    · exact .pure .none
  exact fun x => (h x).bind fun a b related x =>
    (Alike.many more x).bind fun as bs others x => .pure (.cons related others)

theorem Alike.after? {word : String} (nonempty : word ≠ "") {p q : Parser α} (h : Alike R p q) :
    Alike (Option.Rel R) (after? word p) (after? word q) := by
  intro x
  refine (alike_keyword? nonempty x).bindEq fun found x => ?_
  split
  · exact (h x).bind fun a b related x => .pure (.some related)
  · exact .pure .none

/-! ## Where a parser goes on -/

namespace Alike

variable {p q : Parser α} {f f' : α → Parser β}

theorem bind (h : Alike R p q) (hf : ∀ a b, R a b → Alike S (f a) (f' b)) :
    Alike S (p >>= f) (q >>= f') := fun x => (h x).bind hf

theorem bindEq {p q : Parser α} (h : Alike Eq p q) (hf : ∀ a, Alike S (f a) (f' a)) :
    Alike S (p >>= f) (q >>= f') := fun x => (h x).bindEq hf

theorem pure {a b : α} (related : R a b) : Alike R (pure a) (pure b) := fun _ => .pure related

theorem expected (what : String) : Alike R (expected what) (expected what) := fun _ =>
  .expected what

theorem fail {e f : SyntaxError} (h : e ≠ .tooDeep) (hf : f ≠ .tooDeep) :
    Alike R (fail e) (fail f) := fun _ => .fail h hf

theorem ite {c : Prop} [Decidable c] {p' q' : Parser α} (h : Alike R p q) (hs : Alike R p' q') :
    Alike R (if c then p else p') (if c then q else q') := by
  split
  · exact h
  · exact hs

theorem attempt (h : Alike R p q) : Alike (Option.Rel R) (attempt p) (attempt q) :=
  fun x => (h x).attempt

theorem mono {T : α → α → Prop} (h : Alike R p q) (le : ∀ a b, R a b → T a b) : Alike T p q :=
  fun x => (h x).mono le

end Alike

namespace AlikeAt

variable {p q p' q' : Parser α}

/-- A word that no place has is a name, behind which the parser goes on. -/
theorem ifWord {word : String} (other : word ∉ "" :: Slot.placeWords)
    (yes : ∀ y : Slot, y.IsName → AlikeAt y R p q) (no : AlikeAt x R p' q') :
    AlikeAt x R (do if ← keyword? word then p else p') (do if ← keyword? word then q else q') := by
  obtain ⟨nonempty, notPlace⟩ := not_or.mp (mt List.mem_cons.mpr other)
  intro tokens others twins
  have same := headKeyword_eq twins
  by_cases is : headKeyword tokens = word
  · cases twins with
    | nil => exact absurd is.symm nonempty
    | parameter => exact absurd is.symm nonempty
    | @cons _ y t u start place rest otherRest precedes opens twin twins =>
      have read {token : Token} {start : Position} {more : List Lexeme}
          (is : token.keyword = word) :
          keyword? word (⟨token, start⟩ :: more) = .ok (true, more) := if_pos (by simp [is])
      rw [bind_ok (read is), bind_ok (read (same.symm.trans is))]
      have isWord : t.keyword = word := is
      exact yes y (twin.isName (isWord ▸ nonempty) (isWord ▸ notPlace)) twins
  · have skip {more : List Lexeme} (is : headKeyword more ≠ word) :
        keyword? word more = .ok (false, more) := keywords?_of_ne is
    rw [bind_ok (skip is), bind_ok (skip (same ▸ is))]
    exact no twins

/-- A sign stands for a place of this sign, behind which the parser goes on. -/
theorem ifSign {s : Sign} (sure : s.IsSure)
    (yes : ∀ y : Slot, y.HasSign s → AlikeAt y R p q) (no : AlikeAt x R p' q') :
    AlikeAt x R (do if ← sign? s then p else p') (do if ← sign? s then q else q') := by
  intro tokens others twins
  have whole := twins
  cases twins with
  | nil => exact no whole
  | @cons _ y t u start place rest otherRest precedes opens twin twins =>
    cases twin with
    | @sign _ a b has hasOther =>
      have same := has.eq_iff hasOther sure
      by_cases is : a = s
      · have read {t : Sign} {start : Position} {more : List Lexeme} (is : t = s) :
            sign? s (⟨.sign t, start⟩ :: more) = .ok (true, more) := congrArg Except.ok (if_pos is)
        rw [bind_ok (read is), bind_ok (read (same.mp is))]
        exact yes y (is ▸ has) twins
      · have skip {t : Sign} {start : Position} {more : List Lexeme} (is : t ≠ s) :
            sign? s (⟨.sign t, start⟩ :: more) = .ok (false, ⟨.sign t, start⟩ :: more) :=
          congrArg Except.ok (if_neg is)
        rw [bind_ok (skip is), bind_ok (skip (mt same.mpr is))]
        exact no whole
    | _ => exact no whole
  | parameter _ marks _ _ _ =>
    have skip {mark : Sign} {start : Position} {more : List Lexeme}
        (marks : mark = .colon ∨ mark = .atSign) :
        sign? s (⟨.sign mark, start⟩ :: more) = .ok (false, ⟨.sign mark, start⟩ :: more) :=
      congrArg Except.ok (if_neg (Sign.IsSure.ne_mark sure marks))
    rw [bind_ok (skip marks), bind_ok (skip marks)]
    exact no whole

end AlikeAt

end Parser

end SqlFootprint.Sql
