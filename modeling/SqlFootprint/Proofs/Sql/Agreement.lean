import SqlFootprint.Proofs.Sql.Attempts

/-! # Expressions of twins

The parsers of expressions agree on twins: both give expressions of the same shape, or both fail.
Names and values that are read along the way do not matter for that (`Whatever`). -/

namespace SqlFootprint.Sql.Parser

variable {α β : Type} {g : Grammar} {x : Slot}

/-- Two expressions have the same shape. -/
def SameShape (e other : Expr) : Prop := other.shape = e.shape

/-- Two lists of expressions have the same shapes. -/
def SameShapes (es others : List Expr) : Prop := shapes others = shapes es

theorem sameShapes_of_forall₂ {es others : List Expr} (h : List.Forall₂ SameShape es others) :
    SameShapes es others := by
  induction h with
  | nil => rfl
  | cons same _ ih => exact congrArg₂ List.cons same ih

namespace SameShape

variable {e f e' f' e'' f'' : Expr}

theorem unary (op : UnaryOp) (h : SameShape e f) : SameShape (.unary op e) (.unary op f) :=
  congrArg (Shape.unary op) h

theorem nested (h : SameShape e f) : SameShape (.nested e) (.nested f) := congrArg Shape.nested h

theorem binary (op : BinaryOp) (h : SameShape e f) (h' : SameShape e' f') :
    SameShape (.binary e op e') (.binary f op f') :=
  congrArg₂ (Shape.binary · op ·) h h'

theorem isTest (negated : Bool) (truth : Truth) (h : SameShape e f) :
    SameShape (.isTest e negated truth) (.isTest f negated truth) :=
  congrArg (Shape.isTest · negated truth) h

theorem inList {items others : List Expr} (negated : Bool) (h : SameShape e f)
    (h' : SameShapes items others) :
    SameShape (.inList e negated items) (.inList f negated others) :=
  congrArg₂ (Shape.inList · negated ·) h h'

theorem between (negated : Bool) (h : SameShape e f) (h' : SameShape e' f')
    (h'' : SameShape e'' f'') :
    SameShape (.between e negated e' e'') (.between f negated f' f'') := by
  unfold SameShape Expr.shape
  rw [h, h', h'']

theorem like (negated : Bool) (h : SameShape e f) (h' : SameShape e' f') :
    SameShape (.like e negated .like false e' none) (.like f negated .like false f' none) :=
  congrArg₂ (Shape.like · negated ·) h h'

end SameShape

/-- Any two values are as good as each other. -/
def Whatever (_ _ : α) : Prop := True

/-- What the parsers one level below are known to do on twins. -/
structure IsAlike (g : Grammar) : Prop where
  /-- They give expressions of the same shape. -/
  expr : ∀ strength, Alike SameShape (g.expr strength) (g.expr strength)
  /-- They give no query behind an opening parenthesis. -/
  hides : HidesQueries g

namespace Alike

variable {R : α → α → Prop} {p q p' q' : Parser α}

theorem ifSign {s : Sign} (sure : s.IsSure) (yes : Alike R p q) (no : Alike R p' q') :
    Alike R (do if ← sign? s then p else p') (do if ← sign? s then q else q') :=
  (alike_sign? sure).bindEq fun _ => .ite yes no

theorem ifKeywords {words : List String} (nonempty : "" ∉ words) (yes : Alike R p q)
    (no : Alike R p' q') :
    Alike R (do if ← keywords? words then p else p') (do if ← keywords? words then q else q') :=
  (alike_keywords? nonempty).bindEq fun _ => .ite yes no

theorem ifKeyword {word : String} (nonempty : word ≠ "") (yes : Alike R p q)
    (no : Alike R p' q') :
    Alike R (do if ← keyword? word then p else p') (do if ← keyword? word then q else q') :=
  (alike_keyword? nonempty).bindEq fun _ => .ite yes no

end Alike

/-! ## Names and values -/

theorem not_precedes_value (front : x.IsName ∨ x = .period) (value : Literal) :
    ¬ x.Precedes (.value value) := by
  obtain name | rfl := front
  · cases x with
    | name | part => exact fun precedes => (precedes.resolve_right nofun).elim
    | _ => exact name.elim
  · exact fun ⟨_, same⟩ => nomatch same

theorem alike_ident (front : x.IsName ∨ x = .period) : AlikeAt x Whatever ident ident := by
  intro tokens others twins
  cases twins with
  | nil => exact .error nofun nofun
  | parameter => exact .error nofun nofun
  | cons precedes _ twin twins =>
    cases twin with
    | value => exact absurd precedes (not_precedes_value front _)
    | sign => exact .error nofun nofun
    | _ => exact .ok trivial twins

theorem alike_textLiteral (front : x.IsName ∨ x = .period) :
    AlikeAt x Whatever textLiteral textLiteral := by
  intro tokens others twins
  cases twins with
  | nil => exact .error nofun nofun
  | parameter => exact .error nofun nofun
  | cons precedes _ twin twins =>
    cases twin with
    | value => exact absurd precedes (not_precedes_value front _)
    | sign => exact .error nofun nofun
    | _ => exact .ok trivial twins

theorem alike_objectName (name : x.IsName) : AlikeAt x Whatever objectName objectName := by
  have more : Alike (Option.Rel Whatever)
      (do if ← sign? .period then return some (← ident) else return none)
      (do if ← sign? .period then return some (← ident) else return none) :=
    fun x => .ifSign (by decide)
      (fun y has => (alike_ident (.inr (Slot.eq_period has))).bind fun _ _ _ =>
        .pure (.some trivial))
      (.pure .none)
  exact (alike_ident (.inl name)).bind fun _ _ _ => more.many.bind fun _ _ _ => .pure trivial

theorem literal_word (id : Ident) (start : Position) (rest : List Lexeme) :
    literal (⟨.word id, start⟩ :: rest) =
      match id.keyword with
      | "TRUE" => .ok (.boolean true, rest)
      | "FALSE" => .ok (.boolean false, rest)
      | "NULL" => .ok (.null, rest)
      | _ => .error (.expected "a concrete value" (some ⟨.word id, start⟩)) := rfl

/-- A sign of a place starts no parameter. -/
theorem ne_mark_of_hasSign {y : Slot} {s : Sign} (has : y.HasSign s) :
    ¬ (s = .colon ∨ s = .atSign) := by
  rintro (rfl | rfl)
  all_goals
    cases y with
    | unary op => cases op <;> nomatch has
    | _ => nomatch has

/-- A sign and the name right behind it are a parameter. -/
theorem literal_parameter {mark : Sign} {token : Token} {name : String} {start : Position}
    {rest : List Lexeme} (marks : mark = .colon ∨ mark = .atSign)
    (names : token.parameterName? = some name) :
    literal (⟨.sign mark, start⟩ :: ⟨token, start.advance mark.written.toList⟩ :: rest) =
      .ok (.placeholder (mark.written ++ name), rest) := by
  have read : parameter mark start (⟨token, start.advance mark.written.toList⟩ :: rest) =
      .ok (.placeholder (mark.written ++ name), rest) := by
    unfold parameter
    dsimp only
    rw [if_pos rfl]
    cases token with
    | word id => cases names; rfl
    | literal value =>
      cases value with
      | number digits long =>
        cases long <;> cases names
        rfl
      | _ => nomatch names
    | _ => nomatch names
  unfold literal
  dsimp only
  rw [if_pos (by simpa using marks), read]

theorem alike_literal : Alike Whatever literal literal := by
  intro x tokens others twins
  have word {y : Slot} {id other : Ident} {start place : Position} {tokens others : List Lexeme}
      (same : id.keyword = other.keyword) (twins : Twins y tokens others) :
      Agree Whatever (literal (⟨.word id, start⟩ :: tokens))
        (literal (⟨.word other, place⟩ :: others)) := by
    rw [literal_word, literal_word, same]
    split
    · exact .ok trivial twins
    · exact .ok trivial twins
    · exact .ok trivial twins
    · exact .error nofun nofun
  cases twins with
  | nil => exact .error nofun nofun
  | @cons _ y _ _ _ _ _ _ _ _ twin twins =>
    cases twin with
    | name => exact word rfl twins
    | part => exact word rfl twins
    | quotedPart => exact .ok trivial twins
    | value => exact .ok trivial twins
    | word same sameOther => exact word (same.trans sameOther.symm) twins
    | @sign _ s t has hasOther =>
      have fails {s : Sign} (has : y.HasSign s) (start : Position) (rest : List Lexeme) :
          literal (⟨.sign s, start⟩ :: rest) =
            .error (.expected "a value" (some ⟨.sign s, start⟩)) :=
        if_neg (by simpa using ne_mark_of_hasSign has)
      rw [fails has, fails hasOther]
      exact .error nofun nofun
  | parameter _ marks names namesOther twins =>
    rw [literal_parameter marks names, literal_parameter marks namesOther]
    exact .ok trivial twins

/-! ## Places that are known -/

/-- What stands behind an opening parenthesis. -/
theorem twins_behindParen {tokens others : List Lexeme} {start place : Position}
    (twins : Twins x (⟨.sign .leftParen, start⟩ :: tokens) (⟨.sign .leftParen, place⟩ :: others)) :
    Twins .leftParen tokens others := by
  cases twins with
  | parameter _ marks => exact absurd marks (by decide)
  | cons _ _ twin twins =>
    cases twin with
    | sign has => exact Slot.eq_leftParen has ▸ twins

theorem AlikeAt.parens {R : α → α → Prop} {p q : Parser α} (h : AlikeAt .leftParen R p q) :
    AlikeAt x R (parens p) (parens q) := by
  have close : AlikeAt .leftParen R (do let a ← p; sign .rightParen; return a)
      (do let a ← q; sign .rightParen; return a) :=
    h.bind fun _ _ related => (alike_sign (by decide)).bindEq fun _ => .pure related
  intro tokens others twins
  have agree := alike_sign (by decide : Sign.IsSure .leftParen) x twins
  generalize found : sign .leftParen tokens = first at agree
  generalize foundOther : sign .leftParen others = second at agree
  unfold Parser.parens
  rw [bind_run, bind_run, found, foundOther]
  cases agree with
  | ok =>
    obtain ⟨start, rfl⟩ := sign_eq_ok found
    obtain ⟨place, rfl⟩ := sign_eq_ok foundOther
    exact close (twins_behindParen twins)
  | tooDeep => exact .tooDeep
  | error h hf => exact .error h hf

theorem Alike.afterName {R : α → α → Prop} {p q : Parser α} {word : String}
    (other : word ∉ "" :: Slot.placeWords) (h : ∀ y : Slot, y.IsName → AlikeAt y R p q) :
    Alike (Option.Rel R) (Parser.after? word p) (Parser.after? word q) := fun _ =>
  .ifWord other (fun y name => (h y name).bind fun _ _ related => .pure (.some related))
    (.pure .none)

theorem AlikeAt.oneOfNames {S : β → β → Prop} {f f' : Option String → Parser β}
    {words : List String} (other : ∀ word ∈ words, word ∉ "" :: Slot.placeWords)
    (yes : ∀ (word : String) (y : Slot), y.IsName → AlikeAt y S (f (some word)) (f' (some word)))
    (no : AlikeAt x S (f none) (f' none)) :
    AlikeAt x S (oneOf? words >>= f) (oneOf? words >>= f') := by
  intro tokens others twins
  have same := headKeyword_eq twins
  by_cases listed : headKeyword tokens ∈ words
  · obtain ⟨nonempty, notPlace⟩ := not_or.mp (mt List.mem_cons.mpr (other _ listed))
    cases twins with
    | nil => exact absurd rfl nonempty
    | parameter => exact absurd rfl nonempty
    | @cons _ y t u start place rest otherRest _ _ twin twins =>
      have read {token : Token} {start : Position} {more : List Lexeme}
          (mem : token.keyword ∈ words) :
          oneOf? words (⟨token, start⟩ :: more) = .ok (some token.keyword, more) := by
        rw [oneOf?_cons]
        exact if_pos (by simpa using mem)
      have keyword : t.keyword = u.keyword := same
      rw [bind_ok (read listed), bind_ok (read (keyword ▸ listed)), ← keyword]
      exact yes _ y (twin.isName nonempty notPlace) twins
  · rw [bind_ok (oneOf?_of_notMem listed), bind_ok (oneOf?_of_notMem (same ▸ listed))]
    exact no twins

/-! ## Arguments -/

/-- Whether no dotted name with a star at its end is read on. -/
def NoStar (tokens : List Lexeme) : Prop := ∀ parts, starRun parts tokens = .ok none

/-- Whether a part of a dotted name comes next, and no star behind it. -/
def PartFirst : List Lexeme → Prop
  | [] => False
  | lexeme :: rest => (starQualifier? lexeme.token).isSome ∧ NoStar rest

theorem PartFirst.noStar {start : Position} {tokens : List Lexeme} (first : PartFirst tokens) :
    NoStar (⟨.sign .period, start⟩ :: tokens) := by
  intro parts
  match tokens, first with
  | ⟨.word id, _⟩ :: rest, ⟨_, noStar⟩ => exact noStar _
  | ⟨.literal (.text .single value), _⟩ :: rest, ⟨_, noStar⟩ => exact noStar _

theorem noStar_of_ne {s : Sign} {start : Position} {tokens : List Lexeme} (other : s ≠ .period) :
    NoStar (⟨.sign s, start⟩ :: tokens) := by
  intro parts
  cases s with
  | period => exact absurd rfl other
  | _ => cases tokens <;> rfl

theorem noStar_of_twins {tokens others : List Lexeme} (twins : Twins x tokens others) :
    (NoStar tokens ∧ NoStar others) ∧ (x = .period → PartFirst tokens ∧ PartFirst others) := by
  induction twins with
  | nil ends => exact ⟨⟨fun _ => rfl, fun _ => rfl⟩, fun same => (same ▸ ends).elim⟩
  | parameter precedes marks =>
    refine ⟨?_, fun same => absurd precedes (not_precedes_value (.inr same) _)⟩
    obtain rfl | rfl := marks <;> exact ⟨fun _ => rfl, fun _ => rfl⟩
  | @cons x y t u start place tokens others precedes _ twin twins ih =>
    obtain ⟨⟨noStar, noStarOther⟩, behindPeriod⟩ := ih
    refine ⟨?_, ?_⟩
    · cases twin with
      | @sign _ s t has hasOther =>
        by_cases atPeriod : s = .period
        · have atPeriodOther : t = .period :=
            (has.eq_iff hasOther (by decide : Sign.IsSure .period)).mp atPeriod
          obtain ⟨first, firstOther⟩ := behindPeriod (Slot.eq_period (atPeriod ▸ has))
          exact ⟨atPeriod ▸ first.noStar, atPeriodOther ▸ firstOther.noStar⟩
        · have notPeriod : t ≠ .period :=
            mt (has.eq_iff hasOther (by decide : Sign.IsSure .period)).mpr atPeriod
          exact ⟨noStar_of_ne atPeriod, noStar_of_ne notPeriod⟩
      | _ => exact ⟨fun _ => rfl, fun _ => rfl⟩
    · rintro rfl
      obtain ⟨id, rfl⟩ := precedes
      cases twin with
      | part => exact ⟨⟨rfl, noStar⟩, rfl, noStarOther⟩
      | quotedPart => exact ⟨⟨rfl, noStar⟩, rfl, noStarOther⟩
      | word _ _ is => exact absurd rfl is
      | sign has => exact has.elim

theorem exprOrStar_cons {token : Token} {start : Position} {rest : List Lexeme}
    (other : token ≠ .sign .star) : exprOrStar g (⟨token, start⟩ :: rest) =
      match starQualifier? token with
      | some name => do
        match ← starRun [name] rest with
        | some (parts, rest) => return (.tableWildcard parts, rest)
        | none => g.full (⟨token, start⟩ :: rest)
      | none => g.full (⟨token, start⟩ :: rest) := by
  cases token with
  | sign s => cases s <;> first | rfl | exact absurd rfl other
  | _ => rfl

theorem exprOrStar_eq {token : Token} {start : Position} {rest : List Lexeme}
    (other : token ≠ .sign .star) (noStar : (starQualifier? token).isSome → NoStar rest) :
    exprOrStar g (⟨token, start⟩ :: rest) = g.full (⟨token, start⟩ :: rest) := by
  rw [exprOrStar_cons other]
  cases found : starQualifier? token with
  | none => rfl
  | some name =>
    dsimp only
    rw [noStar (by rw [found]; rfl) [name]]
    rfl

theorem alike_exprOrStar (alike : IsAlike g) : Alike SameShape (exprOrStar g) (exprOrStar g) := by
  intro x tokens others twins
  have whole := twins
  have full := alike.expr 0 x twins
  have skip {token other : Token} {start place : Position} {rest more : List Lexeme}
      (agree : Agree SameShape (g.full (⟨token, start⟩ :: rest)) (g.full (⟨other, place⟩ :: more)))
      (notStar : token ≠ .sign .star) (notStarOther : other ≠ .sign .star)
      (noStar : (starQualifier? token).isSome → NoStar rest)
      (noStarOther : (starQualifier? other).isSome → NoStar more) :
      Agree SameShape (exprOrStar g (⟨token, start⟩ :: rest))
        (exprOrStar g (⟨other, place⟩ :: more)) := by
    rw [exprOrStar_eq notStar noStar, exprOrStar_eq notStarOther noStarOther]
    exact agree
  cases twins with
  | nil => exact full
  | parameter _ marks =>
    refine skip full ?_ ?_ nofun nofun <;> obtain rfl | rfl := marks <;> nofun
  | cons precedes opens twin twins =>
    obtain ⟨⟨noStar, noStarOther⟩, -⟩ := noStar_of_twins twins
    cases twin with
    | @sign _ s t has hasOther =>
      have same := has.eq_iff hasOther (by decide : Sign.IsSure .star)
      by_cases star : s = .star
      · obtain rfl := star
        obtain rfl := same.mp rfl
        exact .ok rfl twins
      · exact skip full (by simpa using star) (by simpa using mt same.mpr star) nofun nofun
    | _ => exact skip full nofun nofun (fun _ => noStar) fun _ => noStarOther

/-- A value is no label. -/
theorem argLabel_fails {literal : Literal} {start : Position} {rest : List Lexeme}
    (stops : StopsOperand rest) : Fails argLabel (⟨.literal literal, start⟩ :: rest) := by
  have behind (name : Ident) : Fails (do
      if ← keyword? "VALUE" then return name.written ++ " VALUE "
      if ← sign? .rightArrow then return name.written ++ " => "
      expected "argument operator" : Parser String) rest := by
    have noWord : keyword? "VALUE" rest = .ok (false, rest) := stops.keywords?_eq [] (by decide)
    have noArrow : sign? .rightArrow rest = .ok (false, rest) := stops.sign?_eq (by decide)
    exact .behind noWord (.behind noArrow (.expected _ _))
  cases literal with
  | text kind value =>
    cases kind with
    | single => exact behind _
    | double => exact behind _
    | _ => exact .of_expected rfl
  | _ => exact .of_expected rfl

theorem alike_argLabel : Alike Whatever argLabel argLabel := by
  have behind (name other : Ident) : Alike Whatever
      (do if ← keyword? "VALUE" then return name.written ++ " VALUE "
          if ← sign? .rightArrow then return name.written ++ " => "
          expected "argument operator" : Parser String)
      (do if ← keyword? "VALUE" then return other.written ++ " VALUE "
          if ← sign? .rightArrow then return other.written ++ " => "
          expected "argument operator") :=
    .ifKeyword (by decide) (.pure trivial) (.ifSign (by decide) (.pure trivial) (.expected _))
  intro x tokens others twins
  cases twins with
  | nil => exact .error nofun nofun
  | parameter => exact .error nofun nofun
  | cons precedes _ twin twins =>
    cases twin with
    | value literal =>
      obtain ⟨stops, stopsOther⟩ := stopsOperand_of_isEnd (by trivial) twins
      obtain ⟨e, notDeep, same⟩ := argLabel_fails stops
      obtain ⟨f, otherNotDeep, sameOther⟩ := argLabel_fails stopsOther
      rw [same, sameOther]
      exact .error notDeep otherNotDeep
    | sign => exact .error nofun nofun
    | _ => exact behind _ _ _ twins

theorem alike_argOf (found other : String × Expr) : Alike Whatever
    (match found.2 with
      | .wildcard => return .wildcard found.1 []
      | .tableWildcard parts => return .wildcard found.1 parts
      | e => return .value found.1 e : Parser Arg)
    (match other.2 with
      | .wildcard => return .wildcard other.1 []
      | .tableWildcard parts => return .wildcard other.1 parts
      | e => return .value other.1 e) := by
  split <;> split <;> exact .pure trivial

theorem alike_arg (alike : IsAlike g) : Alike Whatever (arg g) (arg g) := by
  have labelled : Alike (Option.Rel Whatever)
      (attempt do let label ← argLabel; return (label, ← exprOrStar g))
      (attempt do let label ← argLabel; return (label, ← exprOrStar g)) :=
    (alike_argLabel.bind (S := Whatever) fun _ _ _ => (alike_exprOrStar alike).bind fun _ _ _ =>
      .pure trivial).attempt
  refine labelled.bind fun found other related => ?_
  cases related with
  | none =>
    exact (alike_exprOrStar alike).bind fun e f _ => alike_argOf ("", e) ("", f)
  | some => exact alike_argOf _ _

theorem alike_commaList_whatever {p q : Parser α} {R : α → α → Prop} (h : Alike R p q) :
    Alike Whatever (commaList p) (commaList q) := h.commaList.mono fun _ _ _ => trivial

theorem alike_orderKey (alike : IsAlike g) : Alike Whatever (orderKey g) (orderKey g) := by
  have direction : Alike Eq direction? direction? := by
    refine (alike_oneOf? (by decide)).bindEq fun found => ?_
    cases found with
    | none => exact .pure rfl
    | some => exact .pure rfl
  refine (alike.expr 0).bind fun key other _ => direction.bindEq fun _ => ?_
  exact .ifKeywords (by decide) (.pure trivial)
    (.ifKeywords (by decide) (.pure trivial) (.pure trivial))

theorem alike_orderBy? (alike : IsAlike g) : Alike Whatever (orderBy? g) (orderBy? g) :=
  .ifKeywords (by decide) (alike_commaList_whatever (alike_orderKey alike)) (.pure trivial)

theorem alike_duplicates? : Alike Whatever duplicates? duplicates? := by
  have place : Alike Whatever place place := fun x _ _ twins => .ok trivial twins
  refine place.bind fun _ _ _ => (alike_keyword? (by decide)).bindEq fun all =>
    (alike_keyword? (by decide)).bindEq fun distinct => ?_
  cases all <;> cases distinct
  · exact .pure trivial
  · exact .pure trivial
  · exact .pure trivial
  · exact .fail nofun nofun

theorem alike_callArgs (alike : IsAlike g) (call other : Call) :
    Alike Whatever (callArgs g call) (callArgs g other) := by
  refine .ifSign (by decide) (.pure trivial) ?_
  refine alike_duplicates?.bind fun _ _ _ =>
    (alike_commaList_whatever (alike_arg alike)).bind fun _ _ _ =>
    (alike_orderBy? alike).bind fun _ _ _ =>
    (Alike.after? (by decide) (alike.expr 0)).bind fun _ _ _ =>
    (Alike.after? (by decide) alike_literal).bind fun _ _ _ =>
    (alike_sign (by decide)).bind fun _ _ _ => .pure trivial

section

variable {w w' : Window → Parser Expr} {n n' : String → Parser Expr}
  {k k' : List OrderKey → Parser Expr}

theorem alike_window (h : ∀ a b, Alike SameShape (w a) (w' b)) :
    Alike SameShape
      (do
        let window ← if ← keyword? "OVER" then
            if ← sign? .leftParen then windowSpec g else pure (Window.named (← ident))
          else pure Window.none
        w window)
      (do
        let window ← if ← keyword? "OVER" then
            if ← sign? .leftParen then windowSpec g else pure (Window.named (← ident))
          else pure Window.none
        w' window) := by
  have named : ∀ y : Slot, y.IsName → AlikeAt y SameShape
      (do
        let window ← if ← sign? .leftParen then windowSpec g else pure (Window.named (← ident))
        w window)
      (do
        let window ← if ← sign? .leftParen then windowSpec g else pure (Window.named (← ident))
        w' window) := by
    intro y name
    refine .skipParen name.isEnd ((alike_ident (.inl name)).bind fun a b _ => h _ _)
  exact fun x => .ifWord (by decide) named (h _ _ x)

theorem alike_nulls (h : ∀ a b, Alike SameShape (n a) (n' b)) :
    Alike SameShape
      (do
        let nulls ← match ← oneOf? ["RESPECT", "IGNORE"] with
          | some word => do
            keyword "NULLS"
            pure (word ++ " NULLS")
          | none => pure ""
        n nulls)
      (do
        let nulls ← match ← oneOf? ["RESPECT", "IGNORE"] with
          | some word => do
            keyword "NULLS"
            pure (word ++ " NULLS")
          | none => pure ""
        n' nulls) := by
  refine (alike_oneOf? (by decide)).bindEq fun found => ?_
  cases found with
  | none => exact h _ _
  | some word => exact (alike_keyword (by decide)).bindEq fun _ => h _ _

theorem alike_within (alike : IsAlike g) (h : ∀ a b, Alike SameShape (k a) (k' b)) :
    Alike SameShape
      (do
        let within ← if ← keywords? ["WITHIN", "GROUP"] then parens do
            keywords ["ORDER", "BY"]
            commaList (orderKey g)
          else pure []
        k within)
      (do
        let within ← if ← keywords? ["WITHIN", "GROUP"] then parens do
            keywords ["ORDER", "BY"]
            commaList (orderKey g)
          else pure []
        k' within) := by
  have keys : Alike Whatever (do keywords ["ORDER", "BY"]; commaList (orderKey g))
      (do keywords ["ORDER", "BY"]; commaList (orderKey g)) :=
    (alike_keywords (by decide)).bindEq fun _ => alike_commaList_whatever (alike_orderKey alike)
  exact .ifKeywords (by decide) (keys.parens.bind fun _ _ _ => h _ _) (h _ _)

end

theorem alike_call (alike : IsAlike g) (name other : ObjectName) :
    Alike SameShape (call g name) (call g other) := by
  refine (alike_sign (by decide)).bind fun _ _ _ => (alike_callArgs alike _ _).bind fun _ _ _ => ?_
  exact alike_within alike fun _ _ => alike_nulls fun _ _ => alike_window fun _ _ => .pure rfl

end SqlFootprint.Sql.Parser
