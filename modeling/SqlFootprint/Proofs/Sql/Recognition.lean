import SqlFootprint.Proofs.Sql.Spelling

/-! # What the parser of operands has read

Whenever the parser gives an expression that has a compact text of its own, the tokens it has read
spell the places of that expression. The proof follows the parsers: a parser that gives something
else is passed over (`Gives`), any other is inverted step by step (`Recognizes`, `Extends`). This
file goes as far as operands without the parts of names behind them. -/

namespace SqlFootprint.Sql

namespace Parser

variable {α β : Type}

/-! ## Running parsers backwards -/

theorem bind_eq_ok {p : Parser α} {f : α → Parser β} {tokens rest : List Lexeme} {b : β} :
    (p >>= f) tokens = .ok (b, rest) ↔
      ∃ a middle, p tokens = .ok (a, middle) ∧ f a middle = .ok (b, rest) := by
  change Except.bind (p tokens) (fun (a, middle) => f a middle) = _ ↔ _
  cases p tokens with
  | error e => simp [Except.bind]
  | ok found => exact ⟨fun h => ⟨_, _, rfl, h⟩, fun ⟨_, _, same, h⟩ => by cases same; exact h⟩

theorem pure_eq_ok {a b : α} {tokens rest : List Lexeme} :
    (pure a : Parser α) tokens = .ok (b, rest) ↔ a = b ∧ tokens = rest := by
  change Except.ok (a, tokens) = _ ↔ _
  simp

theorem sign?_eq_ok {s : Sign} {tokens rest : List Lexeme} {found : Bool}
    (h : sign? s tokens = .ok (found, rest)) :
    (found = true ∧ ∃ start, tokens = ⟨.sign s, start⟩ :: rest) ∨
      (found = false ∧ rest = tokens) := by
  unfold sign? at h
  split at h
  · rename_i t start more
    by_cases same : t = s
    · rw [if_pos same] at h
      cases h
      exact .inl ⟨rfl, start, by rw [same]⟩
    · rw [if_neg same] at h
      cases h
      exact .inr ⟨rfl, rfl⟩
  · cases h
    exact .inr ⟨rfl, rfl⟩

theorem sign_eq_ok {s : Sign} {tokens rest : List Lexeme} (h : sign s tokens = .ok ((), rest)) :
    ∃ start, tokens = ⟨.sign s, start⟩ :: rest := by
  obtain ⟨found, middle, ask, last⟩ := bind_eq_ok.mp h
  obtain ⟨rfl, start, rfl⟩ | ⟨rfl, -⟩ := sign?_eq_ok ask
  · obtain ⟨-, rfl⟩ := pure_eq_ok.mp last
    exact ⟨start, rfl⟩
  · nomatch last

theorem attempt_eq_ok {p : Parser α} {tokens rest : List Lexeme} {found : Option α}
    (h : attempt p tokens = .ok (found, rest)) :
    (∃ a, found = some a ∧ p tokens = .ok (a, rest)) ∨
      (found = none ∧ rest = tokens ∧ ∃ e, e ≠ .tooDeep ∧ p tokens = .error e) := by
  unfold attempt at h
  split at h
  · rename_i a more same
    cases h
    exact .inl ⟨a, rfl, same⟩
  · cases h
  · rename_i e notDeep same
    cases h
    exact .inr ⟨rfl, rfl, e, notDeep, same⟩

/-- A token with a keyword is a word. -/
theorem exists_of_keyword {token : Token} {word : String} (is : token.keyword = word)
    (nonempty : word ≠ "") : ∃ id, token = .word id ∧ id.keyword = word := by
  cases token with
  | word id => exact ⟨id, rfl, is⟩
  | _ => exact absurd is.symm nonempty

theorem keyword?_eq_ok {word : String} (nonempty : word ≠ "") {tokens rest : List Lexeme}
    {found : Bool} (h : keyword? word tokens = .ok (found, rest)) :
    (found = true ∧ ∃ id start, tokens = ⟨.word id, start⟩ :: rest ∧ id.keyword = word) ∨
      (found = false ∧ rest = tokens) := by
  unfold keyword? keywords? at h
  split at h
  · rename_i same
    cases h
    cases tokens with
    | nil => nomatch same
    | cons lexeme more =>
      obtain ⟨token, start⟩ := lexeme
      obtain ⟨id, rfl, is⟩ := exists_of_keyword (List.cons.inj same).1 nonempty
      exact .inl ⟨rfl, id, start, rfl, is⟩
  · cases h
    exact .inr ⟨rfl, rfl⟩

theorem keyword_eq_ok {word : String} (nonempty : word ≠ "") {tokens rest : List Lexeme}
    (h : keyword word tokens = .ok ((), rest)) :
    ∃ id start, tokens = ⟨.word id, start⟩ :: rest ∧ id.keyword = word := by
  obtain ⟨found, middle, ask, last⟩ := bind_eq_ok.mp h
  obtain ⟨rfl, id, start, rfl, is⟩ | ⟨rfl, -⟩ := keyword?_eq_ok nonempty ask
  · obtain ⟨-, rfl⟩ := pure_eq_ok.mp last
    exact ⟨id, start, rfl, is⟩
  · nomatch last

theorem keywords?_eq_ok {words : List String} {tokens rest : List Lexeme} {found : Bool}
    (h : keywords? words tokens = .ok (found, rest)) :
    (found = true ∧ ∃ used, tokens = used ++ rest ∧ used.map (·.token.keyword) = words) ∨
      (found = false ∧ rest = tokens) := by
  unfold keywords? at h
  split at h
  · rename_i same
    cases h
    exact .inl ⟨rfl, tokens.take words.length, (List.take_append_drop ..).symm, same⟩
  · cases h
    exact .inr ⟨rfl, rfl⟩

theorem nextStrength_eq_ok {tokens rest : List Lexeme} {n : Nat}
    (h : nextStrength tokens = .ok (n, rest)) : rest = tokens := by
  cases h
  rfl

theorem isSign_eq_ok {s : Sign} {tokens rest : List Lexeme} {found : Bool}
    (h : isSign s tokens = .ok (found, rest)) : rest = tokens := by
  cases h
  rfl

theorem oneOf?_eq_none {words : List String} {tokens rest : List Lexeme}
    (h : oneOf? words tokens = .ok (none, rest)) : rest = tokens := by
  obtain ⟨word, middle, ask, last⟩ := bind_eq_ok.mp h
  have stays : tokens = middle := by cases ask; rfl
  split at last
  · obtain ⟨_, _, -, last⟩ := bind_eq_ok.mp last
    nomatch (pure_eq_ok.mp last).1
  · rw [stays]
    exact (pure_eq_ok.mp last).2.symm

/-- What a parser gives several times. -/
theorem manyFuel_induction {p : Parser (Option α)}
    (holds : List α → List Lexeme → List Lexeme → Prop) (none : ∀ tokens, holds [] tokens tokens)
    (stop : ∀ {tokens rest}, p tokens = .ok (.none, rest) → holds [] tokens rest)
    (more : ∀ {tokens middle rest a as}, p tokens = .ok (some a, middle) → holds as middle rest →
      holds (a :: as) tokens rest) (fuel : List Lexeme) {tokens rest : List Lexeme} {found : List α}
    (h : manyFuel p fuel tokens = .ok (found, rest)) : holds found tokens rest := by
  induction fuel generalizing tokens found with
  | nil =>
    obtain ⟨rfl, rfl⟩ := pure_eq_ok.mp h
    exact none tokens
  | cons _ fuel ih =>
    obtain ⟨one, middle, first, last⟩ := bind_eq_ok.mp h
    cases one with
    | none =>
      obtain ⟨rfl, rfl⟩ := pure_eq_ok.mp last
      exact stop first
    | some a =>
      obtain ⟨as, behind, others, last⟩ := bind_eq_ok.mp last
      obtain ⟨rfl, rfl⟩ := pure_eq_ok.mp last
      exact more first (ih others)

/-! ## Parsers that give something else -/

/-- What a parser gives has a property. -/
def Gives (holds : α → Prop) (p : Parser α) : Prop :=
  ∀ ⦃tokens rest : List Lexeme⦄ ⦃a : α⦄, p tokens = .ok (a, rest) → holds a

namespace Gives

variable {holds : α → Prop}

theorem bind {p : Parser β} {f : β → Parser α} (h : ∀ b, Gives holds (f b)) :
    Gives holds (p >>= f) := by
  intro tokens rest a found
  obtain ⟨b, middle, -, last⟩ := bind_eq_ok.mp found
  exact h b last

theorem of_bind {p : Parser α} {f : α → Parser β} {holdsToo : β → Prop} (h : Gives holds p)
    (last : ∀ a, holds a → Gives holdsToo (f a)) : Gives holdsToo (p >>= f) := by
  intro tokens rest b found
  obtain ⟨a, middle, first, next⟩ := bind_eq_ok.mp found
  exact last a (h first) next

theorem pure {a : α} (h : holds a) : Gives holds (pure a) := by
  rintro tokens rest b ⟨⟩
  exact h

theorem ite {c : Prop} [Decidable c] {p q : Parser α} (h : Gives holds p) (other : Gives holds q) :
    Gives holds (if c then p else q) := by
  split
  · exact h
  · exact other

theorem fail {e : SyntaxError} : Gives holds (fail e) := nofun

theorem expected {what : String} : Gives holds (expected what) := nofun

theorem parens {p : Parser α} (h : Gives holds p) : Gives holds (parens p) :=
  bind fun _ => h.of_bind fun _ found => bind fun _ => pure found

theorem attempt {p : Parser α} (h : Gives holds p) :
    Gives (fun found => ∀ a ∈ found, holds a) (attempt p) := by
  intro tokens rest found given
  obtain ⟨a, rfl, same⟩ | ⟨rfl, -⟩ := attempt_eq_ok given
  · rintro b ⟨⟩
    exact h same
  · nofun

theorem orElse {p q : Parser α} (h : Gives holds p) (last : Gives holds q) :
    Gives holds (orElse p q) := by
  intro tokens rest a found
  obtain ⟨one, middle, first, next⟩ := bind_eq_ok.mp found
  cases one with
  | none => exact last next
  | some b =>
    obtain ⟨rfl, rfl⟩ := pure_eq_ok.mp next
    obtain ⟨c, same, found⟩ | ⟨none, -⟩ := attempt_eq_ok first
    · cases same
      exact h found
    · nomatch none

theorem preferring {p q : Parser Expr} {holds : Expr → Prop} (h : Gives holds p)
    (last : Gives holds q) : Gives holds (preferring p q) := by
  intro tokens rest e found
  unfold Parser.preferring at found
  split at found
  · cases found
    exact h ‹_›
  · split at found <;> cases found
    exact last ‹_›

end Gives

/-- Whether names with periods between them are held as one name. -/
def IsWhole : Expr → Prop
  | .access root parts => allNames? (root :: parts) = none
  | .dotted ids => ids ≠ []
  | _ => True

/-- Whether an expression is not written by places. -/
def IsForeign (e : Expr) : Prop := ¬ e.IsOwn ∧ IsWhole e

variable {g : Grammar}

theorem gives_call (name : ObjectName) : Gives IsForeign (call g name) := by
  unfold call
  repeat' first
    | refine Gives.bind fun _ => ?_
    | exact Gives.pure ⟨nofun, trivial⟩
    | split

/-- What a word starts as a keyword is no operand of a row of places, but for values and
negations. -/
theorem gives_keywordExpr {name : Ident} {parenAhead : Bool} {form : Parser Expr}
    (h : keywordExpr? g name parenAhead = some form)
    (other : name.keyword ∉ ["TRUE", "FALSE", "NULL", "NOT"]) : Gives IsForeign form := by
  unfold keywordExpr? at h
  split at h <;> (try split at h) <;> cases h
  all_goals first
    | (rename_i is; rw [is] at other; simp at other; done)
    | skip
  all_goals repeat' first
    | exact gives_call _
    | unfold choice | unfold convert | unfold cast | unfold existsRow | unfold extract
    | unfold rounded | unfold position | unfold substring | unfold overlay | unfold trimmed
    | unfold interval | unfold fullText
    | refine Gives.parens ?_
    | refine Gives.orElse ?_ ?_
    | refine Gives.bind fun _ => ?_
    | refine Gives.pure ⟨nofun, trivial⟩
    | exact Gives.fail
    | split

theorem gives_typedLiteral : Gives IsForeign (typedLiteral g) := by
  unfold typedLiteral interval
  repeat' first
    | refine Gives.bind fun _ => ?_
    | refine Gives.pure ⟨nofun, trivial⟩
    | exact Gives.expected
    | split

/-! ## Parsers of rows of places -/

/-- A parser reads the tokens of what it gives, behind some tokens that were read already. -/
def Recognizes (front : List Lexeme) (p : Parser Expr) : Prop :=
  ∀ ⦃tokens rest : List Lexeme⦄ ⦃e : Expr⦄, p tokens = .ok (e, rest) → e.IsOwn →
    ∃ used, tokens = used ++ rest ∧ Spells e.slots (front ++ used)

/-- A parser reads the tokens of what it adds to an expression, behind some tokens that were read
already. -/
def Extends (left : Expr) (front : List Lexeme) (p : Parser Expr) : Prop :=
  ∀ ⦃tokens rest : List Lexeme⦄ ⦃e : Expr⦄, p tokens = .ok (e, rest) → e.IsOwn →
    left.IsOwn ∧ ∃ used more, tokens = used ++ rest ∧ e.slots = left.slots ++ more ∧
      Spells more (front ++ used)

/-- What the parsers one level below are known to do. -/
structure IsFaithful (g : Grammar) : Prop where
  /-- They read the tokens of what they give. -/
  recognizes : ∀ strength, Recognizes [] (g.expr strength)
  /-- They give names with periods between them as one name. -/
  whole : ∀ strength, Gives IsWhole (g.expr strength)

/-- What is given is no row of places. -/
theorem Recognizes.of_gives {front : List Lexeme} {p : Parser Expr} (h : Gives IsForeign p) :
    Recognizes front p :=
  fun _ _ _ found own => ((h found).1 own).elim

theorem Extends.of_gives {left : Expr} {front : List Lexeme} {p : Parser Expr}
    (h : Gives IsForeign p) : Extends left front p :=
  fun _ _ _ found own => ((h found).1 own).elim

/-- A value that is given without reading on. -/
theorem Recognizes.pure {front : List Lexeme} {e : Expr} (spells : Spells e.slots front) :
    Recognizes front (pure e) := by
  intro tokens rest found same own
  obtain ⟨rfl, rfl⟩ := pure_eq_ok.mp same
  exact ⟨[], rfl, by rwa [List.append_nil]⟩

theorem Recognizes.preferring {front : List Lexeme} {first second : Parser Expr}
    (h : Recognizes front first) (hs : Recognizes front second) :
    Recognizes front (preferring first second) := by
  intro tokens rest e found own
  unfold Parser.preferring at found
  split at found
  · cases found
    exact h ‹_› own
  · split at found <;> cases found
    exact hs ‹_› own

/-- An operator before its operand. -/
theorem Recognizes.unary (faithful : IsFaithful g) {token : Token} {start : Position} {op : UnaryOp}
    (strength : Nat) (fits : (Slot.unary op).Fits token) :
    Recognizes [⟨token, start⟩] (return .unary op (← g.expr strength)) := by
  intro tokens rest e found own
  obtain ⟨arg, middle, first, last⟩ := bind_eq_ok.mp found
  obtain ⟨rfl, rfl⟩ := pure_eq_ok.mp last
  cases own with
  | unary _ ownArg =>
    obtain ⟨used, rfl, spells⟩ := faithful.recognizes strength first ownArg
    exact ⟨used, rfl, .cons fits spells⟩

/-- A look at the tokens ahead. -/
theorem Recognizes.look {front : List Lexeme} {p : Parser α} {f : α → Parser Expr}
    (looks : ∀ tokens, ∃ a, p tokens = .ok (a, tokens)) (h : ∀ a, Recognizes front (f a)) :
    Recognizes front (p >>= f) := by
  intro tokens rest e found own
  obtain ⟨a, middle, first, last⟩ := bind_eq_ok.mp found
  obtain ⟨b, same⟩ := looks tokens
  cases same.symm.trans first
  exact h _ last own

theorem recognizes_nameExpr {name : Ident} (start : Position) (free : name.keyword ≠ "INTERVAL") :
    Recognizes [⟨.word name, start⟩] (nameExpr g name) := by
  have plain : Recognizes [⟨.word name, start⟩] (pure (Expr.name name)) :=
    .pure (.singleton (.name name free) start)
  refine .look (fun tokens => ⟨_, rfl⟩) fun ahead => ?_
  split
  · exact .of_gives (gives_call _)
  · split
    · exact .of_gives (.bind fun _ => .pure ⟨nofun, trivial⟩)
    · exact plain
  · exact plain

/-- What a word starts as a keyword. -/
theorem recognizes_keywordExpr (faithful : IsFaithful g) {name : Ident} (start : Position)
    {parenAhead : Bool} {form : Parser Expr} (h : keywordExpr? g name parenAhead = some form) :
    Recognizes [⟨.word name, start⟩] form := by
  by_cases special : name.keyword ∈ ["TRUE", "FALSE", "NULL", "NOT"]
  · have word {slot : Slot} (same : slot.keyword = name.keyword) : slot.Fits (.word name) :=
      .word same.symm (by rintro none; rw [none] at special; simp at special)
    simp only [List.mem_cons, List.not_mem_nil, or_false] at special
    obtain is | is | is | is := special <;> rw [keywordExpr?, is] at h <;> cases h
    · exact .pure (.singleton (word (show (Slot.value (.boolean true)).keyword = _ from is.symm)) _)
    · exact .pure
        (.singleton (word (show (Slot.value (.boolean false)).keyword = _ from is.symm)) _)
    · exact .pure (.singleton (word (show (Slot.value .null).keyword = _ from is.symm)) _)
    · intro tokens rest e found own
      obtain ⟨ahead, middle, ask, last⟩ := bind_eq_ok.mp found
      obtain ⟨rfl, -⟩ | ⟨rfl, rfl⟩ := keyword?_eq_ok (by decide) ask
      · have foreign : Gives IsForeign (existsRow g true) := .bind fun _ => .pure ⟨nofun, trivial⟩
        exact ((foreign last).1 own).elim
      · exact Recognizes.unary faithful Strength.not
          (word (show (Slot.unary .not).keyword = _ from is.symm)) last own
  · exact .of_gives (gives_keywordExpr h special)

theorem recognizes_wordExpr (faithful : IsFaithful g) (name : Ident) (start : Position) :
    Recognizes [⟨.word name, start⟩] (wordExpr g name) := by
  refine .look (fun tokens => ⟨_, rfl⟩) fun parenAhead => ?_
  split
  · rename_i none
    refine recognizes_nameExpr start fun is => ?_
    rw [keywordExpr?, is] at none
    nomatch none
  · rename_i form some
    split
    · exact recognizes_keywordExpr faithful start some
    · rename_i allowed
      refine (recognizes_keywordExpr faithful start some).preferring
        (recognizes_nameExpr start fun is => allowed ?_)
      rw [is]
      rfl

/-- Expressions with commas between them. -/
theorem recognizes_commaList (faithful : IsFaithful g) {tokens rest : List Lexeme}
    {items : List Expr} (found : commaList g.full tokens = .ok (items, rest))
    (own : ∀ item ∈ items, item.IsOwn) :
    ∃ used, tokens = used ++ rest ∧ Spells (listSlots items) used := by
  obtain ⟨first, middle, one, last⟩ := bind_eq_ok.mp found
  obtain ⟨others, behind, more, last⟩ := bind_eq_ok.mp last
  obtain ⟨rfl, rfl⟩ := pure_eq_ok.mp last
  obtain ⟨_, _, ⟨⟩, more⟩ := bind_eq_ok.mp more
  obtain ⟨ownFirst, ownOthers⟩ := List.forall_mem_cons.mp own
  obtain ⟨usedFirst, rfl, spells⟩ := faithful.recognizes 0 one ownFirst
  suffices h : (∀ item ∈ others, item.IsOwn) →
      ∃ used, middle = used ++ behind ∧
        Spells (others.flatMap fun item => .comma :: item.slots) used by
    obtain ⟨usedOthers, rfl, spellsOthers⟩ := h ownOthers
    refine ⟨usedFirst ++ usedOthers, (List.append_assoc ..).symm, ?_⟩
    rw [listSlots_cons]
    exact spells.append spellsOthers
  refine manyFuel_induction (fun others tokens rest =>
    (∀ item ∈ others, item.IsOwn) → ∃ used, tokens = used ++ rest ∧
      Spells (others.flatMap fun item => .comma :: item.slots) used)
    (fun tokens _ => ⟨[], rfl, .nil⟩) ?_ ?_ _ more
  · intro tokens rest stop _
    obtain ⟨found, middle, ask, last⟩ := bind_eq_ok.mp stop
    obtain ⟨rfl, -⟩ | ⟨rfl, rfl⟩ := sign?_eq_ok ask
    · obtain ⟨_, _, _, last⟩ := bind_eq_ok.mp last
      nomatch (pure_eq_ok.mp last).1
    · obtain ⟨-, rfl⟩ := pure_eq_ok.mp last
      exact ⟨[], rfl, .nil⟩
  · intro tokens middle rest item items next ih own
    obtain ⟨ownItem, ownItems⟩ := List.forall_mem_cons.mp own
    obtain ⟨found, behind, ask, last⟩ := bind_eq_ok.mp next
    obtain ⟨rfl, start, rfl⟩ | ⟨rfl, -⟩ := sign?_eq_ok ask
    · obtain ⟨e, behind, one, last⟩ := bind_eq_ok.mp last
      obtain ⟨⟨⟩, rfl⟩ := pure_eq_ok.mp last
      obtain ⟨used, rfl, spells⟩ := faithful.recognizes 0 one ownItem
      obtain ⟨usedMore, rfl, spellsMore⟩ := ih ownItems
      refine ⟨⟨.sign .comma, start⟩ :: (used ++ usedMore), by simp, ?_⟩
      exact .cons (.sign rfl) (spells.append spellsMore)
    · nomatch (pure_eq_ok.mp last).1

theorem recognizes_parenExpr (faithful : IsFaithful g) (start : Position) :
    Recognizes [⟨.sign .leftParen, start⟩] (parenExpr g) := by
  refine .look (fun tokens => ⟨_, rfl⟩) fun queryAhead => ?_
  split
  · refine .of_gives (.bind fun query => ?_)
    have foreign : Gives IsForeign (pure (Expr.subquery query)) := .pure ⟨nofun, trivial⟩
    exact foreign.of_bind fun e given => .bind fun _ => .pure given
  · intro tokens rest e found own
    obtain ⟨items, middle, list, last⟩ := bind_eq_ok.mp found
    split at last
    all_goals
      obtain ⟨inner, behind, same, last⟩ := bind_eq_ok.mp last
      obtain ⟨rfl, rfl⟩ := pure_eq_ok.mp same
      obtain ⟨_, behind, close, last⟩ := bind_eq_ok.mp last
      obtain ⟨stop, rfl⟩ := sign_eq_ok close
      obtain ⟨rfl, rfl⟩ := pure_eq_ok.mp last
    · cases own with
      | nested ownInner =>
        obtain ⟨used, rfl, spells⟩ := recognizes_commaList faithful list (by simpa)
        rw [listSlots_singleton] at spells
        refine ⟨used ++ [⟨.sign .rightParen, stop⟩], by simp, ?_⟩
        exact spells.paren start stop
    · nomatch own

/-- A parameter behind its sign. -/
theorem parameter_eq_ok {s : Sign} {start : Position} {tokens rest : List Lexeme} {value : Literal}
    (h : parameter s start tokens = .ok (value, rest)) :
    ∃ token name, token.parameterName? = some name ∧ value = .placeholder (s.written ++ name) ∧
      tokens = ⟨token, start.advance s.written.toList⟩ :: rest := by
  unfold parameter at h
  split at h
  · rename_i lexeme more
    obtain ⟨token, place⟩ := lexeme
    split at h
    · rename_i near
      cases near
      dsimp only at h
      split at h <;> cases h
      · exact ⟨_, _, rfl, rfl, rfl⟩
      · exact ⟨_, _, rfl, rfl, rfl⟩
    · cases h
  · cases h

theorem recognizes_operandStart (faithful : IsFaithful g) : Recognizes [] (operandStart g) := by
  intro tokens rest e found own
  obtain ⟨typed, middle, first, last⟩ := bind_eq_ok.mp found
  obtain ⟨a, rfl, typedFound⟩ | ⟨rfl, rfl, -⟩ := attempt_eq_ok first
  · obtain ⟨rfl, rfl⟩ := pure_eq_ok.mp last
    exact ((gives_typedLiteral typedFound).1 own).elim
  · obtain ⟨_, _, ⟨⟩, last⟩ := bind_eq_ok.mp last
    cases middle with
    | nil => nomatch last
    | cons lexeme tokens =>
      obtain ⟨token, start⟩ := lexeme
      cases token with
      | word name =>
        obtain ⟨_, _, ⟨⟩, last⟩ := bind_eq_ok.mp last
        obtain ⟨used, rfl, spells⟩ := recognizes_wordExpr faithful name start last own
        exact ⟨_ :: used, rfl, spells⟩
      | literal value =>
        obtain ⟨_, _, ⟨⟩, last⟩ := bind_eq_ok.mp last
        obtain ⟨rfl, rfl⟩ := pure_eq_ok.mp last
        exact ⟨[_], rfl, .singleton (.value value) start⟩
      | sign s =>
        have parameter : ∀ mark : Sign, mark = .colon ∨ mark = .atSign → s = mark →
            (do return Expr.literal (← literal) : Parser Expr) (⟨.sign s, start⟩ :: tokens) =
              .ok (e, rest) →
            ∃ used, ⟨.sign s, start⟩ :: tokens = used ++ rest ∧ Spells e.slots ([] ++ used) := by
          rintro mark marks rfl read
          obtain ⟨value, behind, given, last⟩ := bind_eq_ok.mp read
          obtain ⟨rfl, rfl⟩ := pure_eq_ok.mp last
          have given : Parser.parameter s start tokens = .ok (value, behind) := by
            simpa [literal, marks] using given
          obtain ⟨token, name, names, rfl, rfl⟩ := parameter_eq_ok given
          exact ⟨[_, _], rfl, .parameter marks names .nil⟩
        cases s with
        | colon => exact parameter .colon (.inl rfl) rfl last
        | atSign => exact parameter .atSign (.inr rfl) rfl last
        | minus =>
          obtain ⟨_, _, ⟨⟩, last⟩ := bind_eq_ok.mp last
          have fits : (Slot.unary .minus).Fits (.sign .minus) := .sign rfl
          obtain ⟨used, rfl, spells⟩ :=
            Recognizes.unary faithful Strength.product fits last own
          exact ⟨_ :: used, rfl, spells⟩
        | plus =>
          obtain ⟨_, _, ⟨⟩, last⟩ := bind_eq_ok.mp last
          have fits : (Slot.unary .plus).Fits (.sign .plus) := .sign rfl
          obtain ⟨used, rfl, spells⟩ :=
            Recognizes.unary faithful Strength.product fits last own
          exact ⟨_ :: used, rfl, spells⟩
        | leftParen =>
          obtain ⟨_, _, ⟨⟩, last⟩ := bind_eq_ok.mp last
          obtain ⟨used, rfl, spells⟩ := recognizes_parenExpr faithful start last own
          exact ⟨_ :: used, rfl, spells⟩
        | _ => nomatch last
      | other c => nomatch last

end Parser

end SqlFootprint.Sql
