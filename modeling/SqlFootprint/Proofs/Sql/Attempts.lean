import SqlFootprint.Proofs.Sql.Twins

/-! # Attempts that fail

Before the parser reads an operand or a list it attempts to read something else: a literal of a
type, a query, the form of a keyword. In a row of places such an attempt fails at once, on twins
alike, for what stands behind an operand (`StopsOperand`) starts no operand and opens no
parenthesis. -/

namespace SqlFootprint.Sql.Parser

open Slot (behindWords placeWords)

variable {α β : Type}

/-! ## What stands behind an operand -/

/-- The signs that start an operand or a list, and the sign behind a label. -/
def openingSigns : List Sign := [.leftParen, .colon, .atSign, .rightArrow]

/-- Whether tokens may stand behind an operand: the first is a sign or a word, and none that starts
an operand or a list. -/
def StopsOperand : List Lexeme → Prop
  | [] => True
  | ⟨.sign s, _⟩ :: _ => s ∉ openingSigns
  | ⟨.word id, _⟩ :: _ => id.keyword ∈ behindWords
  | _ => False

/-- The sign of a place behind an operand. -/
theorem sign_notMem_of_isBehind {y : Slot} {s : Sign} (behind : y.IsBehind ∨ y = .period)
    (has : y.HasSign s) : s ∉ openingSigns := by
  obtain behind | rfl := behind
  · cases y with
    | binary op =>
      intro mem
      simp only [openingSigns, List.mem_cons, List.not_mem_nil, or_false] at mem
      obtain rfl | rfl | rfl | rfl := mem <;> nomatch has
    | rightParen => rw [show s = .rightParen from has]; decide
    | comma => rw [show s = .comma from has]; decide
    | is | not | isIn | between | like => exact has.elim
    | _ => exact behind.elim
  · rw [show s = .period from has]
    decide

theorem stopsOperand_of_isEnd {x : Slot} (ends : x.IsEnd) {tokens others : List Lexeme}
    (twins : Twins x tokens others) : StopsOperand tokens ∧ StopsOperand others := by
  cases twins with
  | nil => exact ⟨trivial, trivial⟩
  | cons precedes _ twin _ =>
    have behind := ends.behind precedes
    cases twin with
    | sign has hasOther =>
      exact ⟨sign_notMem_of_isBehind behind has, sign_notMem_of_isBehind behind hasOther⟩
    | word same sameOther is =>
      have mem :=
        Slot.keyword_mem_behindWords (behind.resolve_right (by rintro rfl; exact is rfl)) is
      exact ⟨Eq.subst (motive := (· ∈ behindWords)) same.symm mem,
        Eq.subst (motive := (· ∈ behindWords)) sameOther.symm mem⟩
    | _ => exact (behind.resolve_right nofun).elim
  | parameter precedes => exact ((ends.behind precedes).resolve_right nofun).elim

/-! ## Parsers that fail at once -/

/-- A parser fails, and not because of too deep a nesting. -/
def Fails (p : Parser α) (tokens : List Lexeme) : Prop :=
  ∃ e, e ≠ .tooDeep ∧ p tokens = .error e

/-- A parser fails or reads nothing. -/
def Stays (p : Parser α) (tokens : List Lexeme) : Prop :=
  (∃ a, p tokens = .ok (a, tokens)) ∨ Fails p tokens

variable {p : Parser α} {f : α → Parser β} {tokens : List Lexeme}

theorem Fails.bind (h : Fails p tokens) : Fails (p >>= f) tokens := by
  obtain ⟨e, notDeep, same⟩ := h
  refine ⟨e, notDeep, ?_⟩
  change Except.bind (p tokens) _ = _
  rw [same]
  rfl

theorem Fails.behind {a : α} {rest : List Lexeme} (h : p tokens = .ok (a, rest))
    (fails : Fails (f a) rest) : Fails (p >>= f) tokens := by
  unfold Fails
  rw [bind_ok h]
  exact fails

theorem Fails.of_expected {what : String} {found : Option Lexeme}
    (h : p tokens = .error (.expected what found)) : Fails p tokens :=
  ⟨.expected what found, nofun, h⟩

theorem Fails.expected (what : String) (tokens : List Lexeme) :
    Fails (expected what : Parser α) tokens :=
  .of_expected rfl

namespace Stays

theorem pure (a : α) : Stays (pure a) tokens := .inl ⟨a, rfl⟩

theorem bind (h : Stays p tokens) (hf : ∀ a, Stays (f a) tokens) : Stays (p >>= f) tokens := by
  obtain ⟨a, same⟩ | fails := h
  · have step : (p >>= f) tokens = f a tokens := by
      change Except.bind (p tokens) _ = _
      rw [same]
      rfl
    unfold Stays Fails
    rw [step]
    exact hf a
  · exact .inr fails.bind

theorem bindFails (h : Stays p tokens) (hf : ∀ a, Fails (f a) tokens) : Fails (p >>= f) tokens := by
  obtain ⟨a, same⟩ | fails := h
  · have step : (p >>= f) tokens = f a tokens := by
      change Except.bind (p tokens) _ = _
      rw [same]
      rfl
    unfold Fails
    rw [step]
    exact hf a
  · exact fails.bind

theorem ite {c : Prop} [Decidable c] {p q : Parser α} (h : Stays p tokens) (hq : Stays q tokens) :
    Stays (if c then p else q) tokens := by
  split
  · exact h
  · exact hq

end Stays

namespace StopsOperand

theorem sign?_eq (stops : StopsOperand tokens) {s : Sign} (opens : s ∈ openingSigns) :
    sign? s tokens = .ok (false, tokens) := by
  match tokens, stops with
  | [], _ => rfl
  | ⟨.sign t, start⟩ :: rest, stops =>
    have other : t ≠ s := fun same => stops (same ▸ opens)
    unfold sign?
    dsimp only
    rw [if_neg other]
  | ⟨.word id, start⟩ :: rest, _ => rfl

theorem isSign_leftParen (stops : StopsOperand tokens) :
    isSign .leftParen tokens = .ok (false, tokens) := by
  match tokens, stops with
  | [], _ => rfl
  | ⟨.sign s, start⟩ :: rest, stops =>
    have other : s ≠ .leftParen := fun same => stops (same ▸ List.mem_cons_self)
    simp [isSign, other]
  | ⟨.word id, start⟩ :: rest, _ => rfl

theorem sign_fails (stops : StopsOperand tokens) : Fails (sign .leftParen) tokens := by
  unfold Fails sign
  rw [bind_ok (stops.sign?_eq List.mem_cons_self)]
  exact Fails.expected _ _

theorem parens_fails (stops : StopsOperand tokens) (p : Parser α) : Fails (parens p) tokens :=
  stops.sign_fails.bind

theorem headKeyword_mem (stops : StopsOperand tokens) : headKeyword tokens ∈ "" :: behindWords := by
  match tokens, stops with
  | [], _ => exact List.mem_cons_self
  | ⟨.sign s, start⟩ :: rest, _ => exact List.mem_cons_self
  | ⟨.word id, start⟩ :: rest, stops => exact List.mem_cons_of_mem _ stops

theorem keywords?_eq (stops : StopsOperand tokens) {word : String} (words : List String)
    (other : word ∉ "" :: behindWords) :
    keywords? (word :: words) tokens = .ok (false, tokens) :=
  keywords?_of_ne fun same => other (same ▸ stops.headKeyword_mem)

theorem oneOf?_eq (stops : StopsOperand tokens) {words : List String}
    (other : ∀ word ∈ words, word ∉ "" :: behindWords) :
    oneOf? words tokens = .ok (none, tokens) :=
  oneOf?_of_notMem fun mem => other _ mem stops.headKeyword_mem

theorem literal_fails (stops : StopsOperand tokens) : Fails literal tokens := by
  match tokens, stops with
  | [], _ => exact .of_expected rfl
  | ⟨.sign s, start⟩ :: rest, stops =>
    have other : ¬ ((s = .colon || s = .atSign) = true) := by
      rintro mark
      obtain rfl | rfl : s = .colon ∨ s = .atSign := by simpa using mark
      · exact stops (by decide)
      · exact stops (by decide)
    refine .of_expected
      (?_ : _ = Except.error (SyntaxError.expected "a value" (some ⟨.sign s, start⟩)))
    unfold literal
    dsimp only
    rw [if_neg other]
    rfl
  | ⟨.word id, start⟩ :: rest, stops =>
    refine .of_expected
      (?_ : _ = Except.error (SyntaxError.expected "a concrete value" (some ⟨.word id, start⟩)))
    unfold literal
    dsimp only
    split
    · rename_i is; rw [StopsOperand, is] at stops; exact absurd stops (by decide)
    · rename_i is; rw [StopsOperand, is] at stops; exact absurd stops (by decide)
    · rename_i is; rw [StopsOperand, is] at stops; exact absurd stops (by decide)
    · rfl

theorem stays_keywords? (stops : StopsOperand tokens) {word : String} (words : List String)
    (other : word ∉ "" :: behindWords) : Stays (keywords? (word :: words)) tokens :=
  .inl ⟨false, stops.keywords?_eq words other⟩

theorem stays_keyword (stops : StopsOperand tokens) {word : String}
    (other : word ∉ "" :: behindWords) : Stays (keyword word) tokens :=
  (stops.stays_keywords? [] other).bind fun _ => .ite (.pure _) (.inr (.expected _ _))

theorem stays_ifParen (stops : StopsOperand tokens) (p : Parser α) {q : Parser α}
    (h : Stays q tokens) :
    Stays (do if ← sign? .leftParen then p else q) tokens := by
  unfold Stays Fails
  rw [bind_ok (stops.sign?_eq List.mem_cons_self)]
  exact h

theorem stays_size? (stops : StopsOperand tokens) : Stays size? tokens :=
  stops.stays_ifParen _ (.pure _)

theorem stays_numberSize? (stops : StopsOperand tokens) : Stays numberSize? tokens :=
  stops.stays_ifParen _ (.pure _)

theorem stays_textSize? (stops : StopsOperand tokens) : Stays textSize? tokens :=
  stops.stays_ifParen _ (.pure _)

theorem stays_timeZone? (stops : StopsOperand tokens) : Stays timeZone? tokens := by
  have zone : Stays (keywords ["TIME", "ZONE"]) tokens :=
    (stops.stays_keyword (by decide)).bind fun _ =>
      (stops.stays_keyword (by decide)).bind fun _ => .pure _
  refine (stops.stays_keywords? [] (by decide)).bind fun _ => .ite (zone.bind fun _ => .pure _) ?_
  exact (stops.stays_keywords? [] (by decide)).bind fun _ =>
    .ite (zone.bind fun _ => .pure _) (.pure _)

/-- Nothing that a known type reads stands behind an operand. -/
theorem stays_knownType (stops : StopsOperand tokens) {word : String} {rest : Parser DataType}
    (known : knownType? word = some rest) : Stays rest tokens := by
  have word? (w : String) (other : w ∉ "" :: behindWords) : Stays (keyword? w) tokens :=
    stops.stays_keywords? [] other
  have signed : Stays (oneOf? ["UNSIGNED", "SIGNED"]) tokens :=
    .inl ⟨none, stops.oneOf?_eq (by decide)⟩
  have list {γ : Type} (p : Parser γ) (f : γ → Parser DataType) : Stays (parens p >>= f) tokens :=
    .inr (stops.parens_fails p).bind
  unfold knownType? at known
  split at known
  · cases known
    exact .pure _
  split at known
  · cases known
    exact stops.stays_size?.bind fun _ => .pure _
  split at known
  · cases known
    refine stops.stays_size?.bind fun _ => signed.bind fun sign => ?_
    split <;> exact .pure _
  split at known
  · cases known
    exact stops.stays_numberSize?.bind fun _ => .pure _
  split at known <;> cases known
  · exact (word? _ (by decide)).bind fun _ => .ite (.pure _)
      (stops.stays_numberSize?.bind fun _ => .pure _)
  iterate 3 exact stops.stays_textSize?.bind fun _ => .pure _
  iterate 2
    refine (word? _ (by decide)).bind fun _ => .ite (stops.stays_textSize?.bind fun _ => .pure _) ?_
    refine (stops.stays_keywords? _ (by decide)).bind fun _ => ?_
    exact .ite (stops.stays_size?.bind fun _ => .pure _)
      (stops.stays_textSize?.bind fun _ => .pure _)
  · exact (word? _ (by decide)).bind fun _ =>
      .ite (stops.stays_size?.bind fun _ => .pure _) (stops.stays_size?.bind fun _ => .pure _)
  iterate 2
    exact stops.stays_size?.bind fun _ => stops.stays_timeZone?.bind fun _ => .pure _
  · exact .inr (stops.parens_fails _).bind.bind
  · exact list _ _
  iterate 2
    exact (word? _ (by decide)).bind fun _ => .ite (.pure _) (.pure _)

end StopsOperand

/-- Parsers that fail behind an operand are alike there. -/
theorem AlikeAt.of_fails {R : α → α → Prop} {x : Slot} {p q : Parser α} (ends : x.IsEnd)
    (h : ∀ tokens, StopsOperand tokens → Fails p tokens)
    (hq : ∀ tokens, StopsOperand tokens → Fails q tokens) : AlikeAt x R p q := by
  intro tokens others twins
  obtain ⟨stops, stopsOther⟩ := stopsOperand_of_isEnd ends twins
  obtain ⟨e, notDeep, same⟩ := h tokens stops
  obtain ⟨f, otherNotDeep, sameOther⟩ := hq others stopsOther
  rw [same, sameOther]
  exact .error notDeep otherNotDeep

theorem AlikeAt.of_stops {R : α → α → Prop} {x : Slot} {p : Parser α} (ends : x.IsEnd)
    (h : ∀ tokens, StopsOperand tokens → Fails p tokens) : AlikeAt x R p p :=
  .of_fails ends h h

/-- A parenthesis that does not come next is passed over. -/
theorem AlikeAt.skipParen {S : β → β → Prop} {x : Slot} {f f' : Bool → Parser β} (ends : x.IsEnd)
    (no : AlikeAt x S (f false) (f' false)) :
    AlikeAt x S (sign? .leftParen >>= f) (sign? .leftParen >>= f') := by
  intro tokens others twins
  obtain ⟨stops, stopsOther⟩ := stopsOperand_of_isEnd ends twins
  rw [bind_ok (stops.sign?_eq List.mem_cons_self), bind_ok (stopsOther.sign?_eq List.mem_cons_self)]
  exact no twins

/-! ## A literal of a type -/

/-- A parser that is never nested too deeply. -/
def IsShallow (p : Parser α) : Prop := ∀ tokens, p tokens ≠ .error .tooDeep

namespace IsShallow

theorem bind (h : IsShallow p) (hf : ∀ a, IsShallow (f a)) : IsShallow (p >>= f) := by
  intro tokens same
  change Except.bind (p tokens) (fun (a, rest) => f a rest) = _ at same
  cases found : p tokens with
  | error e =>
    rw [found] at same
    cases same
    exact h tokens found
  | ok found' =>
    rw [found] at same
    exact hf _ _ same

theorem pure (a : α) : IsShallow (pure a) := fun _ => nofun

theorem ite {c : Prop} [Decidable c] {p q : Parser α} (h : IsShallow p) (hq : IsShallow q) :
    IsShallow (if c then p else q) := by
  split
  · exact h
  · exact hq

theorem many {p : Parser (Option α)} (h : IsShallow p) : IsShallow (many p) := by
  have run : ∀ fuel, IsShallow (manyFuel p fuel) := by
    intro fuel
    induction fuel with
    | nil => exact .pure _
    | cons _ fuel ih =>
      refine h.bind fun found => ?_
      cases found with
      | none => exact .pure _
      | some a => exact ih.bind fun _ => .pure _
  exact fun tokens => run tokens tokens

end IsShallow

theorem isShallow_sign? (s : Sign) : IsShallow (sign? s) := by
  intro tokens same
  unfold sign? at same
  split at same <;> nomatch same

theorem isShallow_ident : IsShallow ident := by
  intro tokens same
  unfold ident at same
  split at same <;> nomatch same

theorem isShallow_objectName : IsShallow objectName := by
  refine isShallow_ident.bind fun _ => .bind (.many ?_) fun _ => .pure _
  refine (isShallow_sign? _).bind fun _ => .ite (isShallow_ident.bind fun _ => .pure _) (.pure _)

theorem isShallow_modifiers? : IsShallow modifiers? := by
  refine (isShallow_sign? _).bind fun _ => .ite (.bind (.many ?_) fun _ => .pure _) (.pure _)
  refine .bind (fun _ => nofun) fun _ => ?_
  split
  · exact .pure _
  · exact .pure _
  · exact .pure _
  · exact .pure _
  · exact .pure _
  · exact fun _ => nofun

variable {g : Grammar} {x : Slot}

/-- What stands behind a data type where a literal of the type is read. -/
def typedRest : DataType → Parser Expr
  | .custom .. => expected "a data type name"
  | type => return .typed type (← literal)

theorem typedRest_fails {rest : List Lexeme} (type : DataType) (stops : StopsOperand rest) :
    Fails (typedRest type) rest := by
  cases type with
  | custom => exact .expected _ _
  | known => exact stops.literal_fails.bind

theorem typedLiteral_eq {tokens : List Lexeme} (h : headKeyword tokens ≠ "INTERVAL") :
    typedLiteral g tokens = (dataType >>= typedRest) tokens := by
  have notInterval : keyword? "INTERVAL" tokens = .ok (false, tokens) := keywords?_of_ne h
  unfold typedLiteral
  rw [bind_ok notInterval]
  rfl

/-- A type of another name. -/
def namedType : Parser DataType := do
  let name ← objectName
  return DataType.custom name (← modifiers?)

theorem namedType_fails (tokens : List Lexeme) : Fails (namedType >>= typedRest) tokens := by
  have shallow : IsShallow namedType :=
    isShallow_objectName.bind fun _ => isShallow_modifiers?.bind fun _ => .pure _
  have custom : Gives (fun type => ∃ name sizes, type = .custom name sizes) namedType :=
    .bind fun _ => .bind fun _ => .pure ⟨_, _, rfl⟩
  unfold Fails
  rw [bind_run]
  cases found : namedType tokens with
  | error e => exact ⟨e, fun deep => shallow tokens (deep ▸ found), rfl⟩
  | ok given =>
    obtain ⟨type, rest⟩ := given
    obtain ⟨name, sizes, rfl⟩ := custom found
    exact Fails.expected _ _

theorem dataType_word {id : Ident} {start : Position} {rest : List Lexeme} :
    dataType (⟨.word id, start⟩ :: rest) = match knownType? id.keyword with
      | some size => size rest
      | none => namedType (⟨.word id, start⟩ :: rest) := by
  change (match knownType? id.keyword with | some _ => _ | none => _ : Parser DataType) _ = _
  cases knownType? id.keyword <;> rfl

/-- A word, behind which stands nothing that starts an operand if it names a type, starts no literal
of a type. -/
theorem dataType_fails {id : Ident} {start : Position} {rest : List Lexeme}
    (stops : knownType? id.keyword ≠ none → StopsOperand rest) :
    Fails (dataType >>= typedRest) (⟨.word id, start⟩ :: rest) := by
  unfold Fails
  rw [bind_run, dataType_word]
  cases known : knownType? id.keyword with
  | none => exact namedType_fails _
  | some size =>
    have stops := stops (by rw [known]; nofun)
    have stays : Fails (size >>= typedRest) rest :=
      (stops.stays_knownType known).bindFails fun type => typedRest_fails type stops
    exact stays

theorem knownType?_of_mem {word : String} (mem : word ∈ placeWords) : knownType? word = none := by
  simp only [placeWords, behindWords, List.cons_append, List.nil_append, List.mem_cons,
    List.not_mem_nil, or_false] at mem
  rcases mem with rfl | rfl | rfl | rfl | rfl | rfl | rfl | rfl | rfl | rfl | rfl | rfl | rfl | rfl
    <;> rfl

/-- No literal of a type starts a row of places. -/
theorem alike_typedLiteral {R : Expr → Expr → Prop} :
    Alike R (typedLiteral g) (typedLiteral g) := by
  have noWord {token : Token} {start : Position} {rest : List Lexeme}
      (other : ∀ id, token ≠ .word id) :
      Fails (typedLiteral g) (⟨token, start⟩ :: rest) := by
    cases token with
    | word id => exact absurd rfl (other id)
    | _ => exact .of_expected rfl
  have word {id : Ident} {start : Position} {rest : List Lexeme} (free : id.keyword ≠ "INTERVAL")
      (stops : knownType? id.keyword ≠ none → StopsOperand rest) :
      Fails (typedLiteral g) (⟨.word id, start⟩ :: rest) := by
    have free : headKeyword (⟨.word id, start⟩ :: rest) ≠ "INTERVAL" := free
    unfold Fails
    rw [typedLiteral_eq free]
    exact dataType_fails stops
  have placeWord {id : Ident} {start : Position} {rest : List Lexeme}
      (mem : id.keyword ∈ placeWords) : Fails (typedLiteral g) (⟨.word id, start⟩ :: rest) :=
    word (by rintro same; rw [same] at mem; exact absurd mem (by decide))
      fun known => absurd (knownType?_of_mem mem) known
  intro x tokens others twins
  suffices both : Fails (typedLiteral g) tokens ∧ Fails (typedLiteral g) others by
    obtain ⟨⟨e, notDeep, same⟩, f, otherNotDeep, sameOther⟩ := both
    rw [same, sameOther]
    exact .error notDeep otherNotDeep
  cases twins with
  | nil => exact ⟨.of_expected rfl, .of_expected rfl⟩
  | parameter => exact ⟨noWord nofun, noWord nofun⟩
  | cons _ _ twin twins =>
    cases twin with
    | name id free =>
      have stops := stopsOperand_of_isEnd (show (Slot.name id).IsEnd from trivial) twins
      exact ⟨word free fun _ => stops.1, word free fun _ => stops.2⟩
    | part id free =>
      have stops := stopsOperand_of_isEnd (show (Slot.part id).IsEnd from trivial) twins
      exact ⟨word free fun _ => stops.1, word free fun _ => stops.2⟩
    | word same sameOther is =>
      have mem := Slot.keyword_mem_placeWords is
      exact ⟨placeWord (Eq.subst (motive := (· ∈ placeWords)) same.symm mem),
        placeWord (Eq.subst (motive := (· ∈ placeWords)) sameOther.symm mem)⟩
    | _ => exact ⟨noWord nofun, noWord nofun⟩

/-! ## A query -/

/-- A word that does not come next is passed over. -/
theorem AlikeAt.skipWord {S : β → β → Prop} {f f' : Bool → Parser β} {word : String}
    (absent : ∀ ⦃tokens others⦄, Twins x tokens others → headKeyword tokens ≠ word)
    (no : AlikeAt x S (f false) (f' false)) :
    AlikeAt x S (keyword? word >>= f) (keyword? word >>= f') := by
  intro tokens others twins
  have first : keyword? word tokens = .ok (false, tokens) := keywords?_of_ne (absent twins)
  have second : keyword? word others = .ok (false, others) :=
    keywords?_of_ne (headKeyword_eq twins ▸ absent twins)
  rw [bind_ok first, bind_ok second]
  exact no twins

/-- Something optional that does not come next. -/
theorem AlikeAt.skipIf {c : Prop} [Decidable c] {S : β → β → Prop} {p p' : Parser β} {a : α}
    {f f' : α → Parser β} (no : ¬ c) (h : AlikeAt x S (f a) (f' a)) :
    AlikeAt x S (if c then p else do f (← Pure.pure a))
      (if c then p' else do f' (← Pure.pure a)) := by
  rw [if_neg no, if_neg no]
  exact h

/-- What follows a parser that fails does not matter. -/
theorem AlikeAt.bindNever {S : β → β → Prop} {p : Parser α} {f f' : α → Parser β}
    (h : AlikeAt x (fun _ _ => False) p p) : AlikeAt x S (p >>= f) (p >>= f') :=
  h.bind fun _ _ never => never.elim

theorem headKeyword_leftParen {tokens others : List Lexeme}
    (twins : Twins .leftParen tokens others) : headKeyword tokens ∉ ["SELECT", "WITH"] := by
  have noWord : "" ∉ ["SELECT", "WITH"] := by decide
  cases twins with
  | nil ends => exact ends.elim
  | parameter => exact noWord
  | cons precedes opens twin _ =>
    cases twin with
    | name id => exact opens
    | part id => exact precedes.elim
    | quotedPart => exact noWord
    | value => exact noWord
    | sign => exact noWord
    | @word _ id _ same _ is =>
      have apart : ∀ word ∈ placeWords, word ∉ ["SELECT", "WITH"] := by decide
      exact apart id.keyword (same ▸ Slot.keyword_mem_placeWords is)

/-- Behind an opening parenthesis no query can be read. -/
def HidesQueries (g : Grammar) : Prop := AlikeAt .leftParen (fun _ _ => False) g.query g.query

theorem HidesQueries.bodyPart (hides : HidesQueries g) :
    AlikeAt .leftParen (fun _ _ => False) (bodyPart g) (bodyPart g) := by
  have noRows : ∀ y : Slot, y.IsName → AlikeAt y (fun _ _ => False) (values g) (values g) :=
    fun y name => .of_stops name.isEnd fun tokens stops =>
      Fails.bind (Fails.bind (Stays.bindFails (stops.stays_keywords? [] (by decide)) fun _ =>
        stops.sign_fails.bind))
  refine .skipWord (fun _ _ twins same => headKeyword_leftParen twins (by simp [same])) ?_
  refine .ifSign (by decide) (fun y has => ?_) (.ifWord (by decide) noRows (.expected _))
  obtain rfl := Slot.eq_leftParen has
  exact hides.bindNever

theorem HidesQueries.queryBody (hides : HidesQueries g) :
    AlikeAt .leftParen (fun _ _ => False) (queryBody g) (queryBody g) :=
  AlikeAt.bindNever (AlikeAt.bindNever hides.bodyPart)

theorem HidesQueries.query (hides : HidesQueries g) :
    AlikeAt .leftParen (fun _ _ => False) (query g) (query g) := by
  refine .skipWord (fun _ _ twins same => headKeyword_leftParen twins (by simp [same])) ?_
  exact .skipIf (by decide) (.skipIf (by decide) hides.queryBody.bindNever)

end SqlFootprint.Sql.Parser
