import SqlFootprint.Proofs.Sql.ExprAgreement
import SqlFootprint.Proofs.Sql.Rows
import SqlFootprint.Sql.Parser.Statement

/-! # Names and values that are read back

Not every name and every value is read back from its written form. Of those that are
(`Slot.IsReadBack`), the tokens that were read tell all that is needed to read them again
(`Slot.isReadable_of_spells`); a parameter is read back if its text alone is read as it. -/

namespace SqlFootprint.Sql

/-! ## Names and values that are read back -/

/-- A name whose written form is read back: where it is quoted, every mark inside is written twice,
and no backslash stands between single quotes. -/
def Ident.IsReadBack : Ident → Prop
  | ⟨word, some .backtick⟩ => IsDoubled '\x60' word
  | ⟨word, some .single⟩ => IsDoubled '\x27' word ∧ '\\' ∉ word.toList
  | _ => True

/-- A value whose compact text is read back: no text holds a backslash, no digits of a hexadecimal
or bit literal hold a quote mark, and the text of a parameter alone is that parameter. -/
def Literal.IsReadBack : Literal → Prop
  | .text .single word | .text .double word | .text .national word => '\\' ∉ word.toList
  | .text .hex digits => '\x27' ∉ digits.toList ∧ '\\' ∉ digits.toList
  | .text .bits digits => '\x27' ∉ digits.toList
  | .text .doubleBits digits => '\x22' ∉ digits.toList
  | .placeholder parameter =>
      parseExpr false parameter = .ok (.literal (.placeholder parameter))
  | .number _ _ | .boolean _ | .null => True

/-- A place whose name or value is read back. -/
def Slot.IsReadBack : Slot → Prop
  | .name id | .part id => id.IsReadBack
  | .value literal => literal.IsReadBack
  | _ => True

/-! ## Whole texts -/

namespace Parser

variable {g : Grammar} {tokens rest : List Lexeme} {e : Expr}

theorem finish_eq_ok (h : finish tokens = .ok ((), rest)) : tokens = [] ∧ rest = [] := by
  cases tokens with
  | nil => cases h; exact ⟨rfl, rfl⟩
  | cons => nomatch h

/-- What is no star is given by the parser of expressions. -/
theorem full_of_exprOrStar (h : exprOrStar g tokens = .ok (e, rest)) (own : e.IsOwn) :
    g.full tokens = .ok (e, rest) := by
  unfold exprOrStar at h
  split at h
  · cases h
    nomatch own
  · rename_i first more _
    split at h
    · rename_i name _
      cases found : starRun [name] more with
      | error e =>
        rw [found] at h
        nomatch h
      | ok outcome =>
        rw [found] at h
        cases outcome with
        | none => exact h
        | some star =>
          cases h
          nomatch own
    · exact h
  · exact h

/-- An expression or, if let in, a star. -/
def exprIn (wildcards : Bool) (g : Grammar) : Parser Expr :=
  if wildcards then exprOrStar g else g.full

theorem full_of_exprIn {wildcards : Bool} (h : exprIn wildcards g tokens = .ok (e, rest))
    (own : e.IsOwn) : g.full tokens = .ok (e, rest) := by
  cases wildcards with
  | false => exact h
  | true => exact full_of_exprOrStar h own

theorem alike_exprIn {wildcards : Bool} (alike : IsAlike g) :
    Alike SameShape (exprIn wildcards g) (exprIn wildcards g) := by
  cases wildcards with
  | false => exact alike.expr 0
  | true => exact alike_exprOrStar alike

end Parser

/-- A text is an expression if its tokens are one to their end. -/
theorem parseExpr_eq_ok_iff {wildcards : Bool} {text : String} {e : Expr} :
    parseExpr wildcards text = .ok e ↔ ∃ tokens, lex text = .ok tokens ∧
      Parser.exprIn wildcards (Parser.grammar Parser.maxDepth) tokens = .ok (e, []) := by
  let whole : Parser Expr := do
    let e ← Parser.exprIn wildcards (Parser.grammar Parser.maxDepth)
    Parser.finish
    return e
  have run {tokens rest : List Lexeme} : whole tokens = .ok (e, rest) ↔
      Parser.exprIn wildcards (Parser.grammar Parser.maxDepth) tokens = .ok (e, []) ∧
        rest = [] := by
    constructor
    · intro h
      obtain ⟨found, middle, first, h⟩ := Parser.bind_eq_ok.mp h
      obtain ⟨⟨⟩, last, done, h⟩ := Parser.bind_eq_ok.mp h
      obtain ⟨rfl, rfl⟩ := Parser.pure_eq_ok.mp h
      obtain ⟨rfl, rfl⟩ := Parser.finish_eq_ok done
      exact ⟨first, rfl⟩
    · rintro ⟨h, rfl⟩
      exact Parser.bind_eq_ok.mpr ⟨e, [], h, rfl⟩
  have unfolded : parseExpr wildcards text =
      (lex text).bind fun tokens => (whole tokens).bind fun found => .ok found.1 := by
    cases wildcards <;> rfl
  rw [unfolded]
  constructor
  · intro h
    cases read : lex text with
    | error => rw [read] at h; nomatch h
    | ok tokens =>
      rw [read] at h
      cases found : whole tokens with
      | error => rw [Except.bind, found] at h; nomatch h
      | ok outcome =>
        rw [Except.bind, found] at h
        cases h
        exact ⟨tokens, rfl, (run.mp found).1⟩
  · rintro ⟨tokens, read, h⟩
    rw [read, Except.bind, run.mpr ⟨h, rfl⟩]
    rfl

namespace Slot

variable {x y : Slot} {slots : List Slot}

/-- No word behind an operand starts with the letter of an exponent. -/
theorem not_isPowerStart {word : String} (behind : y.IsBehind ∨ y = .period)
    (fits : y.Fits (.word ⟨word, none⟩)) : ¬ IsPowerStart word.toList := by
  rintro ⟨c, head, letter⟩
  obtain ⟨more, same⟩ := List.head?_eq_some_iff.mp head
  have keyword : (Ident.keyword ⟨word, none⟩).toList.head? = some 'E' := by
    rw [Ident.keyword, same]
    obtain rfl | rfl := letter <;> simp [capitals]
  have words : ∀ word ∈ behindWords, word.toList.head? ≠ some 'E' := by decide
  cases fits with
  | name | part => obtain behind | ⟨⟨⟩⟩ := behind; exact behind
  | word sameWord is =>
    obtain behind | rfl := behind
    · rw [sameWord] at keyword is
      exact words _ (keyword_mem_behindWords behind is) keyword
    · exact is sameWord

end Slot

/-! ## Parameters -/

/-- A colon alone is one character. -/
theorem of_scan_colon {before : Before} {p : Position} {cs read rest : List Char}
    {token : Option Token} (step : scan before p ':' cs = .ok ⟨token, read, rest⟩) :
    token ≠ none ∧ (token = some (.sign .colon) → rest = cs) := by
  have table : ∀ entry ∈ signTable, entry.2 = .colon → entry.1 = [':'] := by decide
  rw [scan_plain (c := ':') (by decide) (by decide) (fun mem => absurd mem (by decide)) nofun nofun
    nofun, if_neg (by decide)] at step
  split at step
  · rename_i found
    obtain rfl := Except.ok.inj step
    obtain ⟨⟨spelling, s⟩, entry, same⟩ := Option.map_eq_some_iff.mp found
    cases same
    refine ⟨nofun, fun colon => ?_⟩
    obtain rfl : s = .colon := Token.sign.inj (Option.some.inj colon)
    obtain rfl := table _ (List.mem_of_find?_eq_some entry) rfl
    rfl
  · rw [if_neg (by decide +kernel)] at step
    cases step
    exact ⟨nofun, nofun⟩

/-- Few characters stand behind an at sign alone. -/
theorem of_scan_atSign {before : Before} {p : Position} {cs read rest : List Char}
    {token : Option Token} (step : scan before p '@' cs = .ok ⟨token, read, rest⟩) :
    token ≠ none ∧ (token = some (.sign .atSign) →
      rest = cs ∧ ∀ c ∈ cs.head?, ¬ (isNamePart c = true ∨ c = '.')) := by
  have same : scanAt cs = ⟨token, read, rest⟩ := Except.ok.inj step
  unfold scanAt at same
  split at same
  · cases same; exact ⟨nofun, nofun⟩
  · cases same; exact ⟨nofun, nofun⟩
  · cases same; exact ⟨nofun, nofun⟩
  · split at same <;> cases same <;> exact ⟨nofun, nofun⟩
  · cases same
    exact ⟨nofun, fun _ => ⟨rfl, nofun⟩⟩
  · split at same
    · rename_i c rest _ _ _ _ mark
      cases same
      refine ⟨nofun, fun _ => ⟨rfl, ?_⟩⟩
      rintro _ ⟨⟩
      simp only [Bool.or_eq_true, decide_eq_true_eq] at mark
      obtain ((rfl | rfl) | rfl) | rfl := mark <;> decide +kernel
    · cases same
      exact ⟨nofun, nofun⟩

/-- The name of a parameter stands behind its sign, and behind an at sign it starts with a quote. -/
theorem lexesTo_name {mark : Sign} (marks : mark = .colon ∨ mark = .atSign) {name : List Char}
    {start : Position} {token : Lexeme} (reads : LexesTo .other .start (mark.written.toList ++ name)
      [⟨.sign mark, start⟩, token]) :
    (∃ before p, LexesTo before p name [token]) ∧
      (mark = .atSign → ∀ c ∈ name.head?, ¬ (isNamePart c = true ∨ c = '.')) := by
  obtain rfl | rfl := marks
  · cases reads with
    | gap step => exact absurd rfl (of_scan_colon step).1
    | token step more =>
      obtain rfl := (of_scan_colon step).2 rfl
      exact ⟨⟨_, _, more⟩, nofun⟩
  · cases reads with
    | gap step => exact absurd rfl (of_scan_atSign step).1
    | token step more =>
      obtain ⟨rfl, quotes⟩ := (of_scan_atSign step).2 rfl
      exact ⟨⟨_, _, more⟩, fun _ => quotes⟩

/-- The name of a parameter without quotes is read again. -/
theorem Token.Settled.readsAs_name {token : Token} {before : Before} {rest : List Char}
    {name : String} (settled : token.Settled before rest) (other : before ≠ .period)
    (names : token.parameterName? = some name)
    (unquoted : ∀ word mark, token ≠ .word ⟨word, some mark⟩) :
    ∃ goesOn, (goesOn = goesOnWord ∨ goesOn = goesOnNumber) ∧ StartsPlain name.toList ∧
      ReadsAs .other name.toList token goesOn := by
  cases token with
  | word id =>
    obtain ⟨word, _ | mark⟩ := id
    · obtain rfl : word = name := Option.some.inj names
      obtain ⟨same, -⟩ | ⟨starts, again⟩ := settled
      · exact absurd same other
      · exact ⟨_, .inl rfl, starts, again .other (.inr ⟨rfl, other⟩)⟩
    · exact absurd rfl (unquoted word mark)
  | literal literal =>
    cases literal with
    | number digits long =>
      cases long with
      | true => cases names
      | false =>
        obtain rfl : digits = name := Option.some.inj names
        obtain ⟨⟨c, head, start⟩, again⟩ := settled
        refine ⟨_, .inr rfl, ⟨c, head, start.imp_left fun digit => ?_⟩, again⟩
        simp [isNamePart, digit]
    | _ => cases names
  | _ => cases names

/-- A parameter that is read back from its text has a name without quotes. -/
theorem isParameter_of_parse {parameter : String}
    (parsed : parseExpr false parameter = .ok (.literal (.placeholder parameter))) :
    IsParameter parameter := by
  obtain ⟨tokens, lexed, h⟩ := parseExpr_eq_ok_iff.mp parsed
  have reads := lex_eq_ok_iff.mp lexed
  have read : WereRead none tokens := reads.wereRead nofun
  obtain ⟨used, same, spells⟩ := (Parser.isFaithful_grammar _).recognizes 0 h (.literal _)
  rw [List.append_nil] at same
  subst same
  generalize row : Expr.slots _ = slots at spells
  change [Slot.value (.placeholder parameter)] = slots at row
  cases spells with
  | nil => nomatch row
  | cons fits none =>
    cases row
    cases none
    cases read with
    | cons before rest settled =>
      cases fits with
      | value => exact .inl settled
      | word same is => exact absurd same is
      | sign has => exact has.elim
  | @parameter mark token start name _ _ marks names none =>
    cases row
    cases none
    rw [String.toList_append] at reads
    obtain ⟨⟨before, p, last⟩, quotes⟩ := lexesTo_name marks reads
    -- the name is settled, and it starts as a name without quotes
    obtain ⟨goesOn, kind, starts, again⟩ : ∃ goesOn, (goesOn = goesOnWord ∨ goesOn = goesOnNumber) ∧
        StartsPlain name.toList ∧ ReadsAs .other name.toList token goesOn := by
      cases read with
      | cons _ _ _ _ _ more =>
      cases more with
      | cons behind rest settled period =>
      have other : behind ≠ .period := fun same => by
        obtain rfl | rfl := marks <;> nomatch period same
      refine settled.readsAs_name other names fun word mark same => ?_
      subst same
      obtain rfl : word = name := Option.some.inj names
      exact absurd last.length_lt (by rw [String.length_toList]; exact Nat.lt_irrefl _)
    obtain rfl | rfl := marks
    · exact .inr ⟨name, token, goesOn, rfl, names, starts, kind, again⟩
    · obtain ⟨c, head, part⟩ := starts
      exact absurd part (quotes rfl c head)

/-! ## Rows that were read -/

namespace Slot

variable {x y : Slot} {slots : List Slot} {previous : Option Token} {before : Before}
  {rest : List Char} {tokens : List Lexeme}

/-- A name that was read is read again. -/
theorem isReadable_name {id : Ident} {t : Token} (fits : (name id).Fits t)
    (settled : t.Settled before rest) (plain : before ≠ .period) (clear : id.IsReadBack) :
    (name id).IsReadable := by
  cases fits with
  | name id free =>
    obtain ⟨word, _ | mark⟩ := id
    · obtain ⟨same, -⟩ | ⟨starts, again⟩ := settled
      · exact absurd same plain
      · exact ⟨free, starts, again .other (.inr ⟨rfl, plain⟩)⟩
    · obtain rfl : mark = .backtick := settled
      exact ⟨rfl, clear⟩
  | word same is => exact absurd same is
  | sign has => exact has.elim

/-- So is a part of a name. -/
theorem isReadable_part {id : Ident} {t : Token} (fits : (part id).Fits t)
    (settled : t.Settled before rest) (noPower : ¬ IsPowerStart rest) (clear : id.IsReadBack) :
    (part id).IsReadable := by
  cases fits with
  | part id free =>
    obtain ⟨word, _ | mark⟩ := id
    · obtain ⟨-, power⟩ | ⟨-, again⟩ := settled
      · exact absurd power noPower
      · exact ⟨free, again .period (.inl rfl)⟩
    · obtain rfl : mark = .backtick := settled
      exact clear
  | quotedPart word => exact clear
  | word same is => exact absurd same is
  | sign has => exact has.elim

/-- So is a value. -/
theorem isReadable_value {literal : Literal} {t : Token} (fits : (value literal).Fits t)
    (settled : t.Settled before rest) (clear : literal.IsReadBack) :
    (value literal).IsReadable := by
  cases literal with
  | number =>
    cases fits with
    | value => exact settled
    | word same is => exact absurd same is
    | sign has => exact has.elim
  | text kind => cases kind <;> exact clear
  | boolean | null => trivial
  | placeholder => exact isParameter_of_parse clear

/-- Behind a part of a name, no word starts with the letter of an exponent. -/
theorem no_power {id : Ident} (chain : (part id :: slots).IsChain Precedes)
    (spells : Spells slots tokens) {word : String} (start : IsPowerStart word.toList) :
    ¬ ∃ lexeme ∈ tokens.head?, lexeme.token = .word ⟨word, none⟩ := by
  rintro ⟨lexeme, head, same⟩
  cases spells with
  | nil => nomatch head
  | cons fits =>
    cases head
    subst same
    exact not_isPowerStart (List.isChain_cons_cons.mp chain).1 fits start
  | parameter =>
    cases head
    nomatch same

/-- The places of a row that was read are read again if their names and values are. -/
theorem isReadable_of_spells (spells : Spells slots tokens) (read : WereRead previous tokens)
    (chain : (x :: slots).IsChain Precedes) (period : previous = some (.sign .period) → x = .period)
    (clear : ∀ z ∈ slots, z.IsReadBack) : ∀ z ∈ slots, z.IsReadable := by
  induction spells generalizing x previous with
  | nil => exact nofun
  | @cons y t start slots rest fits spells ih =>
    obtain ⟨precedes, chain⟩ := List.isChain_cons_cons.mp chain
    obtain ⟨self, clear⟩ := List.forall_mem_cons.mp clear
    cases read with
    | cons before behind settled previousPeriod power more =>
      have tail := ih more chain (fun same => by
        obtain rfl := Option.some.inj same
        cases fits with
        | sign has => exact Slot.eq_period has) clear
      refine List.forall_mem_cons.mpr ⟨?_, tail⟩
      cases y with
      | name id =>
        refine isReadable_name fits settled (fun same => ?_) self
        obtain rfl := period (previousPeriod same)
        obtain ⟨_, ⟨⟩⟩ := precedes
      | part id =>
        refine isReadable_part fits settled (fun start => ?_) self
        obtain ⟨word, startWord, next⟩ := power start
        exact no_power chain spells startWord next
      | value literal => exact isReadable_value fits settled self
      | _ => trivial
  | @parameter mark t start name slots rest marks names spells ih =>
    obtain ⟨self, clear⟩ := List.forall_mem_cons.mp clear
    cases read with
    | cons _ _ _ _ _ more =>
    cases more with
    | cons _ _ _ _ _ more =>
      refine List.forall_mem_cons.mpr
        ⟨isParameter_of_parse self, ih more chain.tail (fun same => ?_) clear⟩
      obtain rfl := Option.some.inj same
      nomatch names

end Slot

end SqlFootprint.Sql
