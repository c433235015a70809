import SqlFootprint.Proofs.Sql.Readable

/-! # Reading a condition that was restored

The compact text of a condition is read as the same condition again, up to the kinds of quotes. The
tokens of the text that was read and those of the compact text spell the same row of places, so that
they are twins and give expressions of the same shape (`Parser.alike_expr`); and what is given
spells the tokens that were read (`Parser.isFaithful_grammar`), so that the shape leaves no choice.
-/

namespace SqlFootprint.Sql

/-! ## Tokens for the same row -/

/-- A token as it comes from a text. -/
def Token.IsRead (token : Token) : Prop := ∃ before rest, token.Settled before rest

theorem WereRead.isRead {previous : Option Token} {tokens : List Lexeme}
    (read : WereRead previous tokens) : ∀ lexeme ∈ tokens, lexeme.token.IsRead := by
  induction read with
  | nil => exact nofun
  | cons before rest settled _ _ _ ih =>
    exact List.forall_mem_cons.mpr ⟨⟨before, rest, settled⟩, ih⟩

/-- A name in single quotes is no word. -/
theorem Token.IsRead.mark_eq {word : String} {mark : QuoteMark}
    (read : (Token.word ⟨word, some mark⟩).IsRead) : mark = .backtick := by
  obtain ⟨_, _, settled⟩ := read
  exact settled

namespace Slot

variable {x y : Slot} {slots : List Slot} {t u : Token}

theorem keyword_singleQuoted (y : Slot) : y.singleQuoted.keyword = y.keyword := by
  cases y with
  | value literal =>
    cases literal with
    | text kind => cases kind <;> rfl
    | _ => rfl
  | _ => rfl

/-- A place with a word of its own has no sign. -/
theorem not_hasSign_of_keyword {s : Sign} (is : y.keyword ≠ "") : ¬ y.HasSign s := by
  cases y with
  | binary op =>
    intro has
    obtain rfl | ⟨rfl, rfl⟩ := signOp?_eq_some has
    · cases op <;> first | exact is rfl | nomatch has
    · exact is rfl
  | unary op => cases op <;> first | exact absurd rfl is | exact id
  | period | leftParen | rightParen | comma => exact absurd rfl is
  | _ => exact id

/-- A value that is a word is read as one. -/
theorem keyword_of_isRead {literal : Literal} (read : (Token.literal literal).IsRead) :
    (value literal).keyword = "" := by
  obtain ⟨_, _, settled⟩ := read
  cases literal with
  | boolean | null => exact settled.elim
  | _ => rfl

theorem singleQuoted_of_hasSign {s : Sign} (has : y.HasSign s) : y.singleQuoted = y := by
  cases y with
  | value => exact has.elim
  | _ => rfl

/-- Two tokens that were read and spell the same place, up to the quotes of a text, are twins. -/
theorem twin_of_fits (fits : y.Fits t) (fitsOther : y.singleQuoted.Fits u) (read : t.IsRead)
    (readOther : u.IsRead) : y.Twin t u := by
  cases fits with
  | name id free =>
    cases fitsOther with
    | name => exact .name id free
    | word same is => exact absurd same is
    | sign has => exact has.elim
  | part id free =>
    cases fitsOther with
    | part => exact .part id free
    | quotedPart => nomatch read.mark_eq
    | word same is => exact absurd same is
    | sign has => exact has.elim
  | quotedPart word =>
    cases fitsOther with
    | part => nomatch readOther.mark_eq
    | quotedPart => exact .quotedPart word
    | word same is => exact absurd same is
    | sign has => exact has.elim
  | value literal =>
    cases fitsOther with
    | value => exact .value literal
    | word same is =>
      rw [same] at is
      exact absurd ((keyword_singleQuoted _).trans (keyword_of_isRead read)) is
    | sign has => exact has.elim
  | word same is =>
    have is := same ▸ is
    have quoted := keyword_singleQuoted y
    generalize y.singleQuoted = z at quoted fitsOther
    cases fitsOther with
    | word sameOther => exact .word same (sameOther.trans quoted) is
    | sign has => exact absurd has (not_hasSign_of_keyword (quoted ▸ is))
    | value => exact absurd (quoted.symm.trans (keyword_of_isRead readOther)) is
    | name | part | quotedPart => exact absurd quoted.symm is
  | sign has =>
    rw [singleQuoted_of_hasSign has] at fitsOther
    cases fitsOther with
    | sign hasOther => exact .sign has hasOther
    | word same is => exact absurd has (not_hasSign_of_keyword (same ▸ is))
    | _ => exact has.elim

theorem eq_of_singleQuoted {parameter : String}
    (h : y.singleQuoted = value (.placeholder parameter)) : y = value (.placeholder parameter) := by
  cases y with
  | value literal =>
    cases literal with
    | text kind => cases kind <;> nomatch h
    | _ => exact h
  | _ => nomatch h

/-- A parameter with a name of its own is no single token. -/
theorem not_fits_parameter {mark : Sign} {name : String} (marks : mark = .colon ∨ mark = .atSign)
    (fits : (value (.placeholder (mark.written ++ name))).Fits t) (read : t.IsRead) : False := by
  cases fits with
  | value =>
    obtain ⟨_, _, head, -⟩ := read
    rw [String.toList_append] at head
    obtain rfl | rfl := marks <;> nomatch head
  | word same is => exact is same
  | sign has => exact has

theorem parameter_inj {mark other : Sign} {name nameOther : String}
    (marks : mark = .colon ∨ mark = .atSign) (marksOther : other = .colon ∨ other = .atSign)
    (same : mark.written ++ name = other.written ++ nameOther) :
    mark = other ∧ name = nameOther := by
  have same := congrArg String.toList same
  rw [String.toList_append, String.toList_append] at same
  obtain rfl | rfl := marks <;> obtain rfl | rfl := marksOther <;>
    obtain ⟨first, more⟩ := List.cons.inj same
  · exact ⟨rfl, String.toList_inj.mp more⟩
  · exact absurd first (by decide)
  · exact absurd first (by decide)
  · exact ⟨rfl, String.toList_inj.mp more⟩

/-- Token lists that were read and spell the same row, up to the quotes of texts, are twins. -/
theorem twins_of_spells {tokens others : List Lexeme} (spells : Spells slots tokens)
    (spellsOther : Spells (slots.map singleQuoted) others)
    (read : ∀ lexeme ∈ tokens, lexeme.token.IsRead)
    (readOther : ∀ lexeme ∈ others, lexeme.token.IsRead)
    (chain : (x :: slots).IsChain Precedes) (apart : (x :: slots).IsChain Apart)
    (ends : ∃ y ∈ (x :: slots).getLast?, y.IsEnd) : Twins x tokens others := by
  induction spells generalizing x others with
  | nil =>
    cases spellsOther
    obtain ⟨y, ⟨⟩, ends⟩ := ends
    exact .nil ends
  | @cons y t start slots rest fits spells ih =>
    obtain ⟨self, read⟩ := List.forall_mem_cons.mp read
    obtain ⟨precedes, chain⟩ := List.isChain_cons_cons.mp chain
    obtain ⟨opens, apart⟩ := List.isChain_cons_cons.mp apart
    rw [List.getLast?_cons_cons] at ends
    rw [List.map_cons] at spellsOther
    generalize same : y.singleQuoted = z at spellsOther
    cases spellsOther with
    | cons fitsOther spellsOther =>
      obtain ⟨selfOther, readOther⟩ := List.forall_mem_cons.mp readOther
      exact .cons precedes opens.opens (twin_of_fits fits (same ▸ fitsOther) self selfOther)
        (ih spellsOther read readOther chain apart ends)
    | parameter marks =>
      obtain rfl := eq_of_singleQuoted same
      exact (not_fits_parameter marks fits self).elim
  | @parameter mark t start name slots rest marks names spells ih =>
    obtain ⟨precedes, chain⟩ := List.isChain_cons_cons.mp chain
    obtain ⟨-, apart⟩ := List.isChain_cons_cons.mp apart
    rw [List.getLast?_cons_cons] at ends
    rw [List.map_cons] at spellsOther
    generalize same : (mark.written ++ name) = parameter at precedes chain apart ends spellsOther
    generalize quoted : (value (.placeholder parameter)).singleQuoted = z at spellsOther
    cases spellsOther with
    | cons fitsOther =>
      obtain rfl : value (.placeholder parameter) = z := quoted
      subst same
      exact (not_fits_parameter marks fitsOther (readOther _ List.mem_cons_self)).elim
    | @parameter markOther _ _ nameOther _ _ marksOther namesOther spellsOther =>
      obtain ⟨rfl, rfl⟩ := parameter_inj marks marksOther
        (same.trans (Literal.placeholder.inj (Slot.value.inj quoted)))
      have rest := fun lexeme mem =>
        read lexeme (List.mem_cons_of_mem _ (List.mem_cons_of_mem _ mem))
      have restOther := fun lexeme mem =>
        readOther lexeme (List.mem_cons_of_mem _ (List.mem_cons_of_mem _ mem))
      exact .parameter precedes marks names namesOther
        (ih spellsOther rest restOther chain apart ends)

end Slot

/-! ## Expressions with their texts between single quotes -/

mutual

/-- The expression with its texts between single quotes, as far as it has a compact text of its
own. -/
def Expr.singleQuoted : Expr → Expr
  | .literal value => .literal value.singleQuoted
  | .binary left op right => .binary left.singleQuoted op right.singleQuoted
  | .unary op arg => .unary op arg.singleQuoted
  | .nested inner => .nested inner.singleQuoted
  | .isTest arg negated truth => .isTest arg.singleQuoted negated truth
  | .inList arg negated items => .inList arg.singleQuoted negated (singleQuotedItems items)
  | .between arg negated low high =>
    .between arg.singleQuoted negated low.singleQuoted high.singleQuoted
  | .like arg negated op any pattern escape =>
    .like arg.singleQuoted negated op any pattern.singleQuoted escape
  | other => other
termination_by structural e => e

/-- Expressions with their texts between single quotes. -/
def singleQuotedItems : List Expr → List Expr
  | [] => []
  | e :: es => e.singleQuoted :: singleQuotedItems es
termination_by structural es => es

end

theorem singleQuotedItems_eq_map (es : List Expr) :
    singleQuotedItems es = es.map Expr.singleQuoted := by
  induction es with
  | nil => rfl
  | cons e es ih => rw [singleQuotedItems, ih, List.map_cons]

/-- What changes in an expression: only the values of its places. -/
structure Expr.IsRequoted (e : Expr) : Prop where
  /-- It is of the same kind. -/
  own : e.singleQuoted.IsOwn
  /-- Its shape is the same. -/
  shape : e.singleQuoted.shape = e.shape
  /-- Its places are the same, up to the quotes. -/
  slots : e.singleQuoted.slots = e.slots.map Slot.singleQuoted

theorem listSlots_singleQuoted {items : List Expr} (each : ∀ item ∈ items, item.IsRequoted) :
    listSlots (items.map Expr.singleQuoted) = (listSlots items).map Slot.singleQuoted ∧
      shapes (items.map Expr.singleQuoted) = shapes items := by
  induction items with
  | nil => exact ⟨rfl, rfl⟩
  | cons item items ih =>
    obtain ⟨self, each⟩ := List.forall_mem_cons.mp each
    obtain ⟨slots, shapes⟩ := ih each
    refine ⟨?_, ?_⟩
    · cases items with
      | nil => simpa using self.slots
      | cons second more =>
        rw [List.map_cons] at slots
        rw [List.map_cons, List.map_cons, listSlots_cons_cons, slots, self.slots,
          listSlots_cons_cons, List.map_append, List.map_cons]
        rfl
    · rw [List.map_cons, SqlFootprint.Sql.shapes, SqlFootprint.Sql.shapes, self.shape, shapes]

theorem Expr.IsOwn.isRequoted {e : Expr} (own : e.IsOwn) : e.IsRequoted := by
  have names (ids : List Ident) : (nameSlots ids).map Slot.singleQuoted = nameSlots ids := by
    cases ids with
    | nil => rfl
    | cons first others => simp [nameSlots, Slot.singleQuoted, List.map_flatMap]
  induction own with
  | name id => exact ⟨.name id, rfl, (names [id]).symm⟩
  | dotted first others => exact ⟨.dotted first others, rfl, (names (first :: others)).symm⟩
  | literal value => exact ⟨.literal _, rfl, rfl⟩
  | binary op _ _ ihLeft ihRight =>
    refine ⟨.binary op ihLeft.own ihRight.own, ?_, ?_⟩
    · simp [singleQuoted, Expr.shape, ihLeft.shape, ihRight.shape]
    · simp [singleQuoted, Expr.slots, ihLeft.slots, ihRight.slots, Slot.singleQuoted]
  | unary op _ ih =>
    refine ⟨.unary op ih.own, ?_, ?_⟩
    · simp [singleQuoted, Expr.shape, ih.shape]
    · simp [singleQuoted, Expr.slots, ih.slots, Slot.singleQuoted]
  | nested _ ih =>
    refine ⟨.nested ih.own, ?_, ?_⟩
    · simp [singleQuoted, Expr.shape, ih.shape]
    · simp [singleQuoted, Expr.slots, ih.slots, Slot.singleQuoted]
  | isNull negated _ ih =>
    refine ⟨.isNull negated ih.own, ?_, ?_⟩
    · simp [singleQuoted, Expr.shape, ih.shape]
    · cases negated <;> simp [singleQuoted, Expr.slots, ih.slots, Slot.singleQuoted]
  | isTrue _ ih =>
    refine ⟨.isTrue ih.own, ?_, ?_⟩
    · simp [singleQuoted, Expr.shape, ih.shape]
    · simp [singleQuoted, Expr.slots, ih.slots, Slot.singleQuoted]
  | isFalse _ ih =>
    refine ⟨.isFalse ih.own, ?_, ?_⟩
    · simp [singleQuoted, Expr.shape, ih.shape]
    · simp [singleQuoted, Expr.slots, ih.slots, Slot.singleQuoted]
  | @inList arg first others negated _ _ ih ihItems =>
    obtain ⟨itemSlots, itemShapes⟩ := listSlots_singleQuoted ihItems
    rw [← singleQuotedItems_eq_map] at itemSlots itemShapes
    refine ⟨.inList negated ih.own fun item mem => ?_, ?_, ?_⟩
    · rw [singleQuotedItems_eq_map, ← List.map_cons] at mem
      obtain ⟨original, isItem, rfl⟩ := List.mem_map.mp mem
      exact (ihItems original isItem).own
    · simp [singleQuoted, Expr.shape, ih.shape, itemShapes]
    · cases negated <;> simp [singleQuoted, Expr.slots, ih.slots, itemSlots, Slot.singleQuoted,
        notSlots]
  | between negated _ _ _ ih ihLow ihHigh =>
    refine ⟨.between negated ih.own ihLow.own ihHigh.own, ?_, ?_⟩
    · simp [singleQuoted, Expr.shape, ih.shape, ihLow.shape, ihHigh.shape]
    · cases negated <;> simp [singleQuoted, Expr.slots, ih.slots, ihLow.slots, ihHigh.slots,
        Slot.singleQuoted, notSlots]
  | like negated _ _ ih ihPattern =>
    refine ⟨.like negated ih.own ihPattern.own, ?_, ?_⟩
    · simp [singleQuoted, Expr.shape, ih.shape, ihPattern.shape]
    · cases negated <;> simp [singleQuoted, Expr.slots, ih.slots, ihPattern.slots,
        Slot.singleQuoted, notSlots]

/-! ## The round trip -/

/-- A condition that is read back from its compact text: it has a text of its own, each of its names
and values is read back, and no place grows into the next. -/
structure Expr.IsRestorable (e : Expr) : Prop where
  /-- It is built only from what has a compact text of its own. -/
  own : e.IsOwn
  /-- Its names and values are read back. -/
  readBack : ∀ slot ∈ e.slots, slot.IsReadBack
  /-- No name behind a sign or a parenthesis changes what is read. -/
  apart : e.slots.IsChain Slot.Apart
  /-- No period is read as the start of a fraction. -/
  periods : KeepsPeriods e.slots

/-- A comma in front changes nothing. -/
theorem KeepsPeriods.comma {slots : List Slot} (keeps : KeepsPeriods slots) :
    KeepsPeriods (.comma :: slots) := by
  intro value other inside
  obtain front | inside := List.infix_cons_iff.mp inside
  · nomatch (List.cons_prefix_cons.mp front).1
  · exact keeps value other inside

/-- The compact text of a condition is read as the condition, with its texts between single
quotes. -/
theorem parseExpr_compact {wildcards : Bool} {text : String} {e : Expr}
    (parsed : parseExpr wildcards text = .ok e) (restorable : e.IsRestorable) :
    ∃ restored, e.compact = .ok restored ∧
      parseExpr wildcards restored = .ok e.singleQuoted := by
  have own := restorable.own
  have requoted := own.isRequoted
  refine ⟨String.ofList (rowText e.slots), own.compact_eq, ?_⟩
  -- the tokens of the text spell the places of the condition
  obtain ⟨tokens, lexed, given⟩ := parseExpr_eq_ok_iff.mp parsed
  have read : WereRead none tokens := (lex_eq_ok_iff.mp lexed).wereRead nofun
  obtain ⟨used, same, spells⟩ := (Parser.isFaithful_grammar _).recognizes 0
    (Parser.full_of_exprIn given own) own
  obtain rfl : tokens = used := by simpa using same
  -- and so do the tokens of its compact text
  have phrase := own.isPhrase
  have chain : (Slot.comma :: e.slots).IsChain Slot.Precedes := phrase.chain_cons fun _ h => h
  have apart : (Slot.comma :: e.slots).IsChain Slot.Apart :=
    List.isChain_cons.mpr ⟨fun _ _ => trivial, restorable.apart⟩
  have readable := Slot.isReadable_of_spells spells read chain nofun restorable.readBack
  obtain ⟨others, reads, spellsOther⟩ := Slot.lexesTo_row chain apart restorable.periods.comma
    readable (.inl rfl) .start
  have readOther : WereRead none others := reads.wereRead nofun
  have twins := Slot.twins_of_spells spells spellsOther read.isRead readOther.isRead chain apart
    phrase.getLast?_cons
  -- so both are given as expressions of the same shape, and the tokens leave no choice
  have alike :
      Parser.Alike Parser.SameShape (Parser.exprIn wildcards _) (Parser.exprIn wildcards _) :=
    Parser.alike_exprIn (Parser.isAlike_grammar Parser.maxDepth)
  have agree := alike _ twins
  rw [List.nil_append, given] at agree
  generalize outcome : Parser.exprIn wildcards _ others = found at agree
  cases agree with
  | @ok _ _ other _ rest shape left =>
    obtain rfl : rest = [] := List.length_eq_zero_iff.mp left.length_eq.symm
    obtain ⟨ownOther, settles⟩ := requoted.own.of_shape (shape.trans requoted.shape.symm)
    obtain ⟨usedOther, sameOther, spellsGiven⟩ := (Parser.isFaithful_grammar _).recognizes 0
      (Parser.full_of_exprIn outcome ownOther) ownOther
    have same : others ++ [] = usedOther ++ [] := by simpa using sameOther
    obtain ⟨rfl, -⟩ := settles (requoted.slots ▸ spellsOther) spellsGiven same
    refine parseExpr_eq_ok_iff.mpr ⟨others, lex_eq_ok_iff.mpr ?_, outcome⟩
    rwa [String.toList_ofList]

/-- The text of a condition in which two minus signs meet. -/
def meetingSignsText : String := "NOT (u.name <> \"x\" AND n - -1 IN (2, :k)) OR d IS NOT NULL"

/-- The condition. -/
def meetingSigns : Expr :=
  .binary
    (.unary .not (.nested (.binary
      (.binary (.dotted [⟨"u", none⟩, ⟨"name", none⟩]) .notEq (.literal (.text .double "x"))) .and
      (.inList (.binary (.name ⟨"n", none⟩) .minus (.unary .minus (.literal (.number "1" false))))
        false [.literal (.number "2" false), .literal (.placeholder ":k")]))))
    .or (.isTest (.name ⟨"d", none⟩) true .null)

/-- Whether an outcome is the condition. -/
def isMeetingSigns : Except SyntaxError Expr → Bool
  | .ok (.binary (.unary .not (.nested (.binary (.binary (.dotted [⟨"u", none⟩, ⟨"name", none⟩])
      .notEq (.literal (.text .double "x"))) .and (.inList (.binary (.name ⟨"n", none⟩) .minus
      (.unary .minus (.literal (.number "1" false)))) false [.literal (.number "2" false),
      .literal (.placeholder ":k")])))) .or (.isTest (.name ⟨"d", none⟩) true .null)) => true
  | _ => false

/-- Whether an outcome is the parameter of the condition. -/
def isMeetingParameter : Except SyntaxError Expr → Bool
  | .ok (.literal (.placeholder ":k")) => true
  | _ => false

theorem parseExpr_parameter : parseExpr false ":k" = .ok (.literal (.placeholder ":k")) := by
  have h : isMeetingParameter (parseExpr false ":k") = true := by decide +kernel
  generalize parseExpr false ":k" = outcome at h ⊢
  unfold isMeetingParameter at h
  split at h
  · rfl
  · cases h

theorem isRestorable_meetingSigns : meetingSigns.IsRestorable := by
  have slots : meetingSigns.slots = [.unary .not, .leftParen, .name ⟨"u", none⟩, .period,
      .part ⟨"name", none⟩, .binary .notEq, .value (.text .double "x"), .binary .and,
      .name ⟨"n", none⟩, .binary .minus, .unary .minus, .value (.number "1" false), .isIn,
      .leftParen, .value (.number "2" false), .comma, .value (.placeholder ":k"), .rightParen,
      .rightParen, .binary .or, .name ⟨"d", none⟩, .is, .isNot, .truth .null] := rfl
  have parsed := parseExpr_parameter
  have free : Ident.keyword ⟨"u", none⟩ ∉ ["SELECT", "WITH"] := by decide +kernel
  refine ⟨by decide +kernel, ?_, ?_, ?_⟩
  · rw [slots]
    simp [Slot.IsReadBack, Ident.IsReadBack, Literal.IsReadBack, parsed]
  · rw [slots]
    simpa [Slot.Apart] using free
  · intro value other inside
    have mem : Slot.part ⟨value, some .single⟩ ∈ meetingSigns.slots :=
      inside.subset List.mem_cons_self
    rw [slots] at mem
    simp at mem

/-- It is read back. -/
theorem parseExpr_compact_meetingSigns :
    parseExpr false meetingSignsText = .ok meetingSigns ∧ meetingSigns.IsRestorable ∧
      ∃ restored, meetingSigns.compact = .ok restored ∧
        parseExpr false restored = .ok meetingSigns.singleQuoted := by
  have parsed : parseExpr false meetingSignsText = .ok meetingSigns := by
    have h : isMeetingSigns (parseExpr false meetingSignsText) = true := by decide +kernel
    generalize parseExpr false meetingSignsText = outcome at h ⊢
    unfold isMeetingSigns at h
    split at h
    · rfl
    · cases h
  exact ⟨parsed, isRestorable_meetingSigns, parseExpr_compact parsed isRestorable_meetingSigns⟩

end SqlFootprint.Sql
