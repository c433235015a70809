import SqlFootprint.Sql.Parser.Statement

/-! # Statements one after the other

How the statements of a text are read, as a relation between its tokens and where the reading ends:
at the end of the text, at a word `END` behind a statement, or at a fault. The reading goes from
left to right and comes to one place only (`Reads.unique`), so that a fault is a fault whatever
statements stand in front of it and whatever stands behind it. -/

namespace SqlFootprint.Sql

/-- Where the statements of a text end. -/
inductive Ending where
  /-- At the end of the text. -/
  | whole
  /-- At a word that ends the text early; what is behind it is not looked at. -/
  | cut
  /-- At a statement that cannot be read, or at something else that is no statement. -/
  | fault
  deriving DecidableEq, Repr

/-- Whether a token is a semicolon. -/
def Lexeme.isSemicolon (lexeme : Lexeme) : Bool := lexeme.token == .sign .semicolon

/-- The statements that are read from tokens, after `afterOne` of them without a semicolon behind
it, and where they end. -/
inductive Reads : (afterOne : Bool) → List Lexeme → List Statement → Ending → Prop
  /-- There are no tokens left. -/
  | done (afterOne : Bool) : Reads afterOne [] [] .whole
  /-- A semicolon is passed over. -/
  | semicolon {lexeme : Lexeme} {rest : List Lexeme} {statements : List Statement} {ending : Ending}
      (afterOne : Bool) (hsemicolon : lexeme.isSemicolon = true)
      (hrest : Reads false rest statements ending) :
      Reads afterOne (lexeme :: rest) statements ending
  /-- A word `END` stands behind a statement. -/
  | cut {lexeme : Lexeme} (rest : List Lexeme) (hword : lexeme.isSemicolon = false)
      (hend : lexeme.token.keyword = "END") : Reads true (lexeme :: rest) [] .cut
  /-- Something else stands behind a statement. -/
  | leftover {lexeme : Lexeme} (rest : List Lexeme) (hword : lexeme.isSemicolon = false)
      (hend : lexeme.token.keyword ≠ "END") : Reads true (lexeme :: rest) [] .fault
  /-- No statement can be read. -/
  | broken {lexeme : Lexeme} {rest : List Lexeme} {cause : SyntaxError}
      (hword : lexeme.isSemicolon = false)
      (hcause : Parser.statement Parser.maxDepth (lexeme :: rest) = .error cause) :
      Reads false (lexeme :: rest) [] .fault
  /-- A statement is read. -/
  | statement {lexeme : Lexeme} {rest behind : List Lexeme} {first : Statement}
      {statements : List Statement} {ending : Ending} (hword : lexeme.isSemicolon = false)
      (hfirst : Parser.statement Parser.maxDepth (lexeme :: rest) = .ok (first, behind))
      (hbehind : Reads true behind statements ending) :
      Reads false (lexeme :: rest) (first :: statements) ending

/-- Statements end at one place, and they are the same ones. -/
theorem Reads.unique {afterOne : Bool} {tokens : List Lexeme} {statements others : List Statement}
    {ending ending' : Ending} (h : Reads afterOne tokens statements ending)
    (h' : Reads afterOne tokens others ending') : statements = others ∧ ending = ending' := by
  induction h generalizing others ending' with
  | done => cases h'; exact ⟨rfl, rfl⟩
  | semicolon _ hsemicolon _ ih =>
    cases h' with
    | semicolon _ _ hrest => exact ih hrest
    | cut _ hword | leftover _ hword | broken hword | statement hword =>
      nomatch hsemicolon.symm.trans hword
  | cut _ hword hend =>
    cases h' with
    | semicolon _ hsemicolon => nomatch hsemicolon.symm.trans hword
    | cut => exact ⟨rfl, rfl⟩
    | leftover _ _ hother => exact absurd hend hother
  | leftover _ hword hend =>
    cases h' with
    | semicolon _ hsemicolon => nomatch hsemicolon.symm.trans hword
    | cut _ _ hother => exact absurd hother hend
    | leftover => exact ⟨rfl, rfl⟩
  | broken hword hcause =>
    cases h' with
    | semicolon _ hsemicolon => nomatch hsemicolon.symm.trans hword
    | broken => exact ⟨rfl, rfl⟩
    | statement _ hfirst => nomatch hcause.symm.trans hfirst
  | statement hword hfirst _ ih =>
    cases h' with
    | semicolon _ hsemicolon => nomatch hsemicolon.symm.trans hword
    | broken _ hcause => nomatch hfirst.symm.trans hcause
    | statement _ hfirst' hbehind =>
      cases hfirst.symm.trans hfirst'
      obtain ⟨rfl, rfl⟩ := ih hbehind
      exact ⟨rfl, rfl⟩

/-! ## Reading with the parser -/

namespace Parser

/-- No semicolon is read where none comes next. -/
theorem sign?_semicolon {lexeme : Lexeme} (rest : List Lexeme) (h : lexeme.isSemicolon = false) :
    sign? .semicolon (lexeme :: rest) = .ok (false, lexeme :: rest) := by
  obtain ⟨token, start⟩ := lexeme
  cases token with
  | sign s =>
    have hs : s ≠ .semicolon := by
      rintro rfl
      simp [Lexeme.isSemicolon] at h
    simp [sign?, hs]
  | _ => rfl

/-- A semicolon is passed over. -/
theorem statementsFuel_semicolon (fuel : Nat) (afterOne : Bool) {lexeme : Lexeme}
    (rest : List Lexeme) (h : lexeme.isSemicolon = true) :
    statementsFuel (fuel + 1) afterOne (lexeme :: rest) = statementsFuel fuel false rest := by
  obtain ⟨token, start⟩ := lexeme
  obtain rfl : token = .sign .semicolon := by simpa [Lexeme.isSemicolon] using h
  rfl

/-- Behind a statement only a word `END` is let in. -/
theorem statementsFuel_true (fuel : Nat) {lexeme : Lexeme} (rest : List Lexeme)
    (h : lexeme.isSemicolon = false) :
    statementsFuel (fuel + 1) true (lexeme :: rest) =
      if lexeme.token.keyword = "END" then .ok ([], lexeme :: rest)
      else .error (.expected "end of statement" (some lexeme)) := by
  change Except.bind (sign? .semicolon (lexeme :: rest)) _ = _
  rw [sign?_semicolon rest h]
  change (if (lexeme.token.keyword == "END") = true then return []
    else expected "end of statement" : Parser (List Statement)) (lexeme :: rest) = _
  by_cases hend : lexeme.token.keyword = "END"
  · rw [if_pos (beq_iff_eq.mpr hend), if_pos hend]
    rfl
  · rw [if_neg (mt beq_iff_eq.mp hend), if_neg hend]
    rfl

/-- Otherwise a statement has to come next, and what is behind it. -/
theorem statementsFuel_false (fuel : Nat) {lexeme : Lexeme} (rest : List Lexeme)
    (h : lexeme.isSemicolon = false) :
    statementsFuel (fuel + 1) false (lexeme :: rest) = (do
      let (first, behind) ← statement maxDepth (lexeme :: rest)
      let (others, last) ← statementsFuel fuel true behind
      return (first :: others, last)) := by
  change Except.bind (sign? .semicolon (lexeme :: rest)) _ = _
  rw [sign?_semicolon rest h]
  rfl

/-- What goes on after a step has a result only if the step has one. -/
theorem of_bind_eq_ok {α β : Type} {r : Except SyntaxError α} {f : α → Except SyntaxError β} {b : β}
    (h : (r >>= f) = .ok b) : ∃ a, r = .ok a ∧ f a = .ok b := by
  cases r with
  | error cause => cases h
  | ok a => exact ⟨a, rfl, h⟩

/-- Statements that are read are all there are, or a word `END` cuts them off. -/
theorem reads_of_statementsFuel {fuel : Nat} {afterOne : Bool} {tokens last : List Lexeme}
    {statements : List Statement}
    (h : statementsFuel fuel afterOne tokens = .ok (statements, last)) :
    ∃ ending ≠ Ending.fault, Reads afterOne tokens statements ending := by
  induction fuel generalizing afterOne tokens statements with
  | zero => cases h
  | succ fuel ih =>
    cases tokens with
    | nil =>
      obtain ⟨rfl, -⟩ : [] = statements ∧ [] = last := by simpa using Except.ok.inj h
      exact ⟨.whole, by decide, .done afterOne⟩
    | cons lexeme rest =>
      cases hsemicolon : lexeme.isSemicolon with
      | true =>
        rw [statementsFuel_semicolon fuel afterOne rest hsemicolon] at h
        obtain ⟨ending, hending, hrest⟩ := ih h
        exact ⟨ending, hending, .semicolon afterOne hsemicolon hrest⟩
      | false =>
        cases afterOne with
        | true =>
          rw [statementsFuel_true fuel rest hsemicolon] at h
          split at h
          · rename_i hend
            cases h
            exact ⟨.cut, by decide, .cut rest hsemicolon hend⟩
          · cases h
        | false =>
          rw [statementsFuel_false fuel rest hsemicolon] at h
          obtain ⟨⟨first, behind⟩, hfirst, hrest⟩ := of_bind_eq_ok h
          obtain ⟨⟨others, last'⟩, hothers, hall⟩ := of_bind_eq_ok hrest
          obtain ⟨rfl, rfl⟩ : first :: others = statements ∧ last' = last := by
            simpa using Except.ok.inj hall
          obtain ⟨ending, hending, hbehind⟩ := ih hothers
          exact ⟨ending, hending, .statement hsemicolon hfirst hbehind⟩

/-- Statements that cannot be read come to a fault, unless they are nested too deeply. -/
theorem reads_fault_of_statementsFuel {fuel : Nat} {afterOne : Bool} {tokens : List Lexeme}
    {cause : SyntaxError} (h : statementsFuel fuel afterOne tokens = .error cause)
    (hcause : cause ≠ .tooDeep) : ∃ statements, Reads afterOne tokens statements .fault := by
  induction fuel generalizing afterOne tokens with
  | zero =>
    cases h
    exact absurd rfl hcause
  | succ fuel ih =>
    cases tokens with
    | nil => cases h
    | cons lexeme rest =>
      cases hsemicolon : lexeme.isSemicolon with
      | true =>
        rw [statementsFuel_semicolon fuel afterOne rest hsemicolon] at h
        obtain ⟨statements, hrest⟩ := ih h
        exact ⟨statements, .semicolon afterOne hsemicolon hrest⟩
      | false =>
        cases afterOne with
        | true =>
          rw [statementsFuel_true fuel rest hsemicolon] at h
          split at h
          · cases h
          · rename_i hend
            exact ⟨[], .leftover rest hsemicolon hend⟩
        | false =>
          rw [statementsFuel_false fuel rest hsemicolon] at h
          cases hfirst : statement maxDepth (lexeme :: rest) with
          | error cause => exact ⟨[], .broken hsemicolon hfirst⟩
          | ok read =>
            obtain ⟨first, behind⟩ := read
            cases hothers : statementsFuel fuel true behind with
            | error cause' =>
              obtain rfl : cause' = cause := by
                simpa [hfirst, bind, Except.bind, hothers] using h
              obtain ⟨statements, hbehind⟩ := ih hothers
              exact ⟨first :: statements, .statement hsemicolon hfirst hbehind⟩
            | ok others =>
              simp [hfirst, bind, Except.bind, hothers, pure, Except.pure] at h

end Parser

/-- A text is a list of statements only if its tokens are read without a fault. -/
theorem reads_of_parseStatements {text : String} {statements : List Statement}
    (h : parseStatements text = .ok statements) :
    ∃ tokens, lex text = .ok tokens ∧
      ∃ ending ≠ Ending.fault, Reads false tokens statements ending := by
  obtain ⟨tokens, hlex, hread⟩ := Parser.of_bind_eq_ok h
  obtain ⟨⟨read, last⟩, hfuel, hall⟩ := Parser.of_bind_eq_ok hread
  obtain rfl : read = statements := Except.ok.inj hall
  exact ⟨tokens, hlex, Parser.reads_of_statementsFuel hfuel⟩

/-- A text with a fault among its statements: it has no tokens, or the reading of its statements
comes to one that cannot be read, or to something else that stands behind a statement. -/
def HasFault (text : String) : Prop :=
  ∀ tokens, lex text = .ok tokens → ∃ statements, Reads false tokens statements .fault

/-- A text with a fault is no list of statements, whatever stands in front of the fault and behind
it. -/
theorem parseStatements_of_hasFault {text : String} (h : HasFault text) :
    ∃ cause, parseStatements text = .error cause := by
  cases hparse : parseStatements text with
  | error cause => exact ⟨cause, rfl⟩
  | ok statements =>
    obtain ⟨tokens, hlex, ending, hending, hreads⟩ := reads_of_parseStatements hparse
    obtain ⟨others, hfault⟩ := h tokens hlex
    exact absurd (hreads.unique hfault).2 hending

/-- Only a text with a fault is no list of statements, unless it is nested too deeply. -/
theorem hasFault_of_parseStatements {text : String} {cause : SyntaxError}
    (h : parseStatements text = .error cause) (hcause : cause ≠ .tooDeep) : HasFault text := by
  intro tokens hlex
  have hfuel : Parser.statementsFuel (2 * tokens.length + 2) false tokens = .error cause := by
    have hread : (Parser.statements tokens >>= fun read => pure read.1) = .error cause := by
      simpa [parseStatements, hlex, bind, Except.bind] using h
    cases hstatements : Parser.statements tokens with
    | error cause' =>
      rw [hstatements] at hread
      cases hread
      exact hstatements
    | ok read =>
      rw [hstatements] at hread
      cases hread
  exact Parser.reads_fault_of_statementsFuel hfuel hcause

end SqlFootprint.Sql
