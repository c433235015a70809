import SqlFootprint.Proofs.Sql.OperandAgreement

/-! # Whole expressions of twins

Behind an operand stand the parts of a name, operators and predicates. Twins are read as expressions
of the same shape, at every depth (`isAlike_grammar`). -/

namespace SqlFootprint.Sql.Parser

variable {α β : Type} {g : Grammar} {x : Slot}

/-! ## Parts -/

/-- The shapes that one step adds to the parts of a value. -/
def partShapes : Shape → List Shape
  | .access root more => root :: more
  | .dotted count => List.replicate count .name
  | s => [s]

theorem shapes_map_name (ids : List Ident) :
    shapes (ids.map Expr.name) = List.replicate ids.length .name := by
  induction ids with
  | nil => rfl
  | cons id ids ih => exact congrArg (Shape.name :: ·) ih

theorem shapes_partsOf (e : Expr) : shapes (partsOf e) = partShapes e.shape := by
  unfold partsOf
  split
  · rfl
  · exact shapes_map_name _
  · rename_i h h'
    have single : shapes [e] = [e.shape] := rfl
    rw [single]
    unfold Expr.shape
    split <;> first | rfl | (exact absurd rfl (h _ _)) | (exact absurd rfl (h' _))

theorem shapes_append (es more : List Expr) : shapes (es ++ more) = shapes es ++ shapes more := by
  simp [shapes_eq_map]

theorem Agree.map {R : α → α → Prop} {S : β → β → Prop} {f : α → β}
    {first second : Except SyntaxError (α × List Lexeme)} (agree : Agree R first second)
    (h : ∀ a b, R a b → S (f a) (f b)) :
    Agree S (first.map fun (a, rest) => (f a, rest)) (second.map fun (a, rest) => (f a, rest)) := by
  cases agree with
  | ok related twins => exact .ok (h _ _ related) twins
  | tooDeep => exact .tooDeep
  | error h hf => exact .error h hf

theorem alike_behindPeriod (alike : IsAlike g) (start place : Position)
    {tokens others : List Lexeme}
    (twins : Twins .period tokens others) : Agree (Option.Rel SameShapes)
      (partGroup g (⟨.sign .period, start⟩ :: tokens))
      (partGroup g (⟨.sign .period, place⟩ :: others)) := by
  have whole := twins
  cases twins with
  | nil ends => exact ends.elim
  | parameter precedes => exact absurd precedes (not_precedes_value (.inr rfl) _)
  | cons precedes _ twin twins =>
    obtain ⟨id, rfl⟩ := precedes
    cases twin with
    | part =>
      have same (e f : Expr) (same : SameShape e f) : SameShapes (partsOf e) (partsOf f) := by
        unfold SameShapes
        rw [shapes_partsOf, shapes_partsOf, same]
      exact (alike.expr Strength.period _ whole).map (f := fun e => some (partsOf e))
        fun e f related => .some (same e f related)
    | quotedPart => exact .ok (.some rfl) twins
    | word _ _ is => exact absurd rfl is
    | sign has => exact has.elim

theorem alike_partGroup (alike : IsAlike g) :
    Alike (Option.Rel SameShapes) (partGroup g) (partGroup g) := by
  intro x tokens others twins
  have whole := twins
  cases twins with
  | nil => exact .ok .none whole
  | parameter _ marks => obtain rfl | rfl := marks <;> exact .ok .none whole
  | cons precedes _ twin twins =>
    cases twin with
    | @sign _ s t has hasOther =>
      obtain rfl | ⟨equality, otherEquality⟩ := has.unique hasOther
      · cases s with
        | period =>
          obtain rfl := Slot.eq_period has
          exact alike_behindPeriod alike _ _ twins
        | _ => exact .ok .none whole
      · simp only [List.mem_cons, List.not_mem_nil, or_false] at equality otherEquality
        obtain rfl | rfl := equality <;> obtain rfl | rfl := otherEquality <;>
          exact .ok .none whole
    | _ => exact .ok .none whole

theorem alike_parts (alike : IsAlike g) : Alike SameShapes (parts g) (parts g) := by
  rw [parts_eq]
  refine (alike_partGroup alike).many.bind fun groups others related => .pure ?_
  induction related with
  | nil => rfl
  | cons same _ ih =>
    unfold SameShapes at same ih ⊢
    rw [List.flatten_cons, List.flatten_cons, shapes_append, shapes_append, same, ih]

/-- Whether a shape is that of a plain name. -/
def isNameShape : Shape → Bool
  | .name => true
  | _ => false

/-- Whether a shape is that of a function call. -/
def isCallShape : Shape → Bool
  | .call => true
  | _ => false

/-- The shape of a value with its parts. -/
def accessedShape (root : Shape) (parts : List Shape) : Shape :=
  if parts.isEmpty then root
  else if !isNameShape root then .access root parts
  else if parts.all isNameShape then .dotted (parts.length + 1)
  else if parts.getLast?.any isCallShape && parts.dropLast.all isNameShape then .call
  else .access root parts

theorem isNameShape_iff {e : Expr} : isNameShape e.shape = true ↔ ∃ id, e = .name id := by
  constructor
  · intro h
    unfold isNameShape at h
    split at h
    · exact describes_of_shape ‹_›
    · nomatch h
  · rintro ⟨id, rfl⟩
    rfl

theorem isCallShape_iff {e : Expr} : isCallShape e.shape = true ↔ ∃ c, e = .call c := by
  constructor
  · intro h
    unfold isCallShape at h
    split at h
    · rename_i isCall
      unfold Expr.shape at isCall
      split at isCall <;> cases isCall
      exact ⟨_, rfl⟩
    · nomatch h
  · rintro ⟨c, rfl⟩
    rfl

theorem allNames?_eq (es : List Expr) :
    (∃ ids, allNames? es = some ids ∧ ids.length = es.length ∧ (shapes es).all isNameShape = true) ∨
      (allNames? es = none ∧ (shapes es).all isNameShape = false) := by
  induction es with
  | nil => exact .inl ⟨[], rfl, rfl, rfl⟩
  | cons e es ih =>
    by_cases name : ∃ id, e = .name id
    · obtain ⟨id, rfl⟩ := name
      obtain ⟨ids, same, count, all⟩ | ⟨same, all⟩ := ih
      · exact .inl ⟨id :: ids, by rw [allNames?, same]; rfl, congrArg (· + 1) count, all⟩
      · exact .inr ⟨by rw [allNames?, same]; rfl, all⟩
    · refine .inr ⟨?_, ?_⟩
      · cases e with
        | name id => exact absurd ⟨id, rfl⟩ name
        | _ => rfl
      · have other : isNameShape e.shape = false :=
          Bool.eq_false_iff.mpr (mt isNameShape_iff.mp name)
        simp [shapes, other]

theorem shapes_getLast? (es : List Expr) : (shapes es).getLast? = es.getLast?.map Expr.shape := by
  rw [shapes_eq_map, List.getLast?_map]

theorem shapes_dropLast (es : List Expr) : shapes es.dropLast = (shapes es).dropLast := by
  rw [shapes_eq_map, shapes_eq_map, List.map_dropLast]

theorem accessed_name_cons (id : Ident) (p : Expr) (ps : List Expr) :
    accessed (.name id) (p :: ps) = match allNames? (p :: ps) with
      | some ids => .dotted (id :: ids)
      | none =>
        match (p :: ps).getLast?, allNames? (p :: ps).dropLast with
        | some (.call function), some ids =>
          .call { function with name := id :: ids ++ function.name }
        | _, _ => .access (.name id) (p :: ps) := rfl

theorem shape_accessed (root : Expr) (parts : List Expr) :
    (accessed root parts).shape = accessedShape root.shape (shapes parts) := by
  cases parts with
  | nil => rfl
  | cons p ps =>
    by_cases name : ∃ id, root = .name id
    · obtain ⟨id, rfl⟩ := name
      have root : isNameShape (Expr.name id).shape = true := rfl
      have nonempty : (shapes (p :: ps)).isEmpty = false := rfl
      have accessed : (Expr.access (.name id) (p :: ps)).shape =
        .access (Expr.name id).shape (shapes (p :: ps)) := rfl
      rw [accessed_name_cons]
      obtain ⟨ids, same, count, all⟩ | ⟨same, all⟩ := allNames?_eq (p :: ps)
      · rw [same, accessedShape, nonempty, root, all, shapes_eq_map, List.length_map, ← count]
        rfl
      · rw [same, accessedShape, nonempty, root, all, shapes_getLast?, ← shapes_dropLast]
        generalize (p :: ps).getLast? = last
        by_cases call : ∃ c, last = some (.call c)
        · obtain ⟨c, rfl⟩ := call
          obtain ⟨ids, front, -, allFront⟩ | ⟨front, allFront⟩ := allNames?_eq (p :: ps).dropLast
          · rw [front, allFront]
            rfl
          · rw [front, allFront]
            exact accessed
        · have noCall : (last.map Expr.shape).any isCallShape = false := by
            cases last with
            | none => rfl
            | some e => exact Bool.eq_false_iff.mpr (mt isCallShape_iff.mp (by simpa using call))
          rw [noCall]
          refine Eq.trans (congrArg Expr.shape ?_) accessed
          generalize allNames? (p :: ps).dropLast = front
          cases last with
          | none => rfl
          | some e =>
            cases e with
            | call c => exact absurd ⟨c, rfl⟩ call
            | _ => rfl
    · have other : isNameShape root.shape = false :=
        Bool.eq_false_iff.mpr (mt isNameShape_iff.mp name)
      have general : accessed root (p :: ps) = .access root (p :: ps) := by
        cases root with
        | name id => exact absurd ⟨id, rfl⟩ name
        | _ => rfl
      rw [general]
      simp [accessedShape, other, Expr.shape, shapes]

theorem alike_operand (alike : IsAlike g) : Alike SameShape (operand g) (operand g) := by
  have withParts (e f : Expr) (same : SameShape e f) : Alike SameShape
      (do return accessed e (← parts g)) (do return accessed f (← parts g)) :=
    (alike_parts alike).bind fun ps qs parts => .pure (by
      unfold SameShape SameShapes at *
      rw [shape_accessed, shape_accessed, same, parts])
  refine (alike_operandStart alike).bind fun e f same x => ?_
  refine .ifWord (by decide) (fun y name => ?_) (withParts e f same x)
  exact (alike_objectName name).bind fun _ _ _ => withParts _ _ rfl

/-! ## Operators -/

/-- Behind two readers of an option, it is enough to look at each outcome. -/
theorem Alike.bindOption {p q : Parser (Option α)} {f g : Option α → Parser β} {R : β → β → Prop}
    (h : Alike Eq p q) (some : ∀ a, Alike R (f (some a)) (g (some a)))
    (none : Alike R (f none) (g none)) : Alike R (p >>= f) (q >>= g) := by
  refine h.bindEq fun found => ?_
  cases found with
  | none => exact none
  | some a => exact some a

theorem alike_isTest (alike : IsAlike g) {left other : Expr} (same : SameShape left other) :
    Alike SameShape (isTest g left) (isTest g other) := by
  have negated (words : List String) (nonempty : "" ∉ words) : Alike Eq
      (do if ← keywords? words then return some false
          if ← keywords? ("NOT" :: words) then return some true
          return none : Parser (Option Bool))
      (do if ← keywords? words then return some false
          if ← keywords? ("NOT" :: words) then return some true
          return none) :=
    .ifKeywords nonempty (.pure rfl) (.ifKeywords (by simpa using nonempty) (.pure rfl) (.pure rfl))
  have found (truth : Truth) (no : Bool) : Alike SameShape
      (pure (.isTest left no truth)) (pure (.isTest other no truth)) := .pure (same.isTest no truth)
  unfold isTest
  refine (negated ["NULL"] (by decide)).bindOption (found .null) ?_
  refine (negated ["TRUE"] (by decide)).bindOption (found .true) ?_
  refine (negated ["FALSE"] (by decide)).bindOption (found .false) ?_
  refine (negated ["UNKNOWN"] (by decide)).bindOption (found .unknown) ?_
  refine (negated ["DISTINCT", "FROM"] (by decide)).bindOption (fun no => ?_) (.expected _)
  exact (alike.expr 0).bind fun _ _ _ => .pure rfl

theorem alike_membership (alike : IsAlike g) {left other : Expr} (same : SameShape left other)
    (negated : Bool) :
    Alike SameShape (membership g left negated) (membership g other negated) := by
  intro x
  unfold membership
  refine AlikeAt.parens (alike.hides.queryBody.attempt.bind fun found _ related => ?_)
  cases related with
  | some never => exact never.elim
  | none =>
    exact (alike.expr 0).commaList.bind fun items others related =>
      .pure (same.inList negated (sameShapes_of_forall₂ related))

theorem alike_between (alike : IsAlike g) {left other : Expr} (same : SameShape left other)
    (negated : Bool) : Alike SameShape (between g left negated) (between g other negated) :=
  (alike.expr _).bind fun _ _ low => (alike_keyword (by decide)).bindEq fun _ =>
    (alike.expr _).bind fun _ _ high => .pure (same.between negated low high)

theorem sameShape_like {left other pattern otherPattern : Expr} {escape otherEscape : Option String}
    (same : SameShape left other) (negated : Bool) (op : LikeOp) (any : Bool)
    (samePattern : SameShape pattern otherPattern)
    (sameEscape : Option.Rel Whatever escape otherEscape) :
    SameShape (.like left negated op any pattern escape)
      (.like other negated op any otherPattern otherEscape) := by
  cases sameEscape with
  | some => cases op <;> cases any <;> rfl
  | none =>
    cases op with
    | like =>
      cases any with
      | false => exact same.like negated samePattern
      | true => rfl
    | _ => cases any <;> rfl

theorem alike_like (alike : IsAlike g) {left other : Expr} (same : SameShape left other)
    (negated : Bool) (op : LikeOp) :
    Alike SameShape (like g left negated op) (like g other negated op) := by
  have rest (any : Bool) : Alike SameShape
      (do let pattern ← g.expr Strength.pattern
          return .like left negated op any pattern (← after? "ESCAPE" textLiteral))
      (do let pattern ← g.expr Strength.pattern
          return .like other negated op any pattern (← after? "ESCAPE" textLiteral)) :=
    (alike.expr _).bind fun _ _ samePattern =>
      (Alike.afterName (by decide) fun _ name => alike_textLiteral (.inl name)).bind
        fun _ _ sameEscape => .pure (sameShape_like same negated op any samePattern sameEscape)
  cases op with
  | like => exact (alike_keyword? (by decide)).bindEq rest
  | ilike => exact (alike_keyword? (by decide)).bindEq rest
  | similarTo => exact rest false

theorem alike_predicate (alike : IsAlike g) {left other : Expr} (same : SameShape left other) :
    Alike SameShape (predicate g left) (predicate g other) := by
  have regexp (negated word : Bool) : Alike SameShape
      (do return .regexp left negated word (← g.expr Strength.pattern))
      (do return .regexp other negated word (← g.expr Strength.pattern)) :=
    (alike.expr _).bind fun _ _ _ => .pure rfl
  refine (alike_keyword? (by decide)).bindEq fun negated => ?_
  refine .ifKeyword (by decide) (regexp negated false) ?_
  refine .ifKeyword (by decide) (regexp negated true) ?_
  refine .ifKeyword (by decide) (alike_membership alike same negated) ?_
  refine .ifKeyword (by decide) (alike_between alike same negated) ?_
  refine .ifKeyword (by decide) (alike_like alike same negated .like) ?_
  refine .ifKeyword (by decide) (alike_like alike same negated .ilike) ?_
  exact .ifKeywords (by decide) (alike_like alike same negated .similarTo) (.expected _)

/-- The right side of an operator; no place is a quantifier, and behind a name that is none stands
no parenthesis. -/
theorem alike_rightSide (alike : IsAlike g) {left other : Expr} (same : SameShape left other)
    (op : BinaryOp) (strength : Nat) (start place : Position) :
    Alike SameShape (rightSide g left op strength start) (rightSide g other op strength place) := by
  refine fun x => .oneOfNames (by decide) (fun word y name => ?_) ?_
  · exact .of_fails name.isEnd
      (fun tokens stops => .behind stops.isSign_leftParen stops.sign_fails.bind)
      (fun tokens stops => .behind stops.isSign_leftParen stops.sign_fails.bind)
  · exact ((alike.expr _).bind fun _ _ right => .pure (same.binary op right)) x

theorem signOp?_eq_of_hasSign {y : Slot} {s t : Sign} (has : y.HasSign s) (hasOther : y.HasSign t) :
    signOp? s = signOp? t := by
  obtain rfl | ⟨equality, otherEquality⟩ := has.unique hasOther
  · rfl
  · simp only [List.mem_cons, List.not_mem_nil, or_false] at equality otherEquality
    obtain rfl | rfl := equality <;> obtain rfl | rfl := otherEquality <;> rfl

theorem ne_doubleColon_of_hasSign {y : Slot} {s : Sign} (has : y.HasSign s) : s ≠ .doubleColon := by
  rintro rfl
  cases y with
  | unary op => cases op <;> nomatch has
  | _ => nomatch has

theorem step_sign {left : Expr} {strength : Nat} {s : Sign} {start : Position} {rest : List Lexeme}
    (other : s ≠ .doubleColon) :
    step g left strength (⟨.sign s, start⟩ :: rest) = match signOp? s with
      | some op => rightSide g left op strength start rest
      | none => .error (.noOperator (signName s) start) := by
  have noCast : (s == Sign.doubleColon) = false := by simpa using other
  unfold step
  rw [bind_ok (rfl : peek (⟨.sign s, start⟩ :: rest) = .ok (some ⟨.sign s, start⟩, _))]
  dsimp only [List.head?_cons]
  rw [noCast]
  cases signOp? s <;> rfl

theorem alike_step (alike : IsAlike g) {left other : Expr} (same : SameShape left other)
    (strength : Nat) : Alike SameShape (step g left strength) (step g other strength) := by
  intro x tokens others twins
  have whole := twins
  cases twins with
  | nil => exact .error nofun nofun
  | parameter _ marks => obtain rfl | rfl := marks <;> exact .error nofun nofun
  | @cons _ y t u start place tokens others precedes _ twin twins =>
    have word {id otherId : Ident} (keyword : id.keyword = otherId.keyword)
        (whole : Twins x (⟨.word id, start⟩ :: tokens) (⟨.word otherId, place⟩ :: others)) :
        Agree SameShape (step g left strength (⟨.word id, start⟩ :: tokens))
          (step g other strength (⟨.word otherId, place⟩ :: others)) := by
      have operator (op : BinaryOp) : Agree SameShape (rightSide g left op strength start tokens)
          (rightSide g other op strength place others) :=
        alike_rightSide alike same op strength start place y twins
      have predicate := alike_predicate alike same x whole
      have time : Alike SameShape
          (do keywords ["AT", "TIME", "ZONE"]
              return Expr.atTimeZone left (← g.expr strength))
          (do keywords ["AT", "TIME", "ZONE"]
              return Expr.atTimeZone other (← g.expr strength)) :=
        (alike_keywords (by decide)).bindEq fun _ => (alike.expr _).bind fun _ _ _ => .pure rfl
      have member : Alike SameShape
          (do unless ← keyword? "OF" do expected "OF after MEMBER"
              return Expr.memberOf left (← parens g.full))
          (do unless ← keyword? "OF" do expected "OF after MEMBER"
              return Expr.memberOf other (← parens g.full)) :=
        .ifKeyword (by decide) ((alike.expr 0).parens.bind fun _ _ _ => .pure rfl)
          ((Alike.expected (R := Whatever) _).bind fun _ _ _ =>
            (alike.expr 0).parens.bind fun _ _ _ => .pure rfl)
      unfold step
      rw [bind_ok (rfl : peek (⟨.word id, start⟩ :: tokens) = .ok (some ⟨.word id, start⟩, _)),
        bind_ok (rfl :
          peek (⟨.word otherId, place⟩ :: others) = .ok (some ⟨.word otherId, place⟩, _))]
      dsimp only [List.head?_cons]
      rw [keyword]
      generalize otherId.keyword = keyword
      split
      · exact ((alike.expr 0).bind fun _ _ right =>
          .pure (same.binary .integerDivide right)) y twins
      · exact operator .and
      · exact operator .or
      · exact operator .xor
      · exact operator .overlaps
      · exact alike_isTest alike same y twins
      · exact time x whole
      · exact member y twins
      iterate 8 exact predicate
      · exact .error nofun nofun
    cases twin with
    | name => exact word rfl whole
    | part => exact word rfl whole
    | word first second => exact word (first.trans second.symm) whole
    | value => exact .error nofun nofun
    | quotedPart => exact .error nofun nofun
    | sign has hasOther =>
      rw [step_sign (ne_doubleColon_of_hasSign has), step_sign (ne_doubleColon_of_hasSign hasOther),
        signOp?_eq_of_hasSign has hasOther]
      split
      · exact alike_rightSide alike same _ strength start place y twins
      · exact .error nofun nofun

theorem alike_stepsFuel (alike : IsAlike g) (strength : Nat) {fuel otherFuel : List Lexeme}
    (length : fuel.length = otherFuel.length) {left other : Expr} (same : SameShape left other) :
    Alike SameShape (stepsFuel g strength fuel left) (stepsFuel g strength otherFuel other) := by
  induction fuel generalizing otherFuel left other with
  | nil =>
    obtain rfl := List.length_eq_zero_iff.mp length.symm
    exact .pure same
  | cons _ fuel ih =>
    cases otherFuel with
    | nil => nomatch length
    | cons _ otherFuel =>
      refine alike_nextStrength.bindEq fun ahead =>
        (alike_isSign (by decide)).bindEq fun period => ?_
      split
      · exact .pure same
      · exact (alike_step alike same ahead).bind fun _ _ more => ih (Nat.succ.inj length) more

/-- Twins are read as expressions of the same shape. -/
theorem alike_expr (alike : IsAlike g) (strength : Nat) :
    Alike SameShape (expr g strength) (expr g strength) :=
  (alike_operand alike).bind fun _ _ same _ _ _ twins =>
    alike_stepsFuel alike strength twins.length_eq same _ twins

theorem isAlike_grammar (depth : Nat) : IsAlike (grammar depth) := by
  induction depth with
  | zero => exact ⟨fun _ _ _ _ _ => .tooDeep, fun _ _ _ => .tooDeep⟩
  | succ depth ih => exact ⟨alike_expr ih, ih.hides.query⟩

end SqlFootprint.Sql.Parser
