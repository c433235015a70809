import SqlFootprint.Proofs.Sql.Slot
import SqlFootprint.Sql.Parser.Expr

/-! # The tokens of a row of places

A row of places is spelled by tokens (`Spells`): a token for each place, and two tokens for a
parameter with a name of its own. Which token a place has is fixed but for the letters of a word in
capitals or not, and for the two signs of equality. Two expressions of the same shape that are
spelled by the same tokens are equal. -/

namespace SqlFootprint.Sql

/-- The name of a parameter behind its sign. -/
def Token.parameterName? : Token → Option String
  | .word name => some name.value
  | .literal (.number digits false) => some digits
  | _ => none

namespace Slot

/-- The keyword of a place; empty for one that is no word. -/
def keyword : Slot → String
  | value (.boolean true) => "TRUE"
  | value (.boolean false) => "FALSE"
  | value .null => "NULL"
  | binary .and => "AND"
  | binary .or => "OR"
  | binary .xor => "XOR"
  | binary .integerDivide => "DIV"
  | binary .overlaps => "OVERLAPS"
  | unary .not => "NOT"
  | is => "IS"
  | isNot | not => "NOT"
  | truth t => t.written
  | isIn => "IN"
  | between => "BETWEEN"
  | like => "LIKE"
  | _ => ""

/-- Whether a place holds a value. -/
def isValue : Slot → Bool
  | value _ => true
  | _ => false

/-- Whether a place is spelled by a sign. -/
def HasSign : Slot → Sign → Prop
  | binary op, s => Parser.signOp? s = some op
  | unary .minus, s => s = .minus
  | unary .plus, s => s = .plus
  | period, s => s = .period
  | leftParen, s => s = .leftParen
  | rightParen, s => s = .rightParen
  | comma, s => s = .comma
  | _, _ => False

/-- Whether a place is spelled by a token. -/
inductive Fits : Slot → Token → Prop where
  /-- A name is a word; one keyword is never a name. -/
  | name (id : Ident) (free : id.keyword ≠ "INTERVAL") : Fits (name id) (.word id)
  /-- So is a part of a name. -/
  | part (id : Ident) (free : id.keyword ≠ "INTERVAL") : Fits (part id) (.word id)
  /-- A part of a name in single quotes is a text. -/
  | quotedPart (value : String) :
    Fits (part ⟨value, some .single⟩) (.literal (.text .single value))
  /-- A value. -/
  | value (literal : Literal) : Fits (value literal) (.literal literal)
  /-- A word, in whatever letters. -/
  | word {slot : Slot} {id : Ident} (same : id.keyword = slot.keyword) (is : id.keyword ≠ "") :
    Fits slot (.word id)
  /-- A sign. -/
  | sign {slot : Slot} {s : Sign} (has : slot.HasSign s) : Fits slot (.sign s)

end Slot

/-- Tokens that spell a row of places. -/
inductive Spells : List Slot → List Lexeme → Prop where
  /-- No place, no token. -/
  | nil : Spells [] []
  /-- A place of one token. -/
  | cons {slot : Slot} {token : Token} {start : Position} {slots : List Slot} {rest : List Lexeme}
    (fits : slot.Fits token) (spells : Spells slots rest) :
    Spells (slot :: slots) (⟨token, start⟩ :: rest)
  /-- A parameter: its sign and the name right behind it. -/
  | parameter {mark : Sign} {token : Token} {start : Position} {name : String} {slots : List Slot}
    {rest : List Lexeme} (marks : mark = .colon ∨ mark = .atSign)
    (names : token.parameterName? = some name) (spells : Spells slots rest) :
    Spells (.value (.placeholder (mark.written ++ name)) :: slots)
      (⟨.sign mark, start⟩ :: ⟨token, start.advance mark.written.toList⟩ :: rest)

namespace Spells

variable {slots more : List Slot} {used rest : List Lexeme}

theorem singleton {slot : Slot} {token : Token} (fits : slot.Fits token) (start : Position) :
    Spells [slot] [⟨token, start⟩] := .cons fits .nil

theorem append (first : Spells slots used) (last : Spells more rest) :
    Spells (slots ++ more) (used ++ rest) := by
  induction first with
  | nil => exact last
  | cons fits _ ih => exact .cons fits ih
  | parameter marks names _ ih => exact .parameter marks names ih

/-- What stands in parentheses. -/
theorem paren (spells : Spells slots used) (start stop : Position) :
    Spells (.leftParen :: (slots ++ [.rightParen]))
      (⟨.sign .leftParen, start⟩ :: (used ++ [⟨.sign .rightParen, stop⟩])) :=
  have opens : Slot.leftParen.Fits (.sign .leftParen) := .sign rfl
  have closes : Slot.rightParen.Fits (.sign .rightParen) := .sign rfl
  .cons opens (spells.append (.singleton closes stop))

/-- A predicate behind its word. -/
theorem behindWord {negated : Bool} {slot : Slot} (front : Spells (notSlots negated ++ [slot]) rest)
    (spells : Spells slots used) : Spells (notSlots negated ++ slot :: slots) (rest ++ used) := by
  rw [← List.singleton_append, ← List.append_assoc]
  exact front.append spells

theorem exists_of_append (spells : Spells (slots ++ more) rest) :
    ∃ front back, rest = front ++ back ∧ Spells slots front ∧ Spells more back := by
  induction slots generalizing rest with
  | nil => exact ⟨[], rest, rfl, .nil, spells⟩
  | cons slot slots ih =>
    cases spells with
    | cons fits spells =>
      obtain ⟨front, back, rfl, first, last⟩ := ih spells
      exact ⟨_ :: front, back, rfl, .cons fits first, last⟩
    | parameter marks names spells =>
      obtain ⟨front, back, rfl, first, last⟩ := ih spells
      exact ⟨_ :: _ :: front, back, rfl, .parameter marks names first, last⟩

end Spells

/-! ## Shapes -/

/-- What an expression is, without its names and values; only as much as a parser looks at. -/
inductive Shape where
  | name | dotted (count : Nat) | literal | wildcard | tableWildcard | call
  | binary (left : Shape) (op : BinaryOp) (right : Shape)
  | unary (op : UnaryOp) (arg : Shape)
  | nested (inner : Shape)
  | isTest (arg : Shape) (negated : Bool) (truth : Truth)
  | inList (arg : Shape) (negated : Bool) (items : List Shape)
  | between (arg : Shape) (negated : Bool) (low high : Shape)
  | like (arg : Shape) (negated : Bool) (pattern : Shape)
  | access (root : Shape) (parts : List Shape)
  | other

mutual

/-- The shape of an expression. -/
def Expr.shape : Expr → Shape
  | .name _ => .name
  | .dotted ids => .dotted ids.length
  | .literal _ => .literal
  | .wildcard => .wildcard
  | .tableWildcard _ => .tableWildcard
  | .call _ => .call
  | .binary left op right => .binary left.shape op right.shape
  | .unary op arg => .unary op arg.shape
  | .nested inner => .nested inner.shape
  | .isTest arg negated truth => .isTest arg.shape negated truth
  | .inList arg negated items => .inList arg.shape negated (shapes items)
  | .between arg negated low high => .between arg.shape negated low.shape high.shape
  | .like arg negated .like false pattern none => .like arg.shape negated pattern.shape
  | .access root parts => .access root.shape (shapes parts)
  | _ => .other
termination_by structural e => e

/-- The shapes of some expressions. -/
def shapes : List Expr → List Shape
  | [] => []
  | e :: es => e.shape :: shapes es
termination_by structural es => es

end

theorem shapes_eq_map (es : List Expr) : shapes es = es.map Expr.shape := by
  induction es with
  | nil => rfl
  | cons e es ih => rw [shapes, ih, List.map_cons]

/-- What an expression of a shape is: known but for its names and values. -/
def Shape.Describes : Shape → Expr → Prop
  | .name, e => ∃ id, e = .name id
  | .dotted count, e => ∃ ids : List Ident, e = .dotted ids ∧ ids.length = count
  | .literal, e => ∃ value, e = .literal value
  | .binary left op right, e => ∃ l r, e = .binary l op r ∧ l.shape = left ∧ r.shape = right
  | .unary op arg, e => ∃ a, e = .unary op a ∧ a.shape = arg
  | .nested inner, e => ∃ a, e = .nested a ∧ a.shape = inner
  | .isTest arg negated truth, e => ∃ a, e = .isTest a negated truth ∧ a.shape = arg
  | .inList arg negated items, e =>
      ∃ a es, e = .inList a negated es ∧ a.shape = arg ∧ shapes es = items
  | .between arg negated low high, e =>
      ∃ a l u, e = .between a negated l u ∧ a.shape = arg ∧ l.shape = low ∧ u.shape = high
  | .like arg negated pattern, e =>
      ∃ a p, e = .like a negated .like false p none ∧ a.shape = arg ∧ p.shape = pattern
  | _, _ => True

/-- The shape of an expression describes it. -/
theorem describes_of_shape {e : Expr} {shape : Shape} (h : e.shape = shape) :
    shape.Describes e := by
  subst h
  -- the cases come in the order of the shapes
  unfold Expr.shape
  split
  · exact ⟨_, rfl⟩
  · exact ⟨_, rfl, rfl⟩
  · exact ⟨_, rfl⟩
  · trivial
  · trivial
  · trivial
  · exact ⟨_, _, rfl, rfl, rfl⟩
  · exact ⟨_, rfl, rfl⟩
  · exact ⟨_, rfl, rfl⟩
  · exact ⟨_, rfl, rfl⟩
  · exact ⟨_, _, rfl, rfl, rfl⟩
  · exact ⟨_, _, _, rfl, rfl, rfl, rfl⟩
  · exact ⟨_, _, rfl, rfl, rfl⟩
  · trivial
  · trivial

/-! ## One reading -/

/-- Whether the tokens at the front of a list that spell a row of places or another row are the
same tokens, so that something holds. -/
def Settles (p : Prop) (slots others : List Slot) : Prop :=
  ∀ ⦃front back rest tail : List Lexeme⦄, Spells slots front → Spells others back →
    front ++ rest = back ++ tail → p ∧ front = back

/-- Values that are words are equal if their words are. -/
theorem literal_eq_of_keyword {literal other : Literal}
    (same : (Slot.value literal).keyword = (Slot.value other).keyword)
    (is : (Slot.value literal).keyword ≠ "") : literal = other := by
  cases literal with
  | boolean b => cases other with
    | boolean c => cases b <;> cases c <;> simp_all [Slot.keyword]
    | null => cases b <;> simp [Slot.keyword] at same
    | _ => cases b <;> simp [Slot.keyword] at same
  | null => cases other with
    | boolean c => cases c <;> simp [Slot.keyword] at same
    | null => rfl
    | _ => simp [Slot.keyword] at same
  | _ => exact absurd rfl is

namespace Settles

variable {p q : Prop} {slots others more moreOthers : List Slot}

theorem mono (settles : Settles p slots others) (h : p → q) : Settles q slots others :=
  fun _ _ _ _ spells spellsOther same =>
    (settles spells spellsOther same).imp_left h

theorem append (first : Settles p slots others) (last : Settles q more moreOthers) :
    Settles (p ∧ q) (slots ++ more) (others ++ moreOthers) := by
  intro front back rest tail spells spellsOther same
  obtain ⟨f, f', rfl, spellsF, spellsF'⟩ := spells.exists_of_append
  obtain ⟨b, b', rfl, spellsB, spellsB'⟩ := spellsOther.exists_of_append
  rw [List.append_assoc, List.append_assoc] at same
  obtain ⟨hp, rfl⟩ := first spellsF spellsB same
  obtain ⟨hq, rfl⟩ := last spellsF' spellsB' (List.append_cancel_left same)
  exact ⟨⟨hp, hq⟩, rfl⟩

theorem nil : Settles True [] [] := by
  intro front back rest tail spells spellsOther _
  cases spells
  cases spellsOther
  exact ⟨trivial, rfl⟩

/-- A place that is no value is one token. -/
theorem of_fits {x y : Slot} (plain : x.isValue = false) (plainOther : y.isValue = false)
    (h : ∀ token, x.Fits token → y.Fits token → p) : Settles p [x] [y] := by
  intro front back rest tail spells spellsOther same
  cases spells with
  | parameter => exact Bool.noConfusion plain
  | cons fits none =>
    cases spellsOther with
    | parameter => exact Bool.noConfusion plainOther
    | cons fitsOther noneOther =>
      cases none
      cases noneOther
      simp only [List.cons_append, List.nil_append, List.cons.injEq, Lexeme.mk.injEq] at same
      obtain ⟨⟨rfl, rfl⟩, rfl⟩ := same
      exact ⟨h _ fits fitsOther, rfl⟩

/-- A place that is the same in both rows, behind which they go on. -/
theorem cons {x : Slot} (plain : x.isValue = false) (last : Settles p slots others) :
    Settles p (x :: slots) (x :: others) :=
  ((of_fits plain plain fun _ _ _ => trivial).append last).mono And.right

theorem name (id other : Ident) : Settles (id = other) [.name id] [.name other] := by
  refine of_fits rfl rfl fun token fits fitsOther => ?_
  cases fits with
  | name =>
    cases fitsOther with
    | name => rfl
    | word same is => exact absurd same is
  | word same is => exact absurd same is
  | sign has => exact has.elim

theorem part (id other : Ident) : Settles (id = other) [.part id] [.part other] := by
  refine of_fits rfl rfl fun token fits fitsOther => ?_
  cases fits with
  | part =>
    cases fitsOther with
    | part => rfl
    | word same is => exact absurd same is
  | quotedPart => cases fitsOther; rfl
  | word same is => exact absurd same is
  | sign has => exact has.elim

theorem value (literal other : Literal) :
    Settles (literal = other) [.value literal] [.value other] := by
  intro front back rest tail spells spellsOther same
  cases spells with
  | cons fits none =>
    cases none
    cases spellsOther with
    | cons fitsOther none =>
      cases none
      simp only [List.cons_append, List.nil_append, List.cons.injEq, Lexeme.mk.injEq] at same
      obtain ⟨⟨rfl, rfl⟩, rfl⟩ := same
      refine ⟨?_, rfl⟩
      cases fits with
      | value =>
        cases fitsOther
        rfl
      | word isWord is =>
        cases fitsOther with
        | word isOther => exact literal_eq_of_keyword (isWord.symm.trans isOther) (isWord ▸ is)
      | sign has => exact has.elim
    | parameter =>
      simp only [List.cons_append, List.nil_append, List.cons.injEq, Lexeme.mk.injEq] at same
      obtain ⟨⟨rfl, -⟩, -⟩ := same
      cases fits with
      | sign has => exact has.elim
  | parameter _ names none =>
    cases none
    cases spellsOther with
    | cons fitsOther =>
      simp only [List.cons_append, List.nil_append, List.cons.injEq, Lexeme.mk.injEq] at same
      obtain ⟨⟨rfl, -⟩, -⟩ := same
      cases fitsOther with
      | sign has => exact has.elim
    | parameter _ namesOther none =>
      cases none
      simp only [List.cons_append, List.nil_append, List.cons.injEq, Lexeme.mk.injEq] at same
      obtain ⟨⟨⟨⟩, rfl⟩, ⟨rfl, -⟩, rfl⟩ := same
      obtain rfl := Option.some.inj (names.symm.trans namesOther)
      exact ⟨rfl, rfl⟩

/-- The parts of a name. -/
theorem parts {ids others : List Ident} (count : ids.length = others.length) :
    Settles (ids = others) (ids.flatMap fun id => [.period, .part id])
      (others.flatMap fun id => [.period, .part id]) := by
  induction ids generalizing others with
  | nil =>
    obtain rfl := List.length_eq_zero_iff.mp count.symm
    exact nil.mono fun _ => rfl
  | cons id ids ih =>
    cases others with
    | nil => exact absurd count (Nat.succ_ne_zero _)
    | cons other others =>
      rw [List.flatMap_cons, List.flatMap_cons]
      refine (cons (by rfl) ((part id other).append (ih (Nat.succ.inj count)))).mono ?_
      rintro ⟨rfl, rfl⟩
      rfl

/-- A name with as many parts. -/
theorem names (first other : Ident) {ids others : List Ident} (count : ids.length = others.length) :
    Settles (first = other ∧ ids = others) (nameSlots (first :: ids))
      (nameSlots (other :: others)) :=
  (name first other).append (parts count)

/-- A list of expressions of the same shapes. -/
theorem list {items otherItems : List Expr}
    (each : ∀ item ∈ items, ∀ other : Expr, other.shape = item.shape →
      other.IsOwn ∧ Settles (item = other) item.slots other.slots)
    (same : shapes otherItems = shapes items) :
    (∀ other ∈ otherItems, other.IsOwn) ∧
      Settles (items = otherItems) (listSlots items) (listSlots otherItems) := by
  induction items generalizing otherItems with
  | nil =>
    cases otherItems with
    | nil => exact ⟨fun other mem => absurd mem List.not_mem_nil, nil.mono fun _ => rfl⟩
    | cons => exact absurd same (List.cons_ne_nil _ _)
  | cons item items ih =>
    cases otherItems with
    | nil => exact absurd same.symm (List.cons_ne_nil _ _)
    | cons other otherItems =>
      obtain ⟨sameFirst, sameMore⟩ := List.cons.inj same
      obtain ⟨own, first⟩ := each item List.mem_cons_self other sameFirst
      obtain ⟨owns, last⟩ := ih (fun item mem => each item (List.mem_cons_of_mem _ mem)) sameMore
      refine ⟨List.forall_mem_cons.mpr ⟨own, owns⟩, ?_⟩
      cases items with
      | nil =>
        cases otherItems with
        | nil => simpa using first
        | cons => exact absurd sameMore (List.cons_ne_nil _ _)
      | cons second more =>
        cases otherItems with
        | nil => exact absurd sameMore.symm (List.cons_ne_nil _ _)
        | cons otherSecond otherMore =>
          rw [listSlots_cons_cons, listSlots_cons_cons]
          exact (first.append (last.cons (by rfl))).mono fun both => both.1 ▸ both.2 ▸ rfl

/-- What stands in parentheses. -/
theorem paren (settles : Settles p slots others) :
    Settles p (.leftParen :: (slots ++ [.rightParen])) (.leftParen :: (others ++ [.rightParen])) :=
  ((settles.append (nil.cons rfl)).mono And.left).cons rfl

/-- A predicate, which may be negated. -/
theorem predicate (negated : Bool) (settles : Settles p slots others) :
    Settles p (notSlots negated ++ slots) (notSlots negated ++ others) := by
  cases negated with
  | false => exact settles
  | true => exact settles.cons rfl

/-- A test. -/
theorem test (negated : Bool) (truth : Truth) :
    Settles True (.is :: ((if negated then [.isNot] else []) ++ [.truth truth]))
      (.is :: ((if negated then [.isNot] else []) ++ [.truth truth])) := by
  have last : Settles True [.truth truth] [.truth truth] := nil.cons rfl
  cases negated with
  | false => exact last.cons rfl
  | true => exact (last.cons (by rfl)).cons rfl

end Settles

/-- Of two expressions of the same shape, both are of that kind; and if tokens start with both,
they are equal. -/
theorem Expr.IsOwn.of_shape {e other : Expr} (own : e.IsOwn) (same : other.shape = e.shape) :
    other.IsOwn ∧ Settles (e = other) e.slots other.slots := by
  induction own generalizing other with
  | name id =>
    obtain ⟨otherId, rfl⟩ := describes_of_shape same
    exact ⟨.name otherId, (Settles.name id otherId).mono fun h => h ▸ rfl⟩
  | dotted first others =>
    obtain ⟨_ | ⟨otherFirst, otherIds⟩, rfl, count⟩ := describes_of_shape same
    · exact absurd count.symm (Nat.succ_ne_zero _)
    · exact ⟨.dotted otherFirst otherIds,
        (Settles.names first otherFirst (Nat.succ.inj count.symm)).mono fun h => h.1 ▸ h.2 ▸ rfl⟩
  | literal value =>
    obtain ⟨otherValue, rfl⟩ := describes_of_shape same
    exact ⟨.literal otherValue, (Settles.value value otherValue).mono fun h => h ▸ rfl⟩
  | binary op ownLeft ownRight ihLeft ihRight =>
    obtain ⟨left, right, rfl, sameLeft, sameRight⟩ := describes_of_shape same
    obtain ⟨otherLeft, settlesLeft⟩ := ihLeft sameLeft
    obtain ⟨otherRight, settlesRight⟩ := ihRight sameRight
    exact ⟨.binary op otherLeft otherRight,
      (settlesLeft.append (settlesRight.cons (by rfl))).mono fun h => h.1 ▸ h.2 ▸ rfl⟩
  | unary op own ih =>
    obtain ⟨arg, rfl, sameArg⟩ := describes_of_shape same
    obtain ⟨otherOwn, settles⟩ := ih sameArg
    exact ⟨.unary op otherOwn, (settles.cons (by rfl)).mono fun h => h ▸ rfl⟩
  | nested own ih =>
    obtain ⟨inner, rfl, sameInner⟩ := describes_of_shape same
    obtain ⟨otherOwn, settles⟩ := ih sameInner
    exact ⟨.nested otherOwn, settles.paren.mono fun h => h ▸ rfl⟩
  | isNull negated own ih =>
    obtain ⟨arg, rfl, sameArg⟩ := describes_of_shape same
    obtain ⟨otherOwn, settles⟩ := ih sameArg
    exact ⟨.isNull negated otherOwn,
      (settles.append (.test negated .null)).mono fun h => h.1 ▸ rfl⟩
  | isTrue own ih =>
    obtain ⟨arg, rfl, sameArg⟩ := describes_of_shape same
    obtain ⟨otherOwn, settles⟩ := ih sameArg
    exact ⟨.isTrue otherOwn,
      (settles.append (.test false .true)).mono fun h => h.1 ▸ rfl⟩
  | isFalse own ih =>
    obtain ⟨arg, rfl, sameArg⟩ := describes_of_shape same
    obtain ⟨otherOwn, settles⟩ := ih sameArg
    exact ⟨.isFalse otherOwn,
      (settles.append (.test false .false)).mono fun h => h.1 ▸ rfl⟩
  | inList negated own ownItems ih ihItems =>
    obtain ⟨arg, items, rfl, sameArg, sameItems⟩ := describes_of_shape same
    obtain ⟨otherOwn, settles⟩ := ih sameArg
    obtain ⟨otherItems, settlesItems⟩ := Settles.list (fun item mem _ => ihItems item mem) sameItems
    have list := settlesItems.paren.cons (rfl : Slot.isIn.isValue = false)
    cases items with
    | nil => exact nomatch sameItems
    | cons otherFirst otherMore =>
      exact ⟨.inList negated otherOwn otherItems,
        (settles.append (.predicate negated list)).mono fun h => h.1 ▸ h.2 ▸ rfl⟩
  | between negated own ownLow ownHigh ih ihLow ihHigh =>
    obtain ⟨arg, low, high, rfl, sameArg, sameLow, sameHigh⟩ := describes_of_shape same
    obtain ⟨otherOwn, settles⟩ := ih sameArg
    obtain ⟨otherLow, settlesLow⟩ := ihLow sameLow
    obtain ⟨otherHigh, settlesHigh⟩ := ihHigh sameHigh
    have bounds := settlesLow.append (settlesHigh.cons (rfl : (Slot.binary .and).isValue = false))
    exact ⟨.between negated otherOwn otherLow otherHigh,
      (settles.append (.predicate negated (bounds.cons (by rfl)))).mono
        fun h => h.1 ▸ h.2.1 ▸ h.2.2 ▸ rfl⟩
  | like negated own ownPattern ih ihPattern =>
    obtain ⟨arg, pattern, rfl, sameArg, samePattern⟩ := describes_of_shape same
    obtain ⟨otherOwn, settles⟩ := ih sameArg
    obtain ⟨otherPattern, settlesPattern⟩ := ihPattern samePattern
    exact ⟨.like negated otherOwn otherPattern,
      (settles.append (.predicate negated (settlesPattern.cons (by rfl)))).mono
        fun h => h.1 ▸ h.2 ▸ rfl⟩

end SqlFootprint.Sql
