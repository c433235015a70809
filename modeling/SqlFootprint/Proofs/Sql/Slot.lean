import SqlFootprint.Filter.Restore
import Mathlib.Data.List.Chain

/-! # The places of a condition

The compact text of a condition is a row of places: names, values, operators, words and brackets,
each with the blanks that belong to it (`Slot`). The places of a condition follow each other by a
few rules (`Slot.Precedes`): an operand stands behind an operator, an operator behind an operand,
a part behind a period. -/

namespace SqlFootprint.Sql

/-- One place of a condition as it is written. -/
inductive Slot where
  /-- A name, or the first part of one. -/
  | name (id : Ident)
  /-- A part of a name, behind a period. -/
  | part (id : Ident)
  /-- A literal value. -/
  | value (literal : Literal)
  /-- An operator between two operands. -/
  | binary (op : BinaryOp)
  /-- An operator before its operand. -/
  | unary (op : UnaryOp)
  /-- The word `IS`. -/
  | is
  /-- The word `NOT` behind `IS`. -/
  | isNot
  /-- What `IS` tests for. -/
  | truth (truth : Truth)
  /-- The word `NOT` in front of a predicate. -/
  | not
  /-- The word `IN`. -/
  | isIn
  /-- The word `BETWEEN`. -/
  | between
  /-- The word `LIKE`. -/
  | like
  /-- A period between the parts of a name. -/
  | period
  /-- An opening parenthesis. -/
  | leftParen
  /-- A closing parenthesis. -/
  | rightParen
  /-- A comma between the items of a list. -/
  | comma
  deriving DecidableEq, Repr

namespace Slot

/-- The text of a place, with the blanks around a word. -/
def text : Slot → String
  | name id | part id => id.written
  | value literal => literal.compact
  | binary op => op.compact
  | unary op => op.written
  | is => " IS "
  | isNot => "NOT "
  | truth t => t.written
  | not => " NOT"
  | isIn => " IN "
  | between => " BETWEEN "
  | like => " LIKE "
  | period => "."
  | leftParen => "("
  | rightParen => ")"
  | comma => ","

/-- Whether an operand may start with a place. -/
def IsStart : Slot → Prop
  | name _ | value _ | unary _ | leftParen => True
  | _ => False

/-- Whether an operand may end with a place. -/
def IsEnd : Slot → Prop
  | name _ | part _ | value _ | truth _ | rightParen => True
  | _ => False

/-- Whether a place may stand behind an operand. -/
def IsBehind : Slot → Prop
  | binary _ | is | not | isIn | between | like | rightParen | comma => True
  | _ => False

/-- Whether a place may stand directly in front of another. -/
def Precedes : Slot → Slot → Prop
  | name _, y | part _, y => y.IsBehind ∨ y = period
  | value _, y | truth _, y | rightParen, y => y.IsBehind
  | period, y => ∃ id, y = part id
  | is, y => y = isNot ∨ ∃ t, y = truth t
  | isNot, y => ∃ t, y = truth t
  | not, y => y = isIn ∨ y = between ∨ y = like
  | isIn, y => y = leftParen
  | binary _, y | unary _, y | between, y | like, y | leftParen, y | comma, y => y.IsStart

instance : DecidablePred IsStart := fun slot => by
  cases slot <;> (unfold IsStart; infer_instance)

/-- What stands behind the end of an operand. -/
theorem IsEnd.precedes {x y : Slot} (ends : x.IsEnd) (behind : y.IsBehind) : x.Precedes y := by
  cases x <;> first | exact ends.elim | exact .inl behind | exact behind

end Slot

/-- The text of a row of places. -/
def rowText (slots : List Slot) : List Char := slots.flatMap fun slot => slot.text.toList

@[simp] theorem rowText_nil : rowText [] = [] := rfl

@[simp] theorem rowText_cons (slot : Slot) (slots : List Slot) :
    rowText (slot :: slots) = slot.text.toList ++ rowText slots := rfl

@[simp] theorem rowText_append (slots others : List Slot) :
    rowText (slots ++ others) = rowText slots ++ rowText others := List.flatMap_append

/-- The places of a name with its qualifiers. -/
def nameSlots : List Ident → List Slot
  | [] => []
  | first :: others => .name first :: others.flatMap fun id => [.period, .part id]

/-- The word `NOT` in front of a predicate, where it is negated. -/
def notSlots (negated : Bool) : List Slot := if negated then [.not] else []

mutual

/-- The places of an expression that has a compact text of its own; none for any other. -/
def Expr.slots : Expr → List Slot
  | .name id => nameSlots [id]
  | .dotted ids => nameSlots ids
  | .literal value => [.value value]
  | .binary left op right => left.slots ++ .binary op :: right.slots
  | .unary op arg => .unary op :: arg.slots
  | .nested inner => .leftParen :: (inner.slots ++ [.rightParen])
  | .isTest arg negated truth =>
    arg.slots ++ .is :: ((if negated then [.isNot] else []) ++ [.truth truth])
  | .inList arg negated items =>
    arg.slots ++ (notSlots negated ++ .isIn :: .leftParen :: (listSlots items ++ [.rightParen]))
  | .between arg negated low high =>
    arg.slots ++ (notSlots negated ++ .between :: (low.slots ++ .binary .and :: high.slots))
  | .like arg negated _ _ pattern _ =>
    arg.slots ++ (notSlots negated ++ .like :: pattern.slots)
  | _ => []
termination_by structural e => e

/-- The places of a list of expressions, with commas between them. -/
def listSlots : List Expr → List Slot
  | [] => []
  | e :: es => e.slots ++ (match es with | [] => [] | _ :: _ => [.comma]) ++ listSlots es
termination_by structural es => es

end

@[simp] theorem listSlots_singleton (e : Expr) : listSlots [e] = e.slots := by
  simp [listSlots]

@[simp] theorem listSlots_cons_cons (e f : Expr) (es : List Expr) :
    listSlots (e :: f :: es) = e.slots ++ .comma :: listSlots (f :: es) := by
  simp [listSlots]

theorem listSlots_cons (e : Expr) (es : List Expr) :
    listSlots (e :: es) = e.slots ++ es.flatMap fun item => .comma :: item.slots := by
  induction es generalizing e with
  | nil => simp
  | cons f es ih => rw [listSlots_cons_cons, ih, List.flatMap_cons, List.cons_append]

/-- An expression built only from what has a compact text of its own. -/
inductive Expr.IsOwn : Expr → Prop where
  /-- A name. -/
  | name (id : Ident) : IsOwn (.name id)
  /-- A name with qualifiers. -/
  | dotted (first : Ident) (others : List Ident) : IsOwn (.dotted (first :: others))
  /-- A value. -/
  | literal (value : Literal) : IsOwn (.literal value)
  /-- An operator between two operands. -/
  | binary {left right : Expr} (op : BinaryOp) (ownLeft : left.IsOwn) (ownRight : right.IsOwn) :
    IsOwn (.binary left op right)
  /-- An operator before its operand. -/
  | unary {arg : Expr} (op : UnaryOp) (own : arg.IsOwn) : IsOwn (.unary op arg)
  /-- Parentheses. -/
  | nested {inner : Expr} (own : inner.IsOwn) : IsOwn (.nested inner)
  /-- A test for absence. -/
  | isNull {arg : Expr} (negated : Bool) (own : arg.IsOwn) : IsOwn (.isTest arg negated .null)
  /-- A test for a truth value. -/
  | isTrue {arg : Expr} (own : arg.IsOwn) : IsOwn (.isTest arg false .true)
  /-- A test for the other truth value. -/
  | isFalse {arg : Expr} (own : arg.IsOwn) : IsOwn (.isTest arg false .false)
  /-- Membership in a list. -/
  | inList {arg first : Expr} {others : List Expr} (negated : Bool) (own : arg.IsOwn)
    (ownItems : ∀ item ∈ first :: others, item.IsOwn) :
    IsOwn (.inList arg negated (first :: others))
  /-- A test for an interval. -/
  | between {arg low high : Expr} (negated : Bool) (own : arg.IsOwn) (ownLow : low.IsOwn)
    (ownHigh : high.IsOwn) : IsOwn (.between arg negated low high)
  /-- A test for a pattern without an escape character. -/
  | like {arg pattern : Expr} (negated : Bool) (own : arg.IsOwn) (ownPattern : pattern.IsOwn) :
    IsOwn (.like arg negated .like false pattern none)

mutual

/-- Whether an expression is of that kind. -/
def Expr.isOwn : Expr → Bool
  | .name _ | .literal _ => true
  | .dotted ids => !ids.isEmpty
  | .binary left _ right => left.isOwn && right.isOwn
  | .unary _ arg | .nested arg => arg.isOwn
  | .isTest arg negated truth => arg.isOwn && (truth == .null || !negated && truth != .unknown)
  | .inList arg _ items => arg.isOwn && !items.isEmpty && allOwn items
  | .between arg _ low high => arg.isOwn && low.isOwn && high.isOwn
  | .like arg _ .like false pattern none => arg.isOwn && pattern.isOwn
  | _ => false
termination_by structural e => e

/-- Whether all of some expressions are. -/
def allOwn : List Expr → Bool
  | [] => true
  | e :: es => e.isOwn && allOwn es
termination_by structural es => es

end

theorem allOwn_eq (es : List Expr) : allOwn es = es.all Expr.isOwn := by
  induction es with
  | nil => rfl
  | cons e es ih => rw [allOwn, ih, List.all_cons]

theorem Expr.IsOwn.isOwn {e : Expr} (own : e.IsOwn) : e.isOwn = true := by
  induction own with
  | name | literal | dotted => rfl
  | inList negated _ _ ih ihItems =>
    rw [Expr.isOwn, allOwn_eq, List.all_eq_true.mpr ihItems, ih]
    rfl
  | binary _ _ _ ih ihRight => simp [Expr.isOwn, ih, ihRight]
  | unary _ _ ih | nested _ ih | isNull _ _ ih | isTrue _ ih | isFalse _ ih => simp [Expr.isOwn, ih]
  | between _ _ _ _ ih ihLow ihHigh => simp [Expr.isOwn, ih, ihLow, ihHigh]
  | like _ _ _ ih ihPattern => simp [Expr.isOwn, ih, ihPattern]

mutual

theorem Expr.isOwn_sound : ∀ e : Expr, e.isOwn = true → e.IsOwn
  | .name id, _ => .name id
  | .literal value, _ => .literal value
  | .dotted (first :: others), _ => .dotted first others
  | .binary left op right, h => by
    rw [Expr.isOwn, Bool.and_eq_true] at h
    exact .binary op (left.isOwn_sound h.1) (right.isOwn_sound h.2)
  | .unary op arg, h => .unary op (arg.isOwn_sound h)
  | .nested arg, h => .nested (arg.isOwn_sound h)
  | .isTest arg negated truth, h => by
    rw [Expr.isOwn, Bool.and_eq_true] at h
    have own := arg.isOwn_sound h.1
    cases truth with
    | null => exact .isNull negated own
    | true => cases negated <;> first | exact .isTrue own | nomatch h.2
    | false => cases negated <;> first | exact .isFalse own | nomatch h.2
    | unknown => cases negated <;> nomatch h.2
  | .inList _ _ [], h => by simp [Expr.isOwn] at h
  | .inList arg negated (first :: others), h => by
    rw [Expr.isOwn, Bool.and_eq_true, Bool.and_eq_true] at h
    exact .inList negated (arg.isOwn_sound h.1.1) (allOwn_sound (first :: others) h.2)
  | .between arg negated low high, h => by
    rw [Expr.isOwn, Bool.and_eq_true, Bool.and_eq_true] at h
    exact .between negated (arg.isOwn_sound h.1.1) (low.isOwn_sound h.1.2) (high.isOwn_sound h.2)
  | .like arg negated .like false pattern none, h => by
    rw [Expr.isOwn, Bool.and_eq_true] at h
    exact .like negated (arg.isOwn_sound h.1) (pattern.isOwn_sound h.2)
termination_by structural e => e

theorem allOwn_sound : ∀ es : List Expr, allOwn es = true → ∀ e ∈ es, e.IsOwn
  | [], _ => nofun
  | e :: es, h => by
    rw [allOwn, Bool.and_eq_true] at h
    exact List.forall_mem_cons.mpr ⟨e.isOwn_sound h.1, allOwn_sound es h.2⟩
termination_by structural es => es

end

instance : DecidablePred Expr.IsOwn := fun e =>
  decidable_of_iff (e.isOwn = true) ⟨e.isOwn_sound, Expr.IsOwn.isOwn⟩

/-! ## The compact text -/

/-- The names of a qualified name with periods between them. -/
theorem toList_written_objectName (first : Ident) (others : List Ident) :
    (ObjectName.written (first :: others)).toList = rowText (nameSlots (first :: others)) := by
  induction others generalizing first with
  | nil => simp [nameSlots, Slot.text]
  | cons second others ih =>
    have tail := ih second
    simp only [ObjectName.written, nameSlots, List.map_cons, List.flatMap_cons, rowText_cons,
      String.intercalate_cons_cons, String.toList_append, Slot.text] at tail ⊢
    rw [tail]
    simp [Slot.text]

/-- The text of a list of expressions, given the texts of its items. -/
theorem compactItems_eq {items : List Expr}
    (each : ∀ item ∈ items, item.compact = .ok (String.ofList (rowText item.slots))) :
    ∃ texts, compactItems items = .ok texts ∧
      (",".intercalate texts).toList = rowText (listSlots items) := by
  induction items with
  | nil => exact ⟨[], rfl, rfl⟩
  | cons first others ih =>
    obtain ⟨texts, found, joined⟩ := ih fun item mem => each item (List.mem_cons_of_mem _ mem)
    refine ⟨String.ofList (rowText first.slots) :: texts, ?_, ?_⟩
    · simp only [compactItems, each first List.mem_cons_self, found]
      rfl
    · cases others with
      | nil =>
        obtain rfl : [] = texts := by simpa [compactItems, pure, Except.pure] using found
        simp [listSlots]
      | cons second more =>
        obtain ⟨text, rest, rfl⟩ : ∃ text rest, texts = text :: rest := by
          cases texts with
          | nil => simp [compactItems, each second, pure, Except.pure, bind, Except.bind] at found
                   split at found <;> simp at found
          | cons text rest => exact ⟨text, rest, rfl⟩
        rw [String.intercalate_cons_cons, String.toList_append, String.toList_append, joined]
        simp [listSlots, Slot.text]

/-- An expression of that kind has the text of its places as its compact text. -/
theorem Expr.IsOwn.compact_eq {e : Expr} (own : e.IsOwn) :
    e.compact = .ok (String.ofList (rowText e.slots)) := by
  induction own with
  | name id =>
    have plain : (Expr.name id).compact = .ok id.written := rfl
    simp [plain, Expr.slots, nameSlots, Slot.text]
  | dotted first others =>
    have plain : (Expr.dotted (first :: others)).compact =
      .ok (ObjectName.written (first :: others)) := rfl
    simp [plain, Expr.slots, ← toList_written_objectName]
  | literal value => simp [Expr.compact, Expr.slots, Slot.text]
  | binary op ownLeft ownRight ihLeft ihRight =>
    rw [Expr.compact, ihLeft, ihRight]
    simp [Expr.slots, Slot.text, bind, Except.bind, pure, Except.pure, ← String.toList_inj]
  | unary op own ih =>
    rw [Expr.compact, ih]
    simp [Expr.slots, Slot.text, bind, Except.bind, pure, Except.pure]
  | nested own ih =>
    rw [Expr.compact, ih]
    simp [Expr.slots, Slot.text, bind, Except.bind, pure, Except.pure, ← String.toList_inj]
  | isNull negated own ih =>
    rw [Expr.compact, ih]
    cases negated <;>
      simp [Expr.slots, Slot.text, bind, Except.bind, pure, Except.pure, ← String.toList_inj,
        notWord, Truth.written]
  | isTrue own ih =>
    rw [Expr.compact, ih]
    simp [Expr.slots, Slot.text, bind, Except.bind, pure, Except.pure, Truth.written]
  | isFalse own ih =>
    rw [Expr.compact, ih]
    simp [Expr.slots, Slot.text, bind, Except.bind, pure, Except.pure, Truth.written]
  | inList negated own ownItems ih ihItems =>
    obtain ⟨texts, found, joined⟩ := compactItems_eq ihItems
    rw [Expr.compact, ih, found]
    cases negated <;>
      simp [Expr.slots, Slot.text, bind, Except.bind, pure, Except.pure, ← String.toList_inj,
        notWord, notSlots, joined]
  | between negated own ownLow ownHigh ih ihLow ihHigh =>
    rw [Expr.compact, ih, ihLow, ihHigh]
    cases negated <;>
      simp [Expr.slots, Slot.text, bind, Except.bind, pure, Except.pure, ← String.toList_inj,
        notWord, notSlots, BinaryOp.compact]
  | like negated own ownPattern ih ihPattern =>
    rw [Expr.compact, ih, ihPattern]
    cases negated <;>
      simp [Expr.slots, Slot.text, bind, Except.bind, pure, Except.pure, ← String.toList_inj,
        notWord, notSlots]

/-! ## The order of the places -/

namespace Slot

/-- A row of places in their order, from the start of an operand to the end of one. -/
structure IsPhrase (slots : List Slot) : Prop where
  /-- Each place may stand in front of the next. -/
  chain : slots.IsChain Precedes
  /-- The first place starts an operand. -/
  starts : ∃ y ∈ slots.head?, y.IsStart
  /-- The last place ends one. -/
  ends : ∃ y ∈ slots.getLast?, y.IsEnd

namespace IsPhrase

variable {x : Slot} {slots more : List Slot}

theorem singleton (starts : x.IsStart) (ends : x.IsEnd) : IsPhrase [x] :=
  ⟨List.isChain_singleton x, ⟨x, rfl, starts⟩, ⟨x, rfl, ends⟩⟩

theorem chain_cons (front : ∀ y : Slot, y.IsStart → x.Precedes y) (phrase : IsPhrase slots) :
    (x :: slots).IsChain Precedes := by
  obtain ⟨first, head, starts⟩ := phrase.starts
  refine List.isChain_cons.mpr ⟨fun y mem => ?_, phrase.chain⟩
  rw [Option.mem_unique mem head]
  exact front _ starts

theorem getLast?_cons (phrase : IsPhrase slots) : ∃ y ∈ (x :: slots).getLast?, y.IsEnd := by
  obtain ⟨last, mem, ends⟩ := phrase.ends
  exact ⟨last, by rw [List.getLast?_cons, Option.mem_def.mp mem]; rfl, ends⟩

/-- A place in front of an operand. -/
theorem cons (starts : x.IsStart) (front : ∀ y : Slot, y.IsStart → x.Precedes y)
    (phrase : IsPhrase slots) : IsPhrase (x :: slots) :=
  ⟨phrase.chain_cons front, ⟨x, rfl, starts⟩, phrase.getLast?_cons⟩

/-- Places behind an operand. -/
theorem append (phrase : IsPhrase slots) (chain : more.IsChain Precedes)
    (behind : ∃ y ∈ more.head?, y.IsBehind) (ends : ∃ y ∈ more.getLast?, y.IsEnd) :
    IsPhrase (slots ++ more) := by
  obtain ⟨first, head, starts⟩ := phrase.starts
  obtain ⟨last, mem, ended⟩ := phrase.ends
  obtain ⟨next, headMore, nextBehind⟩ := behind
  obtain ⟨final, memMore, finalEnds⟩ := ends
  refine ⟨List.isChain_append.mpr ⟨phrase.chain, chain, fun x memX y memY => ?_⟩,
    ⟨first, ?_, starts⟩, ⟨final, ?_, finalEnds⟩⟩
  · rw [Option.mem_unique memX mem, Option.mem_unique memY headMore]
    exact ended.precedes nextBehind
  · rw [List.head?_append, Option.mem_def.mp head]
    rfl
  · rw [List.getLast?_append, Option.mem_def.mp memMore]
    rfl

/-- Two operands with a place between them. -/
theorem join (phrase : IsPhrase slots) (behind : x.IsBehind)
    (front : ∀ y : Slot, y.IsStart → x.Precedes y) (right : IsPhrase more) :
    IsPhrase (slots ++ x :: more) :=
  phrase.append (right.chain_cons front) ⟨x, rfl, behind⟩ right.getLast?_cons

/-- A predicate, which may be negated, behind an operand. -/
theorem appendNot (phrase : IsPhrase slots) (negated : Bool) (behind : x.IsBehind)
    (negates : Slot.not.Precedes x) (chain : (x :: more).IsChain Precedes)
    (ends : ∃ y ∈ (x :: more).getLast?, y.IsEnd) :
    IsPhrase (slots ++ (notSlots negated ++ x :: more)) := by
  cases negated with
  | false => exact phrase.append chain ⟨x, rfl, behind⟩ ends
  | true =>
    obtain ⟨last, mem, ended⟩ := ends
    refine phrase.append (List.isChain_cons_cons.mpr ⟨negates, chain⟩) ⟨.not, rfl, trivial⟩
      ⟨last, ?_, ended⟩
    simpa [notSlots, List.getLast?_cons] using mem

/-- An operand in parentheses. -/
theorem paren (phrase : IsPhrase slots) : IsPhrase (.leftParen :: (slots ++ [.rightParen])) :=
  (phrase.append (List.isChain_singleton _) ⟨.rightParen, rfl, trivial⟩
    ⟨.rightParen, rfl, trivial⟩).cons trivial fun _ starts => starts

/-- The places of a name. -/
theorem nameSlots (first : Ident) (others : List Ident) :
    IsPhrase (nameSlots (first :: others)) := by
  have parts : ∀ x : Slot, x.Precedes .period → x.IsEnd →
      (x :: others.flatMap fun id => [.period, .part id]).IsChain Precedes ∧
        ∃ y ∈ (x :: others.flatMap fun id => [.period, .part id]).getLast?, y.IsEnd := by
    induction others with
    | nil => exact fun x _ ends => ⟨List.isChain_singleton _, x, rfl, ends⟩
    | cons second others ih =>
      intro x front _
      obtain ⟨chain, last, mem, ends⟩ := ih (.part second) (.inr rfl) trivial
      refine ⟨List.isChain_cons_cons.mpr ⟨front, List.isChain_cons_cons.mpr ⟨⟨_, rfl⟩, chain⟩⟩,
        last, ?_, ends⟩
      simpa [List.getLast?_cons] using mem
  obtain ⟨chain, ends⟩ := parts (.name first) (.inr rfl) trivial
  exact ⟨chain, ⟨.name first, rfl, trivial⟩, ends⟩

/-- The places of a list of expressions. -/
theorem listSlots {first : Expr} {others : List Expr}
    (each : ∀ item ∈ first :: others, IsPhrase item.slots) :
    IsPhrase (listSlots (first :: others)) := by
  induction others generalizing first with
  | nil => simpa using each first List.mem_cons_self
  | cons second others ih =>
    have tail := ih fun item mem => each item (List.mem_cons_of_mem _ mem)
    rw [listSlots_cons_cons]
    exact (each first List.mem_cons_self).join trivial (fun _ starts => starts) tail

end IsPhrase

end Slot

/-- The places of an expression follow each other in their order. -/
theorem Expr.IsOwn.isPhrase {e : Expr} (own : e.IsOwn) : Slot.IsPhrase e.slots := by
  have truthEnd : ∀ (negated : Bool) (truth : Truth),
      (Slot.is :: ((if negated then [.isNot] else []) ++ [.truth truth])).IsChain
        Slot.Precedes ∧
      ∃ y ∈ (Slot.is :: ((if negated then [.isNot] else []) ++ [.truth truth])).getLast?,
        y.IsEnd := by
    intro negated truth
    cases negated <;> simp [Slot.Precedes, Slot.IsEnd]
  have test {arg : Expr} (negated : Bool) (truth : Truth) (phrase : Slot.IsPhrase arg.slots) :
      Slot.IsPhrase (Expr.isTest arg negated truth).slots :=
    phrase.append (truthEnd negated truth).1 ⟨.is, rfl, trivial⟩ (truthEnd negated truth).2
  induction own with
  | name id => exact .nameSlots id []
  | dotted first others => exact .nameSlots first others
  | literal value => exact .singleton trivial trivial
  | binary op ownLeft ownRight ihLeft ihRight =>
    exact ihLeft.join trivial (fun _ starts => starts) ihRight
  | unary op own ih => exact ih.cons trivial fun _ starts => starts
  | nested own ih => exact ih.paren
  | isNull negated own ih => exact test negated .null ih
  | isTrue own ih => exact test false .true ih
  | isFalse own ih => exact test false .false ih
  | inList negated own ownItems ih ihItems =>
    have list := (Slot.IsPhrase.listSlots ihItems).paren
    exact ih.appendNot negated trivial (.inl rfl) (List.isChain_cons_cons.mpr ⟨rfl, list.chain⟩)
      list.getLast?_cons
  | between negated own ownLow ownHigh ih ihLow ihHigh =>
    have bounds := ihLow.join (show (Slot.binary .and).IsBehind from trivial)
      (fun _ starts => starts) ihHigh
    exact ih.appendNot negated trivial (.inr (.inl rfl))
      (bounds.chain_cons fun _ starts => starts) bounds.getLast?_cons
  | like negated own ownPattern ih ihPattern =>
    exact ih.appendNot negated trivial (.inr (.inr rfl))
      (ihPattern.chain_cons fun _ starts => starts) ihPattern.getLast?_cons

end SqlFootprint.Sql
