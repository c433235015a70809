import Mathlib.Data.List.Infix
import SqlFootprint.Proofs.Filter.Provenance
import SqlFootprint.Proofs.Filter.TreePieces
import SqlFootprint.Proofs.Footprint.Blocks

/-! # Which table a column is qualified with

A qualifier in front of a column, with the period behind it, is a fixed point of the text of a
condition: no pass reads across it but the one that writes a table for it (`carries_of_dropped`). So
the filter of a query holds the text of the condition of its first block with every qualifier in its
place, and each is written as the table of the last source that bears it, over all blocks of the
query (`carries_filter`). The blocks that stand around the column have no say in it
(`not_isScoped_reusedAlias`). -/

namespace SqlFootprint.Filter

open Text Sql

/-! ## Character sets in front of a qualifier -/

namespace Dropped

variable {cs ds : List Char}

/-- Without a quote nothing is dropped. -/
theorem eq_of_notMem (h : Dropped cs ds) (hq : '\x27' ∉ cs) : ds = cs := by
  induction h with
  | nil => rfl
  | keep c _ ih => rw [ih fun m => hq (List.mem_cons_of_mem c m)]
  | drop => exact absurd (by simp) hq

/-- Something is left of something. -/
theorem eq_nil (h : Dropped cs []) : cs = [] := by
  cases h with
  | nil => rfl
  | drop _ _ h => cases h

/-- Behind the last quote nothing is dropped. -/
theorem exists_of_append {before tail : List Char} (h : Dropped (before ++ tail) ds)
    (hq : '\x27' ∉ tail) : ∃ b, ds = b ++ tail ∧ Dropped before b := by
  generalize eq : before ++ tail = text at h
  induction h generalizing before with
  | nil =>
    obtain ⟨rfl, rfl⟩ := List.append_eq_nil_iff.mp eq
    exact ⟨[], rfl, .nil⟩
  | @keep c cs ds h ih =>
    cases before with
    | nil =>
      have whole := (h.keep c).eq_of_notMem (eq ▸ hq)
      exact ⟨[], whole.trans eq.symm, .nil⟩
    | cons b bs =>
      obtain ⟨rfl, later⟩ := List.cons.inj eq
      obtain ⟨kept, rfl, hkept⟩ := ih later
      exact ⟨b :: kept, rfl, hkept.keep b⟩
  | @drop name gap cs ds hname hgap h ih =>
    -- the quote behind the character set stands in front of the tail
    rw [← List.cons_append] at eq
    rcases List.append_eq_append_iff.mp eq with ⟨more, -, back⟩ | ⟨more, front, back⟩
    · exact absurd (back ▸ List.mem_append_right more List.mem_cons_self) hq
    · obtain ⟨kept, rfl, hkept⟩ := ih back.symm
      cases more with
      | nil =>
        rw [List.nil_append] at back
        exact absurd (back ▸ List.mem_cons_self) hq
      | cons c more =>
        obtain ⟨rfl, -⟩ := List.cons.inj back
        refine ⟨kept, rfl, ?_⟩
        rw [front, List.cons_append]
        exact .drop hname hgap hkept

/-- A period parts the text. -/
theorem exists_of_append_period {before after : List Char}
    (h : Dropped (before ++ '.' :: after) ds) :
    ∃ b a, ds = b ++ '.' :: a ∧ Dropped before b ∧ Dropped after a := by
  generalize eq : before ++ '.' :: after = text at h
  induction h generalizing before with
  | nil => simp at eq
  | @keep c cs ds h ih =>
    cases before with
    | nil =>
      obtain ⟨rfl, rfl⟩ := List.cons.inj eq
      exact ⟨[], ds, rfl, .nil, h⟩
    | cons b bs =>
      obtain ⟨rfl, later⟩ := List.cons.inj eq
      obtain ⟨kept, rest, rfl, hkept, hrest⟩ := ih later
      exact ⟨b :: kept, rest, rfl, hkept.keep b, hrest⟩
  | @drop name gap cs ds hname hgap h ih =>
    -- neither the character set nor the blanks hold a period
    rw [← List.cons_append] at eq
    rcases List.append_eq_append_iff.mp eq with ⟨more, front, back⟩ | ⟨more, front, back⟩
    · cases more with
      | nil => cases back
      | cons c more =>
        obtain ⟨rfl, -⟩ := List.cons.inj back
        have period : '.' ∈ '_' :: (name ++ gap) := by simp [front]
        rcases List.mem_cons.mp period with eq | m
        · cases eq
        · rcases List.mem_append.mp m with m | m
          · exact absurd (hname _ m) (by decide)
          · exact absurd (hgap _ m) (by decide)
    · obtain ⟨kept, rest, rfl, hkept, hrest⟩ := ih back.symm
      cases more with
      | nil => cases back
      | cons c more =>
        obtain ⟨rfl, -⟩ := List.cons.inj back
        refine ⟨kept, rest, rfl, ?_, hrest⟩
        rw [front, List.cons_append]
        exact .drop hname hgap hkept

end Dropped

/-! ## The word between conditions around a table -/

/-- Whether the last pass leaves a name alone, also behind a blank: the word between conditions does
not stand in it, with a blank behind it and one in front or nothing. -/
def keepsCase (name : String) : Bool := !occursIn " AND ".toList (' ' :: name.toList)

/-- Whether a qualifier may begin behind a text: it is empty or ends with a gap. -/
def isOpen (cs : List Char) : Bool := cs.getLast?.all isGap

/-- The end of an open text is open. -/
theorem isOpen_drop {cs : List Char} (h : isOpen cs = true) (n : Nat) :
    isOpen (cs.drop n) = true := by
  unfold isOpen at h ⊢
  rw [List.getLast?_drop]
  split
  · rfl
  · exact h

/-- In front of a name that is left alone, the word stands where it stands without the name. -/
theorem isPrefixOf_and_append {front : List Char} (hfront : isOpen front = true)
    (hne : front ≠ []) {name : String} (hname : keepsCase name = true) :
    " AND ".toList.isPrefixOf (front ++ name.toList) = " AND ".toList.isPrefixOf front := by
  -- of the beginnings of the word, only a blank and the whole word are open
  have beginnings : ∀ start ∈ " AND ".toList.inits, isOpen start = true →
      start = [] ∨ start = [' '] ∨ start = " AND ".toList := by
    decide
  rw [Bool.eq_iff_iff, List.isPrefixOf_iff_prefix, List.isPrefixOf_iff_prefix]
  refine ⟨fun h => ?_, fun h => h.trans (List.prefix_append _ _)⟩
  rcases List.prefix_or_prefix_of_prefix h (List.prefix_append front _) with whole | start
  · exact whole
  · rcases beginnings front ((List.mem_inits _ _).mpr start) hfront with rfl | rfl | rfl
    · exact absurd rfl hne
    · -- behind a single blank the name itself would begin with the word
      have inside : occursIn " AND ".toList (' ' :: name.toList) = true :=
        occursIn_iff.mpr h.isInfix
      rw [keepsCase, inside] at hname
      cases hname
    · exact List.prefix_refl _

/-- The last pass treats a name that it leaves alone and an open text in front of it one by one. -/
theorem lowerWord_append {front : List Char} (hfront : isOpen front = true) {name : String}
    (hname : keepsCase name = true) :
    lowerWord (front ++ name.toList) = lowerWord front ++ name.toList := by
  -- a word in lower case takes away several characters at once, so the induction is on the length
  induction size : front.length using Nat.strongRecOn generalizing front with
  | ind size ih =>
    subst size
    cases front with
    | nil =>
      have inside : occursIn " AND ".toList name.toList = false := by
        rw [keepsCase, occursIn, Bool.not_eq_true', Bool.or_eq_false_iff] at hname
        exact hname.2
      exact replaceFrom_of_not_occursIn _ inside
    | cons c cs =>
      have rest (n : Nat) : isOpen (cs.drop n) = true := isOpen_drop hfront (n + 1)
      have same := isPrefixOf_and_append hfront (List.cons_ne_nil c cs) hname
      unfold lowerWord at ih ⊢
      rw [List.cons_append] at same ⊢
      rw [replaceFrom, replaceFrom, same]
      split
      · next found =>
        have fits : " AND ".toList.length ≤ (c :: cs).length :=
          (List.isPrefixOf_iff_prefix.mp found).length_le
        have fits : " AND ".toList.length - 1 ≤ cs.length := by
          rw [List.length_cons] at fits
          omega
        have shorter : (cs.drop (" AND ".toList.length - 1)).length < (c :: cs).length := by
          rw [List.length_drop, List.length_cons]
          omega
        rw [replaceFrom_skip, List.drop_append_of_le_length fits, ih _ shorter (rest _) rfl,
          replaceFrom_skip _ _ _ cs, List.append_assoc]
      · have tail : isOpen cs = true := rest 0
        rw [ih _ (by simp) tail rfl, List.cons_append]

/-! ## One qualifier -/

/-- An open text is empty or ends with a gap. -/
theorem exists_of_isOpen {cs : List Char} (h : isOpen cs = true) :
    cs = [] ∨ ∃ front gap, cs = front ++ [gap] ∧ isGap gap = true := by
  rcases List.eq_nil_or_concat' cs with rfl | ⟨front, gap, rfl⟩
  · exact Or.inl rfl
  · exact Or.inr ⟨front, gap, rfl, by simpa [isOpen] using h⟩

/-- What ends with a gap is open. -/
theorem isOpen_append_gap (front : List Char) {gap : Char} (h : isGap gap = true) :
    isOpen (front ++ [gap]) = true := by
  simpa [isOpen] using h

/-- Where a qualifier may begin, the text in front is open without its marks, too. -/
theorem isOpen_dropMarks {fresh : Bool} {front : String} (h : opens fresh front = true) :
    isOpen (dropMarks front.toList) = true ∧ (dropMarks front.toList = [] → fresh = true) := by
  unfold opens at h
  rcases List.eq_nil_or_concat' front.toList with empty | ⟨before, gap, eq⟩
  · rw [empty] at h ⊢
    exact ⟨rfl, fun _ => h⟩
  · rw [eq, List.getLast?_concat] at h
    have mark : '\x60' ∉ [gap] := by
      rw [List.mem_singleton]
      exact (ne_of_isQuietChar ((Bool.and_eq_true _ _).mp h).2).2.1.symm
    rw [eq, dropMarks_append, dropMarks_of_notMem mark]
    exact ⟨isOpen_append_gap _ h, fun empty => absurd empty (by simp)⟩

/-- An open text stays open without some of its character sets. -/
theorem Dropped.isOpen {cs ds : List Char} (h : Dropped cs ds) (hcs : isOpen cs = true) :
    Filter.isOpen ds = true := by
  rcases exists_of_isOpen hcs with rfl | ⟨front, gap, rfl, hgap⟩
  · rw [h.eq_of_notMem List.not_mem_nil]
    rfl
  · have noQuote : '\x27' ∉ [gap] := by
      rw [List.mem_singleton]
      exact (ne_of_isQuietChar ((Bool.and_eq_true _ _).mp hgap).2).2.2.symm
    obtain ⟨kept, rfl, -⟩ := h.exists_of_append noQuote
    exact isOpen_append_gap kept hgap

section

variable {aliases : Aliases} (plain : PlainAliases aliases)

include plain

/-- A gap parts the text for plain second names. -/
theorem substituteFrom_append_gap (fresh : Bool) (front : List Char) {gap : Char}
    (hgap : isGap gap = true) (body : List Char) :
    substituteFrom aliases 0 fresh (front ++ gap :: body) =
      substituteFrom aliases 0 fresh front ++ gap :: substituteFrom aliases 0 true body := by
  obtain ⟨boundary, quiet⟩ := (Bool.and_eq_true _ _).mp hgap
  exact substituteFrom_append_cons (plain.separates boundary (ne_of_isQuietChar quiet).1) ..

/-- An open text stays open with tables for second names. -/
theorem isOpen_substituteFrom {front : List Char} (hfront : isOpen front = true) (fresh : Bool) :
    isOpen (substituteFrom aliases 0 fresh front) = true := by
  rcases exists_of_isOpen hfront with rfl | ⟨front, gap, rfl, hgap⟩
  · rw [substituteFrom_nil]
    rfl
  · rw [substituteFrom_append_gap plain fresh front hgap, substituteFrom_nil]
    exact isOpen_append_gap _ hgap

/-- Behind an open text a word in front of a period is written as its table. -/
theorem substituteFrom_open {front : List Char} {fresh : Bool} (hfront : isOpen front = true)
    (hfresh : front = [] → fresh = true) {w : String} (hw : isPlainWord w = true)
    (body : List Char) :
    substituteFrom aliases 0 fresh (front ++ (w.toList ++ '.' :: body)) =
      substituteFrom aliases 0 fresh front ++ (((aliases.table? w).getD w).toList ++
        '.' :: substituteFrom aliases 0 (aliases.table? w).isNone body) := by
  rcases exists_of_isOpen hfront with rfl | ⟨front, gap, rfl, hgap⟩
  · rw [hfresh rfl, List.nil_append, substituteFrom_front plain hw, substituteFrom_nil,
      List.nil_append]
  · rw [List.append_assoc, List.singleton_append, substituteFrom_append_gap plain fresh front hgap,
      substituteFrom_append_gap plain fresh front hgap, substituteFrom_front plain hw,
      substituteFrom_nil, List.append_assoc, List.singleton_append]

end

/-- A plain word is left alone by the last pass. -/
theorem keepsCase_of_isPlainWord {w : String} (hw : isPlainWord w = true) : keepsCase w = true := by
  have blank : ' ' ∉ w.toList := notMem_of_isPlainWord hw (by decide)
  rw [keepsCase, Bool.not_eq_true', Bool.eq_false_iff, ne_eq, occursIn_iff]
  rintro ⟨before, after, eq⟩
  -- the word has two blanks, and there is one in front of the name only
  have blanks := congrArg (List.count ' ') eq
  rw [List.count_append, List.count_append, List.count_cons_self, List.count_eq_zero.mpr blank,
    show List.count ' ' " AND ".toList = 2 from rfl] at blanks
  omega

/-- Behind an open text all passes but the first two write a word in front of a period as its table,
and treat what stands in front and behind one by one. -/
theorem lowerWord_substituteFrom {aliases : Aliases} (plain : PlainAliases aliases)
    (tables : ∀ pair ∈ aliases, keepsCase pair.2 = true) {front : List Char} {fresh : Bool}
    (hfront : isOpen front = true) (hfresh : front = [] → fresh = true) {w : String}
    (hw : isPlainWord w = true) (body : List Char) :
    lowerWord (substituteFrom aliases 0 fresh (front ++ (w.toList ++ '.' :: body))) =
      lowerWord (substituteFrom aliases 0 fresh front) ++ (((aliases.table? w).getD w).toList ++
        '.' :: lowerWord (substituteFrom aliases 0 (aliases.table? w).isNone body)) := by
  have name : keepsCase ((aliases.table? w).getD w) = true := by
    cases found : aliases.table? w with
    | none => exact keepsCase_of_isPlainWord hw
    | some table => exact tables (w, table) (mem_of_table? found)
  rw [substituteFrom_open plain hfront hfresh hw, ← List.append_assoc]
  unfold lowerWord
  rw [replaceFrom_append_cons (by decide) _ (by decide)]
  have front := lowerWord_append (isOpen_substituteFrom plain hfront fresh) name
  unfold lowerWord at front
  rw [front, List.append_assoc]

/-! ## All qualifiers -/

/-- What the passes make of a text that is no qualifier, wherever it stands: without the marks
around names and some of its character sets, with tables for the second names in it, and with the
word between conditions in lower case. -/
def Passed (aliases : Aliases) (before after : List Char) : Prop :=
  ∃ fresh kept, Dropped (dropMarks before) kept ∧
    after = lowerWord (substituteFrom aliases 0 fresh kept)

/-- Whether a filter carries pieces behind a text: every qualifier stands in its place as the table
that it is given, and between them stands what the passes make of the text between them. -/
def Carries (aliases : Aliases) (tableOf : Reference → String) :
    (front : String) → List Piece → List Char → Prop
  | front, [], filter => Passed aliases front.toList filter
  | front, .text s :: pieces, filter => Carries aliases tableOf (front ++ s) pieces filter
  | front, .qualifier reference :: pieces, filter =>
    ∃ before after, filter = before ++ ((tableOf reference).toList ++ '.' :: after) ∧
      Passed aliases front.toList before ∧ Carries aliases tableOf "" pieces after

/-- The references among pieces. -/
def references : List Piece → List Reference
  | [] => []
  | .text _ :: pieces => references pieces
  | .qualifier reference :: pieces => reference :: references pieces

section

variable {aliases : Aliases} {tableOf tableOf' : Reference → String}

/-- Only the tables of the references matter. -/
theorem Carries.congr {front : String} {pieces : List Piece} {filter : List Char}
    (h : Carries aliases tableOf front pieces filter)
    (same : ∀ reference ∈ references pieces, tableOf' reference = tableOf reference) :
    Carries aliases tableOf' front pieces filter := by
  induction pieces generalizing front filter with
  | nil => exact h
  | cons piece pieces ih =>
    cases piece with
    | text s => exact ih h same
    | qualifier reference =>
      obtain ⟨before, after, rfl, passed, later⟩ := h
      refine ⟨before, after, ?_, passed, ih later fun other m =>
        same other (List.mem_cons_of_mem _ m)⟩
      rw [same reference List.mem_cons_self]

/-- Every reference stands in the filter with its table. -/
theorem Carries.isInfix {front : String} {pieces : List Piece} {filter : List Char}
    (h : Carries aliases tableOf front pieces filter) {reference : Reference}
    (m : reference ∈ references pieces) : (tableOf reference).toList ++ ['.'] <:+: filter := by
  induction pieces generalizing front filter with
  | nil => cases m
  | cons piece pieces ih =>
    cases piece with
    | text s => exact ih h m
    | qualifier first =>
      obtain ⟨before, after, rfl, -, later⟩ := h
      rcases List.mem_cons.mp m with rfl | m
      · exact ⟨before, after, by simp⟩
      · have inside := ih later m
        exact inside.trans ((List.suffix_cons '.' after).trans
          ((List.suffix_append _ _).trans (List.suffix_append _ _))).isInfix

end

/-- The table that second names give to a reference; its own name if they do not know it. -/
def Reference.tableIn (reference : Reference) (aliases : Aliases) : String :=
  (aliases.table? reference.qualifier.value).getD reference.qualifier.value

/-- The passes carry pieces, and write every qualifier as the table that the second names give it.
-/
theorem carries_of_dropped {aliases : Aliases} (plain : PlainAliases aliases)
    (tables : ∀ pair ∈ aliases, keepsCase pair.2 = true) {front : String} {pieces : List Piece}
    {fresh : Bool} (hplaced : placed (opens fresh front) pieces = true) {kept : List Char}
    (hkept : Dropped (dropMarks (front ++ spell pieces).toList) kept) :
    Carries aliases (·.tableIn aliases) front pieces
      (lowerWord (substituteFrom aliases 0 fresh kept)) := by
  -- along the pieces, with the text since the last qualifier in front of them
  induction pieces generalizing front fresh kept with
  | nil =>
    rw [spell, String.append_empty] at hkept
    exact ⟨fresh, kept, hkept, rfl⟩
  | cons piece pieces ih =>
    cases piece with
    | text s =>
      refine ih ?_ ?_
      · rwa [opens_append]
      · rwa [String.append_assoc]
    | qualifier reference =>
      obtain ⟨opened, later⟩ := (Bool.and_eq_true _ _).mp hplaced
      obtain ⟨hopen, hfresh⟩ := isOpen_dropMarks opened
      obtain ⟨word, -⟩ := written_of_isPlain reference.plain
      -- the marks around the qualifier are dropped, and nothing else of it
      have parts : dropMarks (front ++ spell (.qualifier reference :: pieces)).toList =
          dropMarks front.toList ++ reference.qualifier.value.toList ++
            '.' :: dropMarks (spell pieces).toList := by
        have period (cs : List Char) : dropMarks ('.' :: cs) = '.' :: dropMarks cs := rfl
        rw [spell_cons, Piece.written]
        simp only [String.toList_append, dropMarks_append, dropMarks_written reference.plain,
          List.append_assoc]
        rfl
      rw [parts] at hkept
      obtain ⟨whole, after, rfl, hwhole, hafter⟩ := hkept.exists_of_append_period
      obtain ⟨before, rfl, hbefore⟩ := hwhole.exists_of_append
        (notMem_of_isPlainWord word (by decide))
      rw [List.append_assoc, lowerWord_substituteFrom plain tables (hbefore.isOpen hopen)
        (fun empty => hfresh (empty ▸ hbefore).eq_nil) word]
      refine ⟨_, _, rfl, ⟨fresh, before, hbefore, rfl⟩, ih (placed_of_false later _) ?_⟩
      rwa [String.empty_append]

/-! ## The filter of a query -/

/-- The table of the last leaf that bears a second name; the name itself if none does. -/
def lastTable (leaves : List Leaf) (name : String) : String :=
  ((leaves.filterMap Leaf.alias?).reverse.lookup name).getD name

/-- The table that the innermost block around a reference gives it, of those that give it one; its
own name if none does. -/
def Reference.innermostTable (reference : Reference) : String :=
  (reference.scopes.findSome? (·.table? reference.qualifier.value)).getD reference.qualifier.value

/-- The pieces of a condition of a block. The sources of the block give second names to all of it.
-/
def conditionPieces (block : Select) (condition : Expr) : List Piece :=
  condition.compactPieces [leafAliases (sourceLeaves block.sources)]

/-- The filter of a query carries the condition of its first block, if that has a text, with every
qualifier written as the table of the last source that bears it, over the sources of all blocks.
Where that is the table that the innermost block gives, the filter carries that. -/
theorem carries_filter {query : Query} {first : Select} {rest : List Select} {condition : Expr}
    (blocks : query.blocks = first :: rest) (selected : first.selection = some condition)
    (plain : PlainAliases (Statement.query query).aliases)
    (tables : ∀ pair ∈ (Statement.query query).aliases, keepsCase pair.2 = true) :
    match condition.compact with
    | .ok text =>
      spell (conditionPieces first condition) = text ∧
        Carries (Statement.query query).aliases
          (fun reference => lastTable (blockLeaves query.blocks) reference.qualifier.value) ""
          (conditionPieces first condition) (Statement.query query).footprint.filter.toList ∧
        ((∀ reference ∈ references (conditionPieces first condition),
            reference.innermostTable =
              lastTable (blockLeaves query.blocks) reference.qualifier.value) →
          Carries (Statement.query query).aliases Reference.innermostTable ""
            (conditionPieces first condition) (Statement.query query).footprint.filter.toList)
    | .error _ => (Statement.query query).footprint.filter = "" := by
  have filter : (Statement.query query).footprint.filter =
      renderOrEmpty (Statement.query query).aliases (some condition) := by
    rw [← selected, ← selection_query blocks]
    rfl
  cases compact : condition.compact with
  | error e =>
    show _ = _
    rw [filter, renderOrEmpty, render, compact]
    rfl
  | ok text =>
    have laid : Lays true text (conditionPieces first condition) :=
      condition.lays_compact _ text compact
    have normal : (Statement.query query).footprint.filter =
        normalize (Statement.query query).aliases text := by
      rw [filter, renderOrEmpty, render, compact]
      rfl
    have passes : (Statement.query query).footprint.filter.toList =
        lowerWord (substituteFrom (Statement.query query).aliases 0 true
          (dropCharsets (dropMarks text.toList))) := by
      rw [normal]
      exact (Option.some.inj (getLast?_passes _ text)).symm
    have kept : Dropped (dropMarks ("" ++ spell (conditionPieces first condition)).toList)
        (dropCharsets (dropMarks text.toList)) := by
      rw [String.empty_append, laid.spelled]
      exact dropped_dropCharsets _
    have flat (reference : Reference) :
        lastTable (blockLeaves query.blocks) reference.qualifier.value =
          reference.tableIn (Statement.query query).aliases := by
      show _ = reference.tableIn (leafAliases (Statement.query query).leaves)
      rw [Reference.tableIn, table?_leafAliases, leaves_query blocks, blocks]
      rfl
    have placed : placed (opens true "") (conditionPieces first condition) = true := laid.placed
    have carried := carries_of_dropped plain tables placed kept
    rw [← passes] at carried
    exact ⟨laid.spelled, carried.congr fun reference _ => flat reference, fun agree =>
      carried.congr fun reference m => (agree reference m).trans (flat reference)⟩

/-- A query in which a subquery of the condition and a later block give second names of their own:
users with `u.id = 1` and their orders in a subquery that searches their names, and the archive. -/
def ownAliases : Query :=
  let column (asName name : String) : Expr := .dotted [⟨asName, none⟩, ⟨name, none⟩]
  let orders : Expr :=
    .binary (.binary (column "o" "owner") .eq (column "u" "id")) .and
      (.fullText [[⟨"u", none⟩, ⟨"name", none⟩]] (.text .single "x") "")
  let condition : Expr :=
    .binary (.binary (column "u" "id") .eq (.literal (.number "1" false))) .and
      (.existsRow false (.ofBody (.select (.ofSources [namedTable "orders" (some "o")] orders))))
  .ofBody (.combined (.select (.ofSources [namedTable "users" (some "u")] condition)) .union ""
    (.select (.ofSources [namedTable "archive" (some "a")] none)))

/-- The second name of the users is resolved also in the subquery and in the columns of its search,
and that of the orders is kept. -/
theorem carries_filter_ownAliases :
    ∃ first condition, ownAliases.blocks.head? = some first ∧ first.selection = some condition ∧
      (Statement.query ownAliases).footprint.filter =
        "users.id=1 and EXISTS (SELECT * FROM orders AS o " ++
          "WHERE o.owner = users.id and MATCH (users.name) AGAINST ('x'))" ∧
      (references (conditionPieces first condition)).map (·.qualifier.value) =
        ["u", "o", "u", "u"] ∧
      Carries (Statement.query ownAliases).aliases
        (fun reference => lastTable (blockLeaves ownAliases.blocks) reference.qualifier.value) ""
        (conditionPieces first condition) (Statement.query ownAliases).footprint.filter.toList := by
  have blocks : ownAliases.blocks = _ :: ownAliases.blocks.tail := rfl
  have carried := carries_filter blocks rfl (by decide) (by decide)
  exact ⟨_, _, rfl, rfl, by decide +kernel, by decide +kernel, carried.2.1⟩

/-- Whether the filter of a query carries every qualifier as the table that the innermost block
around it gives. -/
def IsScoped (query : Query) : Prop :=
  ∀ first rest condition text, query.blocks = first :: rest → first.selection = some condition →
    condition.compact = .ok text →
    Carries (Statement.query query).aliases Reference.innermostTable ""
      (conditionPieces first condition) (Statement.query query).footprint.filter.toList

/-- A query whose blocks give one second name to two tables: users with `u.id = 1` and archived
users with `u.id = 2`. -/
def reusedAlias : Query :=
  let key (number : String) : Expr :=
    .binary (.dotted [⟨"u", none⟩, ⟨"id", none⟩]) .eq (.literal (.number number false))
  .ofBody (.combined (.select (.ofSources [namedTable "users" (some "u")] (key "1"))) .union ""
    (.select (.ofSources [namedTable "archived" (some "u")] (key "2"))))

/-- The column of the first block is written as one of the archive. -/
theorem not_isScoped_reusedAlias : ¬IsScoped reusedAlias := by
  intro h
  have carried := h _ _ _ _ rfl rfl rfl
  let user : Reference := ⟨⟨"u", none⟩, by decide, [[("u", "users")]]⟩
  have named : user.innermostTable.toList ++ ['.'] <:+:
      (Statement.query reusedAlias).footprint.filter.toList := carried.isInfix (by decide +kernel)
  rw [← occursIn_iff] at named
  revert named
  decide +kernel

end SqlFootprint.Filter
