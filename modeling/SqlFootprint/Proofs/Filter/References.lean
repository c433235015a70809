import SqlFootprint.Proofs.Filter.Carried
import SqlFootprint.Proofs.Filter.Substitution
import SqlFootprint.Proofs.Text.Counting
import SqlFootprint.Proofs.Text.Removal
import SqlFootprint.Proofs.Text.Trimming

/-! # References to tables

A condition refers to a table where the name of the table with its period stands at the beginning of
a name and outside all quoted texts. The splitter looks for the characters only: it takes
`superusers.b` for a condition on `users`, and it removes `users.` from inside the text `'users.x'`.
Its conditions go to the tables they refer to, and lose nothing but whole references, exactly if the
name with its period occurs in them as a reference only (`attributesExactly_iff`). -/

namespace SqlFootprint.Filter

open Text

/-! ## Places in a filter -/

/-- What a reader of a filter is inside of. -/
inductive Quoting where
  /-- No quoted text. -/
  | outside
  /-- A text between two marks. -/
  | inside (mark : Char)
  /-- A text between two marks, directly behind a backslash. -/
  | escaped (mark : Char)
  deriving DecidableEq

/-- Reads a character. Texts stand between single or double quotes; a doubled mark ends a text and
begins another at once, and a backslash takes the meaning from the character behind it. -/
def Quoting.next : Quoting → Char → Quoting
  | .outside, c => if c = '\x27' ∨ c = '\x22' then .inside c else .outside
  | .inside mark, c =>
    if c = mark then .outside else if c = '\x5c' then .escaped mark else .inside mark
  | .escaped mark, _ => .inside mark

/-- A place in a filter. -/
structure Spot where
  /-- What the place is inside of. -/
  quoting : Quoting
  /-- Whether a name may begin there. -/
  edge : Bool
  deriving DecidableEq

/-- The place where a filter begins: a name may begin there, and it is inside of no text. -/
def Spot.free : Spot := ⟨.outside, true⟩

/-- The place behind a character. -/
def Spot.next (spot : Spot) (c : Char) : Spot := ⟨spot.quoting.next c, isBoundary c⟩

/-- The place behind a text. -/
def Spot.after (spot : Spot) (cs : List Char) : Spot := cs.foldl Spot.next spot

theorem Spot.after_append (spot : Spot) (before after : List Char) :
    spot.after (before ++ after) = (spot.after before).after after :=
  List.foldl_append

/-- The places at which a text occurs in another one that begins at some place. -/
def occurrences (pattern : List Char) : Spot → List Char → List Spot
  | _, [] => []
  | spot, c :: cs =>
    if pattern.isPrefixOf (c :: cs) then spot :: occurrences pattern (spot.next c) cs
    else occurrences pattern (spot.next c) cs

/-- A text occurs at a place if and only if the other one can be cut there. -/
theorem mem_occurrences_iff {pattern : List Char} (ne : pattern ≠ []) {start spot : Spot}
    {text : List Char} : spot ∈ occurrences pattern start text ↔
      ∃ before after, text = before ++ (pattern ++ after) ∧ start.after before = spot := by
  induction text generalizing start with
  | nil =>
    constructor
    · intro m
      cases m
    · rintro ⟨before, after, eq, -⟩
      have none := (List.append_eq_nil_iff.mp eq.symm).2
      exact absurd (List.append_eq_nil_iff.mp none).1 ne
  | cons c cs ih =>
    -- an occurrence is in front or behind the first character
    have split : spot ∈ occurrences pattern start (c :: cs) ↔
        (pattern <+: c :: cs ∧ start = spot) ∨ spot ∈ occurrences pattern (start.next c) cs := by
      rw [occurrences]
      by_cases front : pattern.isPrefixOf (c :: cs) = true
      · rw [if_pos front, List.mem_cons, ← List.isPrefixOf_iff_prefix]
        simp [front, eq_comm]
      · rw [if_neg front, ← List.isPrefixOf_iff_prefix]
        simp [front]
    rw [split, ih]
    constructor
    · rintro (⟨⟨after, eq⟩, here⟩ | ⟨before, after, rfl, there⟩)
      · exact ⟨[], after, eq.symm, here⟩
      · exact ⟨c :: before, after, rfl, there⟩
    · rintro ⟨before, after, eq, place⟩
      cases before with
      | nil => exact .inl ⟨⟨after, eq.symm⟩, place⟩
      | cons d before =>
        obtain ⟨rfl, rfl⟩ := List.cons.inj eq
        exact .inr ⟨before, after, rfl, place⟩

/-! ## Conditions at their places -/

/-- A condition at its place in a filter. -/
structure PlacedCondition where
  /-- Where it begins. -/
  spot : Spot
  /-- The condition. -/
  text : String
  deriving DecidableEq

/-- The conditions of joined pieces, where the first piece begins at some place. -/
def placedFrom : Spot → List (List Char) → List PlacedCondition
  | _, [] => []
  | spot, piece :: pieces =>
    ⟨spot.after (piece.takeWhile isBlank), trim (String.ofList piece)⟩ ::
      placedFrom (spot.after (piece ++ conjunction.toList)) pieces

/-- The conditions of a filter at their places. -/
def placedConditions (filter : String) : List PlacedCondition :=
  placedFrom .free (splitFrom conjunction.toList 0 filter.toList)

/-- The conditions at their places are the conditions. -/
theorem map_text_placedConditions (filter : String) :
    (placedConditions filter).map PlacedCondition.text = conditions filter := by
  have each (spot : Spot) (pieces : List (List Char)) :
      (placedFrom spot pieces).map PlacedCondition.text =
        (pieces.map String.ofList).map trim := by
    induction pieces generalizing spot with
    | nil => rfl
    | cons piece pieces ih => rw [placedFrom, List.map_cons, ih]; rfl
  exact each _ _

/-- A condition stands in the filter at its place. -/
theorem exists_of_mem_placedConditions {filter : String} {condition : PlacedCondition}
    (h : condition ∈ placedConditions filter) :
    ∃ before after, filter.toList = before ++ (condition.text.toList ++ after) ∧
      Spot.free.after before = condition.spot := by
  have each (spot : Spot) (pieces : List (List Char)) (m : condition ∈ placedFrom spot pieces) :
      ∃ before after, conjunction.toList.intercalate pieces =
        before ++ (condition.text.toList ++ after) ∧ spot.after before = condition.spot := by
    induction pieces generalizing spot with
    | nil => cases m
    | cons piece pieces ih =>
      rcases List.mem_cons.mp m with rfl | m
      · obtain ⟨blanks, behind, -⟩ := exists_eq_append_trimBlanks piece
        have eq : piece = piece.takeWhile isBlank ++ (trimBlanks piece ++ blanks) := by
          rw [← behind, List.takeWhile_append_dropWhile]
        rw [trim, String.toList_ofList, String.toList_ofList]
        cases pieces with
        | nil => exact ⟨_, blanks, by rw [List.intercalate_singleton]; exact eq, rfl⟩
        | cons next more =>
          refine ⟨_,
            blanks ++ (conjunction.toList ++ conjunction.toList.intercalate (next :: more)),
            ?_, rfl⟩
          rw [List.intercalate_cons_cons]
          nth_rewrite 1 [eq]
          simp only [List.append_assoc]
      · obtain ⟨before, after, eq, place⟩ := ih _ m
        cases pieces with
        | nil => cases m
        | cons next more =>
          refine ⟨piece ++ conjunction.toList ++ before, after, ?_, ?_⟩
          · rw [List.intercalate_cons_cons, eq]
            simp only [List.append_assoc]
          · rw [Spot.after_append, place]
  have joined := intercalate_splitFrom (by decide : conjunction.toList ≠ []) filter.toList
  rw [← joined]
  exact each _ _ h

/-- The places at which a condition holds the name of a table with its period. -/
def PlacedCondition.mentions (condition : PlacedCondition) (table : String) : List Spot :=
  occurrences (qualifier table).toList condition.spot condition.text.toList

/-- Whether a condition refers to a table: the name of the table with its period stands at the
beginning of a name and outside all quoted texts. -/
def PlacedCondition.RefersTo (condition : PlacedCondition) (table : String) : Prop :=
  Spot.free ∈ condition.mentions table

instance (condition : PlacedCondition) (table : String) : Decidable (condition.RefersTo table) :=
  inferInstanceAs (Decidable (_ ∈ _))

/-- A condition that mentions a table does so at some place. -/
theorem PlacedCondition.exists_mem_mentions {condition : PlacedCondition} {table : String} :
    (∃ spot, spot ∈ condition.mentions table) ↔ Mentions condition.text table := by
  rw [Mentions, contains, occursIn_iff]
  constructor
  · rintro ⟨spot, m⟩
    obtain ⟨before, after, eq, -⟩ := (mem_occurrences_iff (qualifier_ne_nil table)).mp m
    exact ⟨before, after, by rw [eq, List.append_assoc]⟩
  · rintro ⟨before, after, eq⟩
    rw [List.append_assoc] at eq
    exact ⟨_, (mem_occurrences_iff (qualifier_ne_nil table)).mpr ⟨before, after, eq.symm, rfl⟩⟩

/-! ## What a condition loses -/

/-- A text without some of the references to a table in it, where the text begins at a place. -/
inductive Unqualified (table : String) : Spot → List Char → List Char → Prop where
  /-- Nothing is left. -/
  | nil {spot : Spot} : Unqualified table spot [] []
  /-- A character is kept. -/
  | keep {spot : Spot} {c : Char} {cs ds : List Char}
    (rest : Unqualified table (spot.next c) cs ds) : Unqualified table spot (c :: cs) (c :: ds)
  /-- A reference is left out: the name of the table with its period, at a place where it is one. -/
  | drop {cs ds : List Char}
    (rest : Unqualified table (Spot.free.after (qualifier table).toList) cs ds) :
    Unqualified table .free ((qualifier table).toList ++ cs) ds

section

variable {table : String}

/-- If a name stands as a reference only, its removal leaves out references only. -/
theorem unqualified_replaceFrom {spot : Spot} {cs : List Char}
    (h : ∀ place ∈ occurrences (qualifier table).toList spot cs, place = .free) :
    Unqualified table spot cs (replaceFrom (qualifier table).toList [] 0 cs) := by
  have ne := qualifier_ne_nil table
  induction cs using replaceFrom_induction ne generalizing spot with
  | nil =>
    rw [replaceFrom_nil]
    exact .nil
  | found rest ih =>
    -- the name in front is a reference, and behind it the argument goes on
    have here : spot = .free := h spot ((mem_occurrences_iff ne).mpr ⟨[], rest, rfl, rfl⟩)
    subst here
    rw [replaceFrom_append ne, List.nil_append]
    refine .drop (ih fun place m => ?_)
    obtain ⟨before, after, rfl, there⟩ := (mem_occurrences_iff ne).mp m
    refine h place ((mem_occurrences_iff ne).mpr
      ⟨(qualifier table).toList ++ before, after, ?_, ?_⟩)
    · rw [List.append_assoc]
    · rw [Spot.after_append, there]
  | kept c cs miss ih =>
    rw [replaceFrom_cons_of_mismatch [] miss]
    refine .keep (ih fun place m => ?_)
    obtain ⟨before, after, rfl, there⟩ := (mem_occurrences_iff ne).mp m
    exact h place ((mem_occurrences_iff ne).mpr ⟨c :: before, after, rfl, there⟩)

variable (noPeriod : '.' ∉ table.toList)

include noPeriod

/-- Behind the first character of a name as much is left as behind the whole name, or more. -/
theorem length_replaceFrom_le {c : Char} {cs rest : List Char}
    (front : (qualifier table).toList ++ rest = c :: cs) :
    (replaceFrom (qualifier table).toList [] 0 rest).length ≤
      (replaceFrom (qualifier table).toList [] 0 cs).length := by
  have ne := qualifier_ne_nil table
  rw [toList_qualifier] at front ne ⊢
  cases name : table.toList with
  | nil =>
    rw [name] at front
    obtain rfl : rest = cs := (List.cons.inj front).2
    exact Nat.le_refl _
  | cons t ts =>
    -- the rest of the name holds its only period, so that nothing stands astride behind it
    rw [name] at front ne noPeriod
    obtain rfl : ts ++ ['.'] ++ rest = cs := (List.cons.inj front).2
    rw [replaceFrom_append_of_not_astride ne [] (not_astride_concat noPeriod ts rest),
      List.length_append]
    exact Nat.le_add_left _ _

/-- No more can be left out than the removal does. -/
theorem Unqualified.length_le {spot : Spot} {cs ds : List Char} (h : Unqualified table spot cs ds) :
    (replaceFrom (qualifier table).toList [] 0 cs).length ≤ ds.length := by
  have ne := qualifier_ne_nil table
  induction h with
  | nil => simp
  | @keep spot c cs ds rest ih =>
    by_cases front : (qualifier table).toList <+: c :: cs
    · obtain ⟨after, eq⟩ := front
      have fewer := length_replaceFrom_le noPeriod eq
      rw [← eq, replaceFrom_append ne, List.nil_append, List.length_cons]
      omega
    · rw [replaceFrom_cons_of_mismatch [] front, List.length_cons, List.length_cons]
      omega
  | drop rest ih =>
    rw [replaceFrom_append ne, List.nil_append]
    exact ih

/-- If the removal leaves out references only, the name stands as a reference only. -/
theorem Unqualified.eq_free {spot : Spot} {cs ds : List Char} (h : Unqualified table spot cs ds)
    (removed : ds = replaceFrom (qualifier table).toList [] 0 cs) :
    ∀ place ∈ occurrences (qualifier table).toList spot cs, place = .free := by
  have ne := qualifier_ne_nil table
  induction h with
  | nil =>
    intro place m
    cases m
  | @keep spot c cs ds rest ih =>
    by_cases front : (qualifier table).toList <+: c :: cs
    · -- the removal leaves out the name in front, so that less is left than was kept
      obtain ⟨after, eq⟩ := front
      have fewer := length_replaceFrom_le noPeriod eq
      have kept := rest.length_le noPeriod
      have size := congrArg List.length removed
      rw [← eq, replaceFrom_append ne, List.nil_append, List.length_cons] at size
      omega
    · rw [replaceFrom_cons_of_mismatch [] front] at removed
      rw [occurrences, if_neg (mt List.isPrefixOf_iff_prefix.mp front)]
      exact ih (List.cons.inj removed).2
  | @drop cs ds rest ih =>
    rw [replaceFrom_append ne, List.nil_append] at removed
    intro place m
    obtain ⟨before, after, eq, there⟩ := (mem_occurrences_iff ne).mp m
    rw [toList_qualifier] at eq
    rcases eq_nil_or_exists_of_append_eq noPeriod eq with rfl | ⟨more, rfl, rfl⟩
    · exact there.symm
    · rw [← toList_qualifier, Spot.after_append] at there
      refine ih removed place ((mem_occurrences_iff ne).mpr ⟨more, after, ?_, there⟩)
      rw [toList_qualifier]

end

/-! ## Attribution -/

/-- The part of a filter for a table is made of what is carried of its conditions; a condition that
refers to another table of the statement and not to this one is not carried, and one that is carried
loses nothing but references to this one. -/
structure AttributesExactly (filter table : String) (tables : List String) : Prop where
  /-- The part is made of what is carried of the conditions. -/
  joined : forTable filter table tables = conjunction.intercalate
    ((placedConditions filter).filterMap fun c => conditionFor? table tables c.text)
  /-- Conditions on other tables are not carried. -/
  foreign : ∀ c ∈ placedConditions filter, (∃ other ∈ tables, other ≠ table ∧ c.RefersTo other) →
    ¬c.RefersTo table → conditionFor? table tables c.text = none
  /-- What is carried of a condition lacks references only. -/
  own : ∀ c ∈ placedConditions filter, ∀ part, conditionFor? table tables c.text = some part →
    Unqualified table c.spot c.text.toList part.toList

/-- With several tables, the part of a filter for a table is made of what is carried of its
conditions. -/
theorem forTable_eq_intercalate {table : String} {tables : List String}
    (several : 1 < tables.length) (filter : String) :
    forTable filter table tables = conjunction.intercalate
      ((placedConditions filter).filterMap fun c => conditionFor? table tables c.text) := by
  have carried (c : String) : conditionFor? table tables c =
      Option.map (withoutName table) (Option.guard (isCarried table tables) c) := by
    rw [conditionFor?_eq, Option.guard]
    split <;> rfl
  have parts : (placedConditions filter).filterMap (fun c => conditionFor? table tables c.text) =
      (conditions filter).filterMap (conditionFor? table tables) := by
    rw [← map_text_placedConditions, List.filterMap_map]
    rfl
  rw [parts, forTable_eq several]
  congr 1
  rw [funext carried, ← List.map_filterMap, List.filterMap_eq_filter]

/-- Conditions go to the tables they refer to and lose nothing but references exactly if the name of
the table with its period occurs in them as a reference only. -/
theorem attributesExactly_iff {table : String} (noPeriod : '.' ∉ table.toList)
    {tables : List String} (several : 1 < tables.length) (filter : String) :
    AttributesExactly filter table tables ↔
      ∀ c ∈ placedConditions filter, ∀ spot ∈ c.mentions table, spot = .free := by
  constructor
  · intro attributes c m
    by_cases own : Mentions c.text table
    · -- a condition that mentions the table is carried without all occurrences of its name
      have carried : conditionFor? table tables c.text = some (withoutName table c.text) :=
        if_pos own
      exact (attributes.own c m _ carried).eq_free noPeriod (toList_withoutName table c.text)
    · intro spot occurs
      exact absurd (c.exists_mem_mentions.mp ⟨spot, occurs⟩) own
  · intro references
    refine ⟨forTable_eq_intercalate several filter, ?_, ?_⟩
    · rintro c m ⟨other, mother, -, refers⟩ none
      have own : ¬Mentions c.text table := by
        intro mentions
        obtain ⟨spot, occurs⟩ := c.exists_mem_mentions.mpr mentions
        rw [references c m spot occurs] at occurs
        exact none occurs
      rw [conditionFor?_eq, isCarried_eq_false own
        ⟨other, mother, c.exists_mem_mentions.mp ⟨_, refers⟩⟩]
      rfl
    · intro c m part carried
      rw [conditionFor?_eq] at carried
      split_ifs at carried
      rw [← Option.some.inj carried, toList_withoutName]
      exact unqualified_replaceFrom (references c m)

/-- For `superusers`, neither `users.` inside the quoted text nor `superusers.` beside `users.` does
any harm. -/
theorem attributesExactly_superusers :
    AttributesExactly "users.a='users.x' and superusers.b=users.c and superusers.d='it''s'"
      "superusers" ["users", "superusers"] :=
  (attributesExactly_iff (by decide) (by decide) _).mpr (by decide +kernel)

/-- The condition `superusers.b=2` is carried over to `users`, as `superb=2`. -/
theorem not_attributesExactly_users :
    ¬∀ (filter table : String) (tables : List String), 2 ≤ tables.length →
      (∀ other ∈ tables, isPlainWord other = true) → table ∈ tables →
      AttributesExactly filter table tables := by
  intro h
  have attributes := h "superusers.b=2" "users" ["users", "superusers"] (by decide) (by decide)
    (by decide)
  have placed : ⟨.free, "superusers.b=2"⟩ ∈ placedConditions "superusers.b=2" := by
    decide +kernel
  have foreign := attributes.foreign _ placed
    ⟨"superusers", by decide, by decide, by decide +kernel⟩ (by decide +kernel)
  revert foreign
  decide +kernel

end SqlFootprint.Filter
