import Mathlib.Data.List.Infix
import SqlFootprint.Proofs.Filter.Carried
import SqlFootprint.Proofs.Text.Removal

/-! # The own name in the part of a filter

The part of a filter for a table should not hold the name of the table with its period. Names are
removed from every condition in one run, which does not look at what it puts together: of
`useusers.rs.id=1` it leaves `users.id=1`. For names that no seam between conditions can make, this
is the only way in which a name comes back (`contains_forTable_iff`). -/

namespace SqlFootprint.Filter

open Text

/-! ## Seams between conditions -/

/-- A name that does not come about where conditions are joined: the word between conditions is no
part of it, and no end of that word stands in front of it. -/
structure SeamFree (table : String) : Prop where
  /-- The word between conditions is no part of the name. -/
  whole : ¬conjunction.toList <:+: table.toList
  /-- No end of the word between conditions stands in front of the name. -/
  front : ∀ ending ∈ conjunction.toList.tails, ending ≠ [] → ¬ending <+: table.toList

/-- A period is no part of the word between conditions. -/
theorem period_notMem_conjunction : '.' ∉ conjunction.toList := by decide

section

variable {table : String} (seamFree : SeamFree table)

include seamFree

/-- A name with its period that occurs in two conditions with the word between them occurs in one of
them. -/
theorem SeamFree.infix_or {before after : List Char}
    (h : (qualifier table).toList <:+: before ++ (conjunction.toList ++ after)) :
    (qualifier table).toList <:+: before ∨ (qualifier table).toList <:+: after := by
  rw [toList_qualifier] at h ⊢
  rcases infix_append_iff.mp h with inside | inside | ⟨left, right, -, hright, eq, -, cut⟩
  · exact .inl inside
  · -- behind the first condition the name begins with an end of the word, if not behind the word
    rcases infix_append_iff.mp inside with
      inside | inside | ⟨left, right, hleft, hright, eq, end_, -⟩
    · exact absurd (inside.subset (by simp)) period_notMem_conjunction
    · exact .inr inside
    · obtain ⟨more, same, -⟩ := exists_of_concat_eq_append hright eq
      exact absurd ⟨more, same.symm⟩ (seamFree.front left ((List.mem_tails _ _).mpr end_) hleft)
  · -- a name that begins in the first condition would have to hold the whole word
    obtain ⟨more, same, rfl⟩ := exists_of_concat_eq_append hright eq
    rcases List.prefix_or_prefix_of_prefix cut (List.prefix_append conjunction.toList after)
      with short | long
    · exact absurd (short.subset (by simp)) period_notMem_conjunction
    · rcases List.prefix_concat_iff.mp long with whole | inside
      · exact absurd (whole ▸ by simp) period_notMem_conjunction
      · exact absurd (inside.isInfix.trans ⟨left, [], by simp [same]⟩) seamFree.whole

/-- A name with its period that occurs in joined conditions occurs in one of them. -/
theorem SeamFree.infix_intercalate_iff {pieces : List (List Char)} :
    (qualifier table).toList <:+: conjunction.toList.intercalate pieces ↔
      ∃ piece ∈ pieces, (qualifier table).toList <:+: piece := by
  induction pieces with
  | nil => simpa using qualifier_ne_nil table
  | cons piece pieces ih =>
    cases pieces with
    | nil => simp
    | cons next more =>
      rw [List.intercalate_cons_cons, List.append_assoc, List.exists_mem_cons_iff, ← ih]
      constructor
      · exact seamFree.infix_or
      · rintro (inside | inside)
        · exact inside.trans (List.prefix_append _ _).isInfix
        · exact inside.trans ((List.suffix_append _ _).trans (List.suffix_append _ _)).isInfix

end

/-! ## Names that come back -/

/-- Part of a condition closes up to the name of a table with its period when that is removed from
it, as `useusers.rs.` does to `users.`. -/
def ClosesUp (table condition : String) : Prop :=
  ∃ part, contains condition part = true ∧ withoutName table part = qualifier table

/-- What closes up to a name mentions it. -/
theorem ClosesUp.mentions {table condition : String} (h : ClosesUp table condition) :
    Mentions condition table := by
  obtain ⟨part, inside, closes⟩ := h
  by_cases own : Mentions part table
  · exact occursIn_iff.mpr ((occursIn_iff.mp own).trans (occursIn_iff.mp inside))
  · -- otherwise nothing is removed, and the part is the name itself
    rw [withoutName_of_not_mentions own] at closes
    rwa [closes] at inside

/-- Where a name is left in a condition without it, part of the condition closes up to it. -/
theorem closesUp_of_occurs {table condition : String}
    (h : (qualifier table).toList <:+: (withoutName table condition).toList) :
    ClosesUp table condition := by
  rw [toList_withoutName] at h
  obtain ⟨part, inside, closes⟩ := exists_infix_of_replaceFrom (qualifier_ne_nil table) h
  refine ⟨String.ofList part, occursIn_iff.mpr (by simpa using inside), String.toList_inj.mp ?_⟩
  rw [toList_withoutName, String.toList_ofList, closes]

/-- Where part of a condition closes up to a name without a period in it, the name is left. -/
theorem ClosesUp.occurs {table condition : String} (noPeriod : '.' ∉ table.toList)
    (h : ClosesUp table condition) :
    (qualifier table).toList <:+: (withoutName table condition).toList := by
  obtain ⟨part, inside, closes⟩ := h
  have closed := congrArg String.toList closes
  rw [toList_withoutName, toList_qualifier] at closed
  rw [toList_withoutName, toList_qualifier, infix_replaceFrom_iff noPeriod]
  exact ⟨part.toList, occursIn_iff.mp inside, closed⟩

/-- A name that no seam makes is left in the part of a filter for its table if and only if it is
left in a condition that is carried. -/
theorem SeamFree.contains_forTable_iff_exists {table : String} (seamFree : SeamFree table)
    {tables : List String} (several : 1 < tables.length) (filter : String) :
    contains (forTable filter table tables) (qualifier table) = true ↔
      ∃ c ∈ conditions filter, isCarried table tables c = true ∧
        (qualifier table).toList <:+: (withoutName table c).toList := by
  rw [contains, occursIn_iff, forTable_eq several, String.toList_intercalate,
    seamFree.infix_intercalate_iff]
  simp only [List.mem_map, List.mem_filter]
  constructor
  · rintro ⟨-, ⟨-, ⟨c, ⟨m, carried⟩, rfl⟩, rfl⟩, inside⟩
    exact ⟨c, m, carried, inside⟩
  · rintro ⟨c, m, carried, inside⟩
    exact ⟨_, ⟨_, ⟨c, ⟨m, carried⟩, rfl⟩, rfl⟩, inside⟩

/-- The part of a filter for a table lacks the name of the table with its period if no condition
closes up to it, whatever the filter is; and only then, if the name has no period in it. The name is
one that no seam makes. -/
theorem contains_forTable_iff {table : String} (seamFree : SeamFree table) {tables : List String}
    (several : 1 < tables.length) (filter : String) :
    ((∀ c ∈ conditions filter, ¬ClosesUp table c) →
      contains (forTable filter table tables) (qualifier table) = false) ∧
    ('.' ∉ table.toList → contains (forTable filter table tables) (qualifier table) = false →
      ∀ c ∈ conditions filter, ¬ClosesUp table c) := by
  rw [Bool.eq_false_iff, ne_eq, seamFree.contains_forTable_iff_exists several]
  constructor
  · rintro none ⟨c, m, -, inside⟩
    exact none c m (closesUp_of_occurs inside)
  · intro noPeriod lacks c m closes
    -- a condition that closes up mentions the table, so that it is carried
    have carried : isCarried table tables c = true := by
      rw [isCarried, show contains c (qualifier table) = true from closes.mentions, Bool.true_or]
    exact lacks ⟨c, m, carried, closes.occurs noPeriod⟩

/-- Both `superusers.b` and the text `'users.x'` lose the name, and nothing closes up to it. -/
theorem contains_forTable_superusers :
    contains (forTable "users.a=superusers.b and name='users.x'" "users" ["users", "superusers"])
        (qualifier "users") = false ∧
      ∀ c ∈ conditions "users.a=superusers.b and name='users.x'", ¬ClosesUp "users" c := by
  have lacks : contains (forTable "users.a=superusers.b and name='users.x'" "users"
      ["users", "superusers"]) (qualifier "users") = false := by
    decide +kernel
  have seamFree : SeamFree "users" := ⟨by decide, by decide⟩
  exact ⟨lacks, (contains_forTable_iff seamFree (by decide) _).2 (by decide) lacks⟩

/-- What is left of `useusers.rs.id=1` for `users` holds the name again. -/
theorem not_lacksName_useusers :
    ¬∀ (filter table : String) (tables : List String), 2 ≤ tables.length → table ∈ tables →
      contains (forTable filter table tables) (qualifier table) = false := by
  intro h
  have lacks := h "useusers.rs.id=1" "users" ["users", "posts"] (by decide) (by decide)
  revert lacks
  decide +kernel

end SqlFootprint.Filter
