import SqlFootprint.Report

/-! # Reports on several footprints

A plain report on several footprints is put together from the reports on each of them alone. In
front of each there is a header with its number, and from the second one on a rule (`text_eq_join`).
So the lines on one footprint stay the same whatever is said before and behind them (`text_set`),
and only a report on a single footprint has no header at all. -/

namespace SqlFootprint.Report

/-- What stands in front of the lines on the footprint at a place: the rule that parts it from the
one before, if there is one, and its number. Places are counted from zero, numbers from one. -/
def header (place : Nat) : String :=
  (if 0 < place then "---\n" else "") ++ "Statement " ++ toString (place + 1) ++ ":\n"

/-- The lines on a footprint, each of which ends with a line break. A footprint without a filter has
no line on it. -/
def lines (footprint : Footprint) : List String :=
  ["Columns: " ++ bracketed footprint.columns ++ "\n",
    "Tables: " ++ bracketed footprint.tables ++ "\n",
    "Action: " ++ (footprint.action.elim "" Action.keyword) ++ "\n"] ++
    if footprint.filter = "" then [] else ["WHERE filter: " ++ footprint.filter ++ "\n"]

/-! ## A single footprint -/

/-- A report on a single footprint is made of its lines and nothing else. -/
theorem text_singleton (footprint : Footprint) :
    text [footprint] = String.join (lines footprint) := by
  rw [text, lines]
  unfold block
  by_cases h : footprint.filter = ""
  · rw [if_pos h, if_pos (String.isEmpty_iff.mpr h), List.append_nil]
    simp only [String.join_cons, String.join_nil, String.append_empty, String.append_assoc]
    cases footprint.action <;> rfl
  · rw [if_neg h, if_neg (mt String.isEmpty_iff.mp h)]
    simp only [List.cons_append, List.nil_append, String.join_cons, String.join_nil,
      String.append_empty, String.append_assoc]
    cases footprint.action <;> rfl

/-! ## Several footprints -/

/-- The first of the numbered footprints has its header, and the others are numbered on. -/
theorem numbered_cons (place : Nat) (footprint : Footprint) (rest : List Footprint) :
    numbered (place + 1) (footprint :: rest) =
      header place ++ text [footprint] ++ numbered (place + 2) rest := by
  cases place <;> simp [numbered, header, text, String.append_assoc]

/-- The numbers go on where the footprints before end. -/
theorem numbered_append (place : Nat) (before rest : List Footprint) :
    numbered (place + 1) (before ++ rest) =
      numbered (place + 1) before ++ numbered (place + before.length + 1) rest := by
  induction before generalizing place with
  | nil => simp [numbered]
  | cons footprint before ih =>
    have next : place + 1 + before.length + 1 = place + (before.length + 1) + 1 := by omega
    rw [List.cons_append, numbered_cons, numbered_cons, ih (place + 1), List.length_cons, next]
    simp only [String.append_assoc]

/-- Numbered footprints are each reported behind the header of their place. -/
theorem numbered_eq_join (place : Nat) (footprints : List Footprint) :
    numbered (place + 1) footprints =
      String.join
        (footprints.mapIdx fun i footprint => header (place + i) ++ text [footprint]) := by
  -- the numbers of the rest begin one later, so the induction is for any place of the first
  induction footprints generalizing place with
  | nil => rfl
  | cons footprint rest ih =>
    rw [numbered_cons, ih (place + 1), List.mapIdx_cons, String.join_cons]
    simp only [Nat.add_zero, Nat.add_assoc, Nat.add_comm 1]

/-- Footprints are numbered unless there is only one. -/
theorem text_of_length_ne {footprints : List Footprint} (h : footprints.length ≠ 1) :
    text footprints = numbered 1 footprints := by
  match footprints, h with
  | [], _ => rfl
  | [_], h => exact absurd rfl h
  | _ :: _ :: _, _ => rfl

/-- In a report on several footprints, the lines on one of them stand between texts that do not
depend on it. -/
theorem text_set {footprints : List Footprint} (several : 1 < footprints.length) {place : Nat}
    (inside : place < footprints.length) :
    ∃ before behind, ∀ footprint,
      text (footprints.set place footprint) =
        before ++ header place ++ text [footprint] ++ behind := by
  refine ⟨numbered 1 (footprints.take place), numbered (place + 2) (footprints.drop (place + 1)),
    fun footprint => ?_⟩
  have length : (footprints.take place).length = place := by
    rw [List.length_take, Nat.min_eq_left (Nat.le_of_lt inside)]
  have plural : (footprints.set place footprint).length ≠ 1 := by
    rw [List.length_set]
    omega
  rw [text_of_length_ne plural, List.set_eq_take_append_cons_drop, if_pos inside,
    numbered_append 0, length, numbered_cons]
  simp only [Nat.zero_add, String.append_assoc]

/-- A report on several footprints is made of the reports on each of them alone, behind headers that
depend on the places only. A report on a single footprint is made of its lines, and a footprint can
be put in the place of another one without a change of anything but its lines. -/
theorem text_eq_join (footprints : List Footprint) (several : 1 < footprints.length) :
    text footprints =
        String.join (footprints.mapIdx fun place footprint =>
          (if 0 < place then "---\n" else "") ++ "Statement " ++ toString (place + 1) ++ ":\n" ++
            text [footprint]) ∧
      (∀ footprint, text [footprint] = String.join (lines footprint)) ∧
      ∀ place < footprints.length, ∃ before behind, ∀ footprint,
        text (footprints.set place footprint) = before ++ text [footprint] ++ behind := by
  refine ⟨?_, text_singleton, fun place inside => ?_⟩
  · rw [text_of_length_ne (by omega), numbered_eq_join 0]
    simp only [Nat.zero_add, header]
  · obtain ⟨before, behind, eq⟩ := text_set several inside
    exact ⟨before ++ header place, behind, eq⟩

/-- The footprint of `SELECT * FROM users WHERE id = 1`. -/
def chosenRows : Footprint :=
  { Footprint.empty with
    action := some .select, tables := ["users"], columns := ["id"], filter := "id=1" }

/-- The footprint of `TRUNCATE TABLE logs`. -/
def emptiedTable : Footprint :=
  { Footprint.empty with action := some .truncate, tables := ["logs"] }

/-- A filter of the first footprint leaves the second one as it is reported alone. -/
theorem text_chosenRows_emptiedTable :
    1 < [chosenRows, emptiedTable].length ∧
      text [chosenRows, emptiedTable] =
        "Statement 1:\nColumns: [id]\nTables: [users]\nAction: SELECT\nWHERE filter: id=1\n" ++
          "---\nStatement 2:\nColumns: []\nTables: [logs]\nAction: TRUNCATE\n" := by
  refine ⟨by decide, ?_⟩
  rw [(text_eq_join [chosenRows, emptiedTable] (by decide)).1]
  decide +kernel

end SqlFootprint.Report
