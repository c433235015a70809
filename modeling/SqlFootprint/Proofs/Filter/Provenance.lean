import SqlFootprint.Filter.Split
import SqlFootprint.Proofs.Filter.TextValues

/-! # Where the characters of a filter come from

The passes on the way to a filter bring in few characters of their own. The pass for character sets
only takes characters away (`dropped_dropCharsets`), the one for second names brings in periods and
tables, and the last one a word in lower case. What a plan makes of a filter for a table brings in
that word again. So whatever holds of the characters of a condition and of the tables, and of these
few, holds of every filter (`forall_mem_forTable`). -/

namespace SqlFootprint.Filter

open Text Sql

/-! ## Character sets -/

/-- A text ends with a quote, and makes up the whole with what stands behind it. -/
theorem exists_of_closedText {cs text rest : List Char} (h : closedText cs = some (text, rest)) :
    ∃ inner, text = inner ++ ['\x27'] ∧ cs = text ++ rest := by
  induction cs using closedText.induct generalizing text rest with
  | case1 => cases h
  | case2 =>
    cases h
    exact ⟨[], rfl, rfl⟩
  | case3 c other =>
    rw [closedText, if_neg other] at h
    cases h
  | case4 cs inner behind found ih =>
    rw [closedText, if_pos rfl, if_pos rfl, found] at h
    cases h
    obtain ⟨front, rfl, rfl⟩ := ih found
    exact ⟨'\x27' :: '\x27' :: front, rfl, rfl⟩
  | case5 cs missing =>
    rw [closedText, if_pos rfl, if_pos rfl, missing] at h
    cases h
    exact ⟨[], rfl, rfl⟩
  | case6 d cs other =>
    rw [closedText, if_pos rfl, if_neg other] at h
    cases h
    exact ⟨[], rfl, rfl⟩
  | case7 c d cs other inner behind found ih =>
    rw [closedText, if_neg other, found] at h
    cases h
    obtain ⟨front, rfl, eq⟩ := ih found
    exact ⟨c :: front, rfl, congrArg (c :: ·) eq⟩
  | case8 c d cs other missing =>
    rw [closedText, if_neg other, missing] at h
    cases h

/-- A character set and the text behind it stand at the front: an underscore with the rest of a
name, blanks, and a text between quotes. -/
theorem exists_append_of_introducedText? {cs text : List Char} {length : Nat}
    (h : introducedText? cs = some (text, length)) :
    ∃ name gap inner rest, cs = '_' :: name ++ gap ++ text ++ rest ∧
      length = ('_' :: name ++ gap ++ text).length ∧ name ≠ [] ∧
      (∀ c ∈ name, isCharsetPart c = true) ∧ (∀ c ∈ gap, isBlank c = true) ∧
      text = '\x27' :: inner ++ ['\x27'] := by
  unfold introducedText? at h
  split at h
  · next u first cs =>
    split_ifs at h with named
    obtain ⟨underscore, letter⟩ := (Bool.and_eq_true _ _).mp named
    obtain rfl : u = '_' := of_decide_eq_true underscore
    dsimp only at h
    split at h
    · next q body eq =>
      split_ifs at h with quote
      subst quote
      split at h
      · next inner rest closed =>
        cases h
        obtain ⟨front, rfl, rfl⟩ := exists_of_closedText closed
        refine ⟨first :: cs.takeWhile isCharsetPart,
          (cs.drop (cs.takeWhile isCharsetPart).length).takeWhile isBlank, front, rest, ?_, ?_,
          List.cons_ne_nil _ _, ?_, fun c m => List.mem_takeWhile_imp m, rfl⟩
        · have cut := List.takeWhile_append_dropWhile (p := isCharsetPart) (l := cs)
          have cut' := List.takeWhile_append_dropWhile (p := isBlank)
            (l := cs.drop (cs.takeWhile isCharsetPart).length)
          have behind : (cs.drop (cs.takeWhile isCharsetPart).length).dropWhile isBlank =
              '\x27' :: (front ++ ['\x27'] ++ rest) := by
            rw [← eq, ← List.drop_drop, drop_length_takeWhile isBlank]
          rw [behind, drop_length_takeWhile] at cut'
          rw [drop_length_takeWhile]
          conv_lhs => rw [← cut, ← cut']
          simp
        · simp only [List.length_append, List.length_cons]
          omega
        · refine List.forall_mem_cons.mpr ⟨?_, fun c m => List.mem_takeWhile_imp m⟩
          simp [isCharsetPart, letter]
      · cases h
    · cases h
  · cases h

/-- A text with some of its character sets dropped: each stands directly in front of a quote, as an
underscore with the rest of a name, and blanks. -/
inductive Dropped : List Char → List Char → Prop where
  /-- Nothing is left of nothing. -/
  | nil : Dropped [] []
  /-- A character is kept. -/
  | keep (c : Char) {cs ds : List Char} (h : Dropped cs ds) : Dropped (c :: cs) (c :: ds)
  /-- A character set is dropped with the blanks behind it. -/
  | drop {name gap cs ds : List Char} (hname : ∀ c ∈ name, isCharsetPart c = true)
      (hgap : ∀ c ∈ gap, isBlank c = true) (h : Dropped ('\x27' :: cs) ds) :
      Dropped ('_' :: (name ++ gap ++ '\x27' :: cs)) ds

namespace Dropped

variable {cs ds : List Char}

/-- A text may be kept in front of what is left. -/
theorem keepAll (text : List Char) (h : Dropped cs ds) : Dropped (text ++ cs) (text ++ ds) := by
  induction text with
  | nil => exact h
  | cons c text ih => exact ih.keep c

/-- Dropping only takes characters away. -/
theorem sublist (h : Dropped cs ds) : List.Sublist ds cs := by
  induction h with
  | nil => exact List.Sublist.slnil
  | keep c _ ih => exact ih.cons_cons c
  | drop _ _ _ ih => exact (ih.trans (List.sublist_append_right _ _)).cons '_'

end Dropped

/-- The pass for character sets drops character sets. -/
theorem dropped_dropCharsetsFrom (skip : Nat) (inWord : Bool) (cs : List Char) :
    Dropped (cs.drop skip) (dropCharsetsFrom skip inWord cs) := by
  induction cs generalizing skip inWord with
  | nil =>
    rw [List.drop_nil]
    cases skip <;> exact .nil
  | cons c cs ih =>
    cases skip with
    | succ n => exact ih n _
    | zero =>
      rw [dropCharsetsFrom]
      split
      · next text length found =>
        have found : introducedText? (c :: cs) = some (text, length) := by
          cases inWord with
          | true => cases found
          | false => exact found
        obtain ⟨name, gap, inner, rest, eq, size, -, hname, hgap, rfl⟩ :=
          exists_append_of_introducedText? found
        have behind : cs.drop (length - 1) = rest := by
          have : (c :: cs).drop length = rest := by rw [eq, size, List.drop_left]
          rw [size] at this ⊢
          exact this
        -- the text is kept, and so is what is left of the rest
        have later := (ih (length - 1) (isWordChar c)).keepAll ('\x27' :: inner ++ ['\x27'])
        rw [behind] at later
        rw [List.drop_zero, eq]
        simpa using Dropped.drop hname hgap later
      · exact (ih 0 _).keep c

/-- The pass for character sets drops character sets. -/
theorem dropped_dropCharsets (cs : List Char) : Dropped cs (dropCharsets cs) :=
  dropped_dropCharsetsFrom 0 false cs

/-! ## Cutting and joining -/

/-- What stands in a piece stands in the text. -/
theorem mem_of_mem_splitFrom {pattern text piece : List Char} {skip : Nat} {c : Char}
    (h : piece ∈ splitFrom pattern skip text) (m : c ∈ piece) : c ∈ text := by
  induction text generalizing skip piece with
  | nil =>
    have : piece = [] := by cases skip <;> simpa [splitFrom] using h
    subst this
    cases m
  | cons d ds ih =>
    cases skip with
    | succ n => exact List.mem_cons_of_mem d (ih h m)
    | zero =>
      rw [splitFrom] at h
      split at h
      · rcases List.mem_cons.mp h with rfl | h
        · cases m
        · exact List.mem_cons_of_mem d (ih h m)
      · -- the character goes in front of the first piece
        split at h
        · next none => exact absurd none (splitFrom_ne_nil pattern 0 ds)
        · next first others pieces =>
          rcases List.mem_cons.mp h with rfl | h
          · rcases List.mem_cons.mp m with rfl | m
            · exact List.mem_cons_self
            · exact List.mem_cons_of_mem d (ih (pieces ▸ List.mem_cons_self) m)
          · exact List.mem_cons_of_mem d (ih (pieces ▸ List.mem_cons_of_mem first h) m)

/-- What is left of a text without the blanks at either end stands in the text. -/
theorem mem_of_mem_trim {text : String} {c : Char} (h : c ∈ (trim text).toList) :
    c ∈ text.toList := by
  rw [trim, String.toList_ofList, trimBlanks, List.mem_reverse] at h
  have m := (List.dropWhile_suffix _).subset h
  exact (List.dropWhile_suffix _).subset (List.mem_reverse.mp m)

/-- What stands in joined pieces stands in one of them or in what joins them. -/
theorem mem_of_mem_intercalate {separator : List Char} {pieces : List (List Char)} {c : Char}
    (h : c ∈ separator.intercalate pieces) : c ∈ separator ∨ ∃ piece ∈ pieces, c ∈ piece := by
  induction pieces with
  | nil => cases h
  | cons first others ih =>
    cases others with
    | nil =>
      rw [List.intercalate_singleton] at h
      exact Or.inr ⟨first, List.mem_cons_self, h⟩
    | cons next more =>
      rw [List.intercalate_cons_cons, List.append_assoc] at h
      rcases List.mem_append.mp h with m | h
      · exact Or.inr ⟨first, List.mem_cons_self, m⟩
      rcases List.mem_append.mp h with m | m
      · exact Or.inl m
      rcases ih m with m | ⟨piece, mem, m⟩
      · exact Or.inl m
      · exact Or.inr ⟨piece, List.mem_cons_of_mem first mem, m⟩

/-! ## Filters -/

/-- The normal form of a text has its characters without marks, periods, tables, and the word in
lower case. -/
theorem mem_of_mem_normalize {aliases : Aliases} {text : String} {c : Char}
    (h : c ∈ (normalize aliases text).toList) :
    (c ∈ text.toList ∧ c ≠ '\x60') ∨ c = '.' ∨ (∃ pair ∈ aliases, c ∈ pair.2.toList) ∨
      c ∈ conjunction.toList := by
  rw [normalize, replace, String.toList_ofList, toList_substituteAliases] at h
  rcases mem_of_mem_replaceFrom h with m | m
  · rcases mem_of_mem_substituteFrom m with m | m | m
    · rw [String.toList_ofList] at m
      have kept := List.mem_filter.mp ((dropped_dropCharsets _).sublist.subset m)
      exact Or.inl ⟨kept.1, of_decide_eq_true kept.2⟩
    · exact Or.inr (Or.inl m)
    · exact Or.inr (Or.inr (Or.inl m))
  · exact Or.inr (Or.inr (Or.inr m))

/-- A condition about the rows of a table has only characters that it had before. -/
theorem mem_of_mem_conditionFor? {table condition own : String} {tables : List String} {c : Char}
    (h : conditionFor? table tables condition = some own) (m : c ∈ own.toList) :
    c ∈ condition.toList := by
  unfold conditionFor? at h
  split_ifs at h
  · cases h
    rw [replace, String.toList_ofList] at m
    rcases mem_of_mem_replaceFrom m with m | m
    · exact m
    · cases m
  · cases h
    exact m

/-- The part of a filter for a table has the characters of the filter and of the word between
conditions. -/
theorem mem_of_mem_forTable {filter table : String} {tables : List String} {c : Char}
    (h : c ∈ (forTable filter table tables).toList) :
    c ∈ filter.toList ∨ c ∈ conjunction.toList := by
  unfold forTable at h
  split_ifs at h
  · cases h
  · exact Or.inl h
  · rw [String.toList_intercalate] at h
    refine (mem_of_mem_intercalate h).symm.imp_left ?_
    rintro ⟨_, mem, m⟩
    obtain ⟨own, found, rfl⟩ := List.mem_map.mp mem
    obtain ⟨condition, piece, kept⟩ := List.mem_filterMap.mp found
    obtain ⟨_, cut, rfl⟩ := List.mem_map.mp piece
    obtain ⟨chars, among, rfl⟩ := List.mem_map.mp cut
    have m := mem_of_mem_trim (mem_of_mem_conditionFor? kept m)
    rw [String.toList_ofList] at m
    exact mem_of_mem_splitFrom among m

/-- What holds of all characters of a condition but the marks, of the characters of the tables, of
periods and of the word between conditions, holds of the part of the filter for every table. -/
theorem forall_mem_forTable {p : Char → Prop} {aliases : Aliases} {condition : Option Expr}
    (chars : ∀ e ∈ condition, ∀ text, e.compact = .ok text →
      ∀ c ∈ text.toList, c ≠ '\x60' → p c)
    (tables : ∀ pair ∈ aliases, ∀ c ∈ pair.2.toList, p c) (period : p '.')
    (word : ∀ c ∈ conjunction.toList, p c) (table : String) (others : List String) :
    ∀ c ∈ (forTable (renderOrEmpty aliases condition) table others).toList, p c := by
  intro c m
  rcases mem_of_mem_forTable m with m | m
  · cases condition with
    | none => cases m
    | some e =>
      rw [renderOrEmpty, render] at m
      cases compact : e.compact with
      | error e =>
        rw [compact] at m
        cases m
      | ok text =>
        rw [compact] at m
        rcases mem_of_mem_normalize m with ⟨m, ne⟩ | rfl | ⟨pair, given, m⟩ | m
        · exact chars e rfl text compact c m ne
        · exact period
        · exact tables pair given c m
        · exact word c m
  · exact word c m

end SqlFootprint.Filter
