import Mathlib.Data.List.Basic
import SqlFootprint.Text.Substring

/-! # Stretches of text between separators

A character that is no part of a fixed text separates the places where that text can stand. Hence
replacing works stretch by stretch (`replaceFrom_append_cons`), and a list of pieces that lack the
first character of a separator is read back from the joined text (`splitFrom_intercalate`). -/

namespace SqlFootprint.Text

/-! ## Characters outside the pattern -/

/-- A text without a character stands in front of a text exactly if it stands in front of what comes
before the first such character. -/
theorem isPrefixOf_append_cons {pattern : List Char} {d : Char} (hd : d ∉ pattern)
    (before after : List Char) :
    pattern.isPrefixOf (before ++ d :: after) = pattern.isPrefixOf before := by
  -- the pattern is used up in front of `d`, or it fails there at the latest
  induction pattern generalizing before with
  | nil => simp
  | cons p ps ih =>
    obtain ⟨ne, hps⟩ := not_or.mp (mt List.mem_cons.mpr hd)
    cases before with
    | nil =>
      have : (p == d) = false := beq_eq_false_iff_ne.mpr (Ne.symm ne)
      simp [List.isPrefixOf_cons_cons, this]
    | cons c cs => simp only [List.cons_append, List.isPrefixOf_cons_cons, ih hps]

/-- Replacing after `skip` characters treats the stretches around a separator one by one. -/
theorem replaceFrom_skip_append_cons {pattern : List Char} (hp : pattern ≠ []) (new : List Char)
    {d : Char} (hd : d ∉ pattern) (before after : List Char) {skip : Nat}
    (hskip : skip ≤ before.length) :
    replaceFrom pattern new skip (before ++ d :: after) =
      replaceFrom pattern new skip before ++ d :: replaceFrom pattern new 0 after := by
  induction before generalizing skip with
  | nil =>
    obtain rfl : skip = 0 := Nat.le_zero.mp hskip
    have miss : pattern.isPrefixOf (d :: after) = false := by
      obtain ⟨p, ps, rfl⟩ := List.exists_cons_of_ne_nil hp
      exact isPrefixOf_append_cons hd [] after
    simp [replaceFrom, miss]
  | cons c cs ih =>
    cases skip with
    | succ n => simpa [replaceFrom] using ih (Nat.le_of_succ_le_succ hskip)
    | zero =>
      have same := isPrefixOf_append_cons hd (c :: cs) after
      rw [List.cons_append] at same ⊢
      rw [replaceFrom, replaceFrom, same]
      by_cases front : pattern.isPrefixOf (c :: cs) = true
      · -- the occurrence lies in front of the separator, so what it skips does too
        have fits : pattern.length - 1 ≤ cs.length := by
          have := (List.isPrefixOf_iff_prefix.mp front).length_le
          rw [List.length_cons] at this
          omega
        rw [if_pos front, if_pos front, ih fits, List.append_assoc]
      · rw [if_neg front, if_neg front, ih (Nat.zero_le _), List.cons_append]

/-- Replacing treats the stretches around a separator one by one. -/
theorem replaceFrom_append_cons {pattern : List Char} (hp : pattern ≠ []) (new : List Char)
    {d : Char} (hd : d ∉ pattern) (before after : List Char) :
    replaceFrom pattern new 0 (before ++ d :: after) =
      replaceFrom pattern new 0 before ++ d :: replaceFrom pattern new 0 after :=
  replaceFrom_skip_append_cons hp new hd before after (Nat.zero_le _)

/-- What stands in front of the first separator of a text. -/
theorem eq_of_append_cons_eq {d : Char} {before before' after after' : List Char}
    (h : d ∉ before) (h' : d ∉ before')
    (eq : before ++ d :: after = before' ++ d :: after') : before = before' := by
  -- both are what the text holds up to its first separator
  have cut (cs rest : List Char) (hcs : d ∉ cs) : (cs ++ d :: rest).takeWhile (· ≠ d) = cs := by
    have keeps : ∀ c ∈ cs, decide (c ≠ d) = true := fun c m =>
      decide_eq_true fun e => hcs (e ▸ m)
    rw [List.takeWhile_append_of_pos keeps]
    simp
  rw [← cut before after h, eq, cut before' after' h']

/-! ## What replacing leaves alone -/

/-- Replacing brings in no characters but those of the new text. -/
theorem mem_of_mem_replaceFrom {pattern new text : List Char} {skip : Nat} {c : Char}
    (h : c ∈ replaceFrom pattern new skip text) : c ∈ text ∨ c ∈ new := by
  induction text generalizing skip with
  | nil =>
    rw [replaceFrom_nil] at h
    cases h
  | cons d ds ih =>
    -- whatever is skipped, what comes of the rest is covered by the induction
    have later {n : Nat} (m : c ∈ replaceFrom pattern new n ds) : c ∈ d :: ds ∨ c ∈ new := by
      rcases ih m with m | m
      · exact Or.inl (List.mem_cons_of_mem d m)
      · exact Or.inr m
    cases skip with
    | succ n => exact later h
    | zero =>
      rw [replaceFrom] at h
      split at h
      · rcases List.mem_append.mp h with m | m
        · exact Or.inr m
        · exact later m
      · rcases List.mem_cons.mp h with rfl | m
        · exact Or.inl List.mem_cons_self
        · exact later m

/-- Replacing by a text of the same length changes a text exactly if the pattern occurs in it. -/
theorem replaceFrom_eq_self_iff {pattern new : List Char} (ne : new ≠ pattern)
    (same : new.length = pattern.length) {text : List Char} :
    replaceFrom pattern new 0 text = text ↔ occursIn pattern text = false := by
  constructor
  · intro h
    induction text with
    | nil =>
      -- an empty pattern would be the new text
      apply Bool.eq_false_iff.mpr
      intro empty
      obtain rfl : pattern = [] := List.isEmpty_iff.mp empty
      exact ne (List.length_eq_zero_iff.mp same)
    | cons c cs ih =>
      rw [replaceFrom] at h
      by_cases front : pattern.isPrefixOf (c :: cs) = true
      · -- the new text would stand where the pattern stood, and they differ
        rw [if_pos front] at h
        obtain ⟨rest, eq⟩ := List.isPrefixOf_iff_prefix.mp front
        exact absurd (List.append_inj_left (h.trans eq.symm) same) ne
      · rw [if_neg front] at h
        rw [occursIn, ih (List.cons.inj h).2, Bool.eq_false_iff.mpr front]
        rfl
  · exact replaceFrom_of_not_occursIn new

/-! ## Pieces without the first character of the pattern -/

section Pieces

variable {p : Char} {ps : List Char}

/-- A pattern does not stand in front of a text that begins with another character. -/
theorem not_isPrefixOf_cons {c : Char} (ne : p ≠ c) (cs : List Char) :
    ¬(p :: ps).isPrefixOf (c :: cs) = true := by
  simp [List.isPrefixOf_cons_cons, ne]

/-- Nothing is replaced in a piece that lacks the first character of the pattern. -/
theorem replaceFrom_append_of_notMem (new : List Char) {piece : List Char} (h : p ∉ piece)
    (rest : List Char) :
    replaceFrom (p :: ps) new 0 (piece ++ rest) = piece ++ replaceFrom (p :: ps) new 0 rest := by
  induction piece with
  | nil => rfl
  | cons c cs ih =>
    obtain ⟨ne, hcs⟩ := not_or.mp (mt List.mem_cons.mpr h)
    rw [List.cons_append, replaceFrom, if_neg (not_isPrefixOf_cons ne _), ih hcs, List.cons_append]

/-- Between pieces that lack its first character, every pattern is replaced. -/
theorem replaceFrom_intercalate (new : List Char) {pieces : List (List Char)}
    (h : ∀ piece ∈ pieces, p ∉ piece) :
    replaceFrom (p :: ps) new 0 ((p :: ps).intercalate pieces) = new.intercalate pieces := by
  induction pieces with
  | nil => rfl
  | cons piece pieces ih =>
    have hpiece : p ∉ piece := h piece List.mem_cons_self
    have hpieces : ∀ other ∈ pieces, p ∉ other := fun other m => h other (List.mem_cons_of_mem _ m)
    cases pieces with
    | nil =>
      -- nothing stands behind the last piece
      have same : replaceFrom (p :: ps) new 0 (piece ++ []) = piece ++ [] :=
        replaceFrom_append_of_notMem new hpiece []
      simpa using same
    | cons next more =>
      rw [List.intercalate_cons_cons, List.intercalate_cons_cons, List.append_assoc,
        replaceFrom_append_of_notMem new hpiece, replaceFrom_append (List.cons_ne_nil p ps),
        ih hpieces, List.append_assoc]

/-- Passing over `skip` characters drops them. -/
theorem splitFrom_skip (pattern : List Char) (skip : Nat) (text : List Char) :
    splitFrom pattern skip text = splitFrom pattern 0 (text.drop skip) := by
  induction text generalizing skip with
  | nil => cases skip <;> rfl
  | cons c cs ih =>
    cases skip with
    | zero => rfl
    | succ n => simpa [splitFrom] using ih n

/-- The first piece ends where the pattern stands for the first time. -/
theorem splitFrom_append_pattern {piece : List Char} (h : p ∉ piece) (rest : List Char) :
    splitFrom (p :: ps) 0 (piece ++ (p :: ps) ++ rest) = piece :: splitFrom (p :: ps) 0 rest := by
  induction piece with
  | nil =>
    -- the pattern is counted off in `skip`, and its first character is taken at once
    have front : (p :: ps).isPrefixOf (p :: (ps ++ rest)) = true :=
      List.isPrefixOf_iff_prefix.mpr ⟨rest, rfl⟩
    rw [List.nil_append, List.cons_append, splitFrom, if_pos front, splitFrom_skip,
      List.length_cons, Nat.add_sub_cancel, List.drop_left]
  | cons c cs ih =>
    obtain ⟨ne, hcs⟩ := not_or.mp (mt List.mem_cons.mpr h)
    rw [List.cons_append, List.cons_append, splitFrom, if_neg (not_isPrefixOf_cons ne _), ih hcs]

/-- A piece without the pattern is not split. -/
theorem splitFrom_of_notMem {piece : List Char} (h : p ∉ piece) :
    splitFrom (p :: ps) 0 piece = [piece] := by
  induction piece with
  | nil => rfl
  | cons c cs ih =>
    obtain ⟨ne, hcs⟩ := not_or.mp (mt List.mem_cons.mpr h)
    rw [splitFrom, if_neg (not_isPrefixOf_cons ne cs), ih hcs]

/-- Splitting gives back the pieces that were joined. -/
theorem splitFrom_intercalate {pieces : List (List Char)} (hne : pieces ≠ [])
    (h : ∀ piece ∈ pieces, p ∉ piece) :
    splitFrom (p :: ps) 0 ((p :: ps).intercalate pieces) = pieces := by
  induction pieces with
  | nil => exact absurd rfl hne
  | cons piece pieces ih =>
    have hpiece : p ∉ piece := h piece List.mem_cons_self
    cases pieces with
    | nil => rw [List.intercalate_singleton, splitFrom_of_notMem hpiece]
    | cons next more =>
      rw [List.intercalate_cons_cons, splitFrom_append_pattern hpiece,
        ih (List.cons_ne_nil next more) fun other m => h other (List.mem_cons_of_mem _ m)]

end Pieces

/-! ## A name in front of the only separator -/

/-- Where a separator stands once, a text that ends with it occurs exactly if what comes before the
separator ends with the rest of that text. -/
theorem append_singleton_infix_iff {name before after : List Char} {d : Char}
    (hbefore : d ∉ before) (hafter : d ∉ after) :
    name ++ [d] <:+: before ++ d :: after ↔ name <:+ before := by
  constructor
  · rintro ⟨left, right, same⟩
    have same' : left ++ name ++ d :: right = before ++ d :: after := by
      rw [← same]
      simp
    -- there is only one separator, so the two sides agree around it
    obtain ⟨eq, -, -⟩ := (List.append_cons_inj_of_notMem hbefore hafter).mp same'.symm
    exact ⟨left, eq.symm⟩
  · rintro ⟨left, rfl⟩
    exact ⟨left, after, by simp⟩

end SqlFootprint.Text
