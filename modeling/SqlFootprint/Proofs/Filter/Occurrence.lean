import Mathlib.Data.List.Infix
import SqlFootprint.Proofs.Filter.Comparison
import SqlFootprint.Proofs.Filter.Provenance
import SqlFootprint.Proofs.Text.Removal

/-! # What the passes leave where it is

The pass for character sets neither brings the word between conditions together nor parts it
(`infix_dropCharsets_iff`). The pass for second names parts and brings together only what ends with
a character of a second name or of a table. So it changes neither where the word stands twice, if
these have no blanks (`infix_substituteFrom_iff`), nor whether a character set stands in front of a
text, if these have no quotes (`hasIntroducer_substituteFrom`). -/

namespace SqlFootprint.Filter

open Text Sql

/-! ## Character sets in front of texts -/

/-- A character set and a quoted text stand at the front: an underscore, a letter, the other letters
and digits of a name, blanks, and a text between quotes. -/
def IntroducerAhead (cs : List Char) : Prop :=
  ∃ first name gap body after,
    cs = '_' :: first :: (name ++ gap ++ '\x27' :: (body ++ '\x27' :: after)) ∧
    first.isAlpha = true ∧ (∀ c ∈ name, isCharsetPart c = true) ∧ ∀ c ∈ gap, isBlank c = true

/-- A character set stands in front of a quoted text, and not inside a word. -/
def HasIntroducer (cs : List Char) : Prop :=
  ∃ before rest, cs = before ++ rest ∧ (∀ c ∈ before.getLast?, isWordChar c = false) ∧
    IntroducerAhead rest

/-- A blank is no letter or digit. -/
theorem isCharsetPart_of_isBlank {c : Char} (h : isBlank c = true) : isCharsetPart c = false := by
  by_contra part
  have inWord : isBoundary c = false := by
    rw [isBoundary, ← isCharsetPart, Bool.eq_true_of_not_eq_false part]
    rfl
  exact Bool.false_ne_true ((isBlank_eq_false_of_isBoundary inWord).symm.trans h)

/-- Behind the rest of a name and blanks stands a quote. -/
theorem behindName_append {name gap : List Char} (hname : ∀ c ∈ name, isCharsetPart c = true)
    (hgap : ∀ c ∈ gap, isBlank c = true) (rest : List Char) :
    behindName (name ++ gap ++ '\x27' :: rest) = '\x27' :: rest := by
  have front : (gap ++ '\x27' :: rest).dropWhile isCharsetPart = gap ++ '\x27' :: rest := by
    cases gap with
    | nil => exact List.dropWhile_cons_of_neg (by decide)
    | cons d ds =>
      exact List.dropWhile_cons_of_neg (by simp [isCharsetPart_of_isBlank (hgap d (by simp))])
  rw [behindName, List.append_assoc, List.dropWhile_append_of_pos hname, front,
    List.dropWhile_append_of_pos hgap]
  exact List.dropWhile_cons_of_neg (by decide)

/-- The pass finds a character set exactly where one stands at the front. -/
theorem introducedText?_isSome_iff {cs : List Char} :
    (introducedText? cs).isSome = true ↔ IntroducerAhead cs := by
  constructor
  · intro h
    match cs, h with
    | u :: first :: cs, h =>
      simp only [introducedText?_isSome, Bool.and_eq_true, decide_eq_true_eq] at h
      obtain ⟨⟨rfl, hfirst⟩, hopens⟩ := h
      obtain ⟨body, after, hbehind⟩ :
          ∃ body after, behindName cs = '\x27' :: (body ++ '\x27' :: after) := by
        cases hbehind : behindName cs with
        | nil => simp [hbehind, opensText] at hopens
        | cons q rest =>
          simp only [hbehind, opensText, Bool.and_eq_true, decide_eq_true_eq,
            List.contains_iff_mem] at hopens
          obtain ⟨rfl, hrest⟩ := hopens
          obtain ⟨body, after, rfl⟩ := List.append_of_mem hrest
          exact ⟨body, after, rfl⟩
      refine ⟨first, cs.takeWhile isCharsetPart, (cs.dropWhile isCharsetPart).takeWhile isBlank,
        body, after, ?_, hfirst, fun c hc => List.mem_takeWhile_imp hc,
        fun c hc => List.mem_takeWhile_imp hc⟩
      rw [← hbehind, behindName, List.append_assoc, List.takeWhile_append_dropWhile,
        List.takeWhile_append_dropWhile]
  · rintro ⟨first, name, gap, body, after, rfl, hfirst, hname, hgap⟩
    rw [introducedText?_isSome, behindName_append hname hgap]
    simp [hfirst, opensText]

/-- Whether a character set stands in front of a quoted text, where `inWord` tells whether the
character before is part of a word. -/
def introducerFrom : (inWord : Bool) → List Char → Bool
  | _, [] => false
  | inWord, c :: cs =>
    (!inWord && (introducedText? (c :: cs)).isSome) || introducerFrom (isWordChar c) cs

/-- Whether the place behind a text is inside a word. -/
def endsInWord (inWord : Bool) (before : List Char) : Bool :=
  (before.getLast?.map isWordChar).getD inWord

/-- A character set is found if and only if one stands somewhere in the text. -/
theorem introducerFrom_iff {inWord : Bool} {cs : List Char} :
    introducerFrom inWord cs = true ↔
      ∃ before rest, cs = before ++ rest ∧ endsInWord inWord before = false ∧
        IntroducerAhead rest := by
  induction cs generalizing inWord with
  | nil =>
    simp only [introducerFrom, Bool.false_eq_true, false_iff]
    rintro ⟨before, rest, hcs, -, first, name, gap, body, after, rfl, -⟩
    simp at hcs
  | cons c cs ih =>
    have later (before : List Char) :
        endsInWord inWord (c :: before) = endsInWord (isWordChar c) before := by
      cases before with
      | nil => rfl
      | cons d ds =>
        have hlast := List.getLast?_eq_some_getLast (List.cons_ne_nil d ds)
        rw [endsInWord, List.getLast?_cons_cons, endsInWord, hlast]
        rfl
    rw [introducerFrom, Bool.or_eq_true, Bool.and_eq_true, introducedText?_isSome_iff, ih]
    constructor
    · rintro (⟨hword, hahead⟩ | ⟨before, rest, rfl, hword, hahead⟩)
      · exact ⟨[], c :: cs, rfl, by simpa [endsInWord] using hword, hahead⟩
      · exact ⟨c :: before, rest, rfl, (later before).trans hword, hahead⟩
    · rintro ⟨before, rest, hcs, hword, hahead⟩
      cases before with
      | nil =>
        obtain rfl : c :: cs = rest := hcs
        exact .inl ⟨by simpa [endsInWord] using hword, hahead⟩
      | cons d before =>
        obtain ⟨rfl, rfl⟩ := List.cons.inj hcs
        exact .inr ⟨before, rest, rfl, (later before).symm.trans hword, hahead⟩

theorem hasIntroducer_iff {cs : List Char} :
    HasIntroducer cs ↔ introducerFrom false cs = true := by
  rw [introducerFrom_iff, HasIntroducer]
  refine exists_congr fun before => exists_congr fun rest => and_congr_right fun _ =>
    and_congr_left fun _ => ?_
  cases hlast : before.getLast? <;> simp [endsInWord, hlast]

/-! ## Texts with tables for second names -/

section

variable {piece before after : List Char} {d : Char} (hd : d ∉ piece) (ne : piece ≠ [])

include hd ne

/-- A piece stands in no text together with a character in front that it does not have. -/
theorem infix_cons_iff_of_notMem : piece <:+: d :: after ↔ piece <:+: after := by
  rw [List.infix_cons_iff, or_iff_right]
  intro front
  obtain ⟨c, cs, rfl⟩ := List.exists_cons_of_ne_nil ne
  exact hd (by simp [(List.cons_prefix_cons.mp front).1])

/-- Where a character that is not in a piece cuts a text, the piece stands on one side of it. -/
theorem infix_append_cons_iff :
    piece <:+: before ++ d :: after ↔ piece <:+: before ∨ piece <:+: after := by
  have apart : ¬Astride piece before (d :: after) := by
    rintro ⟨left, right, -, some, rfl, -, front⟩
    obtain ⟨c, cs, rfl⟩ := List.exists_cons_of_ne_nil some
    exact hd (by simp [(List.cons_prefix_cons.mp front).1])
  rw [infix_append_iff, infix_cons_iff_of_notMem hd ne, or_iff_left apart]

end

/-- Of two different characters, one comes first in a text. -/
theorem append_cons_ne {piece front cs ds : List Char} {z d : Char} (hd : d ∉ piece)
    (hz : z ∉ front) (ne : z ≠ d) : piece ++ z :: cs ≠ front ++ d :: ds := by
  intro eq
  rcases List.append_eq_append_iff.mp eq with ⟨more, rfl, back⟩ | ⟨more, rfl, back⟩
  · cases more with
    | nil => exact ne (List.cons.inj back).1
    | cons c more => exact hz (by simp [(List.cons.inj back).1])
  · cases more with
    | nil => exact ne (List.cons.inj back).1.symm
    | cons c more => exact hd (by simp [(List.cons.inj back).1])

/-- A text with some second names, each with its period behind it, written as their tables. -/
inductive Resolved (aliases : Aliases) : List Char → List Char → Prop where
  /-- Nothing is left of nothing. -/
  | nil : Resolved aliases [] []
  /-- A character is kept. -/
  | keep (c : Char) {cs ds : List Char} (h : Resolved aliases cs ds) :
      Resolved aliases (c :: cs) (c :: ds)
  /-- A table is written for a second name. -/
  | table {asName table : String} (given : (asName, table) ∈ aliases) {cs ds : List Char}
      (h : Resolved aliases cs ds) :
      Resolved aliases (asName.toList ++ '.' :: cs) (table.toList ++ '.' :: ds)

/-- The pass writes tables for second names. -/
theorem resolved_substituteFrom (aliases : Aliases) (fresh : Bool) (cs : List Char) :
    Resolved aliases cs (substituteFrom aliases 0 fresh cs) := by
  -- a second name may take away several characters at once, so the induction is on the length
  induction size : cs.length using Nat.strongRecOn generalizing cs fresh with
  | ind size ih =>
    subst size
    cases cs with
    | nil =>
      rw [substituteFrom_nil]
      exact .nil
    | cons c cs =>
      rw [substituteFrom_cons]
      split
      · next asName table found =>
        have ahead : aliasAhead? aliases (c :: cs) = some (asName, table) := by
          cases fresh with
          | true => exact found
          | false => cases found
        obtain ⟨given, rest, eq⟩ := mem_of_aliasAhead? aliases ahead
        have behind : cs.drop asName.length = rest := by
          have cut := congrArg (List.drop (asName.length + 1)) eq
          rw [List.drop_succ_cons, List.drop_left' (by simp [String.length_toList])] at cut
          exact cut.symm
        have shorter : rest.length < (c :: cs).length := by
          rw [← eq, List.length_append, List.length_append, List.length_singleton]
          omega
        rw [behind, ← eq, List.append_assoc]
        exact .table given (ih _ shorter false rest rfl)
      · exact .keep c (ih _ (by simp) _ cs rfl)

namespace Resolved

variable {aliases : Aliases} {cs ds : List Char}

/-- Second names and tables change places. -/
theorem symm (h : Resolved aliases cs ds) : Resolved (aliases.map Prod.swap) ds cs := by
  induction h with
  | nil => exact .nil
  | keep c _ ih => exact ih.keep c
  | @table asName table given _ _ _ ih =>
    have swapped : (table, asName) ∈ aliases.map Prod.swap := List.mem_map_of_mem given
    exact ih.table swapped

section

variable {z : Char} (free : ∀ pair ∈ aliases, z ∉ pair.1.toList ∧ z ∉ pair.2.toList)
  (period : z ≠ '.')

include free period

/-- A character that is in no second name and no table stays. -/
theorem mem (h : Resolved aliases cs ds) (m : z ∈ cs) : z ∈ ds := by
  induction h with
  | nil => exact m
  | keep c _ ih =>
    rcases List.mem_cons.mp m with rfl | m
    · exact List.mem_cons_self
    · exact List.mem_cons_of_mem c (ih m)
  | table given _ ih =>
    rcases List.mem_append.mp m with m | m
    · exact absurd m (free _ given).1
    · rcases List.mem_cons.mp m with same | m
      · exact absurd same period
      · exact List.mem_append_right _ (List.mem_cons_of_mem _ (ih m))

/-- A piece without a period in front of such a character stays, and what stands behind it is
written with tables. -/
theorem exists_of_append {piece : List Char} (noPeriod : '.' ∉ piece)
    (h : Resolved aliases (piece ++ z :: cs) ds) :
    ∃ rest, ds = piece ++ z :: rest ∧ Resolved aliases cs rest := by
  generalize eq : piece ++ z :: cs = text at h
  induction h generalizing piece with
  | nil => simp at eq
  | @keep c cs ds h ih =>
    cases piece with
    | nil =>
      obtain ⟨rfl, rfl⟩ := List.cons.inj eq
      exact ⟨ds, rfl, h⟩
    | cons d piece =>
      obtain ⟨rfl, later⟩ := List.cons.inj eq
      obtain ⟨rest, rfl, hrest⟩ := ih (fun m => noPeriod (List.mem_cons_of_mem d m)) later
      exact ⟨rest, rfl, hrest⟩
  | table given _ _ => exact absurd eq (append_cons_ne noPeriod (free _ given).1 period)

/-- A piece without a period that ends with such a character stays wherever it stands. -/
theorem isInfix {piece : List Char} (noPeriod : '.' ∉ piece) (h : Resolved aliases cs ds)
    (inside : piece ++ [z] <:+: cs) : piece ++ [z] <:+: ds := by
  induction h with
  | nil => exact inside
  | @keep c cs ds h ih =>
    rw [List.infix_cons_iff] at inside ⊢
    rcases inside with ⟨rest, front⟩ | inside
    · rw [List.append_assoc, List.singleton_append] at front
      obtain ⟨kept, eq, -⟩ := exists_of_append free period noPeriod (front ▸ h.keep c)
      exact .inl ⟨kept, by rw [List.append_assoc, List.singleton_append, eq]⟩
    · exact .inr (ih inside)
  | @table asName table given cs ds _ ih =>
    have clean : '.' ∉ piece ++ [z] := by simp [noPeriod, period.symm]
    rcases (infix_append_cons_iff clean (by simp)).mp inside with inside | inside
    · exact absurd (inside.subset (by simp)) (free _ given).1
    · exact (ih inside).trans ((List.suffix_cons '.' ds).trans (List.suffix_append _ _)).isInfix

end

end Resolved

/-- What is so for second names and tables is so when they change places. -/
theorem forall_swap {aliases : Aliases} {z : Char}
    (free : ∀ pair ∈ aliases, z ∉ pair.1.toList ∧ z ∉ pair.2.toList) :
    ∀ pair ∈ aliases.map Prod.swap, z ∉ pair.1.toList ∧ z ∉ pair.2.toList :=
  List.forall_mem_map.mpr fun pair m => (free pair m).symm

/-- A piece without a period that ends with a character of no second name and no table is brought
together nowhere by the pass for second names, and parted nowhere. -/
theorem infix_substituteFrom_iff {aliases : Aliases} {z : Char}
    (free : ∀ pair ∈ aliases, z ∉ pair.1.toList ∧ z ∉ pair.2.toList) (period : z ≠ '.')
    {piece : List Char} (noPeriod : '.' ∉ piece) (fresh : Bool) (cs : List Char) :
    piece ++ [z] <:+: substituteFrom aliases 0 fresh cs ↔ piece ++ [z] <:+: cs := by
  have resolved := resolved_substituteFrom aliases fresh cs
  exact ⟨resolved.symm.isInfix (forall_swap free) period noPeriod,
    resolved.isInfix free period noPeriod⟩

/-! ### Character sets -/

/-- A character set with the blanks behind it has no period. -/
theorem period_notMem_introducer {first : Char} {name gap : List Char}
    (letter : first.isAlpha = true) (parts : ∀ c ∈ name, isCharsetPart c = true)
    (blanks : ∀ c ∈ gap, isBlank c = true) : '.' ∉ '_' :: first :: (name ++ gap) := by
  have hfirst : '.' ≠ first := fun same => absurd letter (same ▸ by decide)
  have hname : '.' ∉ name := fun m => absurd (parts _ m) (by decide)
  have hgap : '.' ∉ gap := fun m => absurd (blanks _ m) (by decide)
  simp [hfirst, hname, hgap]

/-- A character set in front of a text stays in front of it. -/
theorem Resolved.introducerAhead {aliases : Aliases} (free : QuoteFree aliases)
    {cs ds : List Char} (h : Resolved aliases cs ds) (ahead : IntroducerAhead cs) :
    IntroducerAhead ds := by
  obtain ⟨first, name, gap, body, after, rfl, letter, parts, blanks⟩ := ahead
  obtain ⟨rest, rfl, behind⟩ :=
    exists_of_append free (by decide) (period_notMem_introducer letter parts blanks) h
  have quote : '\x27' ∈ rest := behind.mem free (by decide) (by simp)
  obtain ⟨body', after', rfl⟩ := List.append_of_mem quote
  exact ⟨first, name, gap, body', after', rfl, letter, parts, blanks⟩

/-- In front of a period no character set begins in a text without quotes. -/
theorem introducerFrom_append_period {front : List Char} (h : '\x27' ∉ front) (inWord : Bool)
    (cs : List Char) : introducerFrom inWord (front ++ '.' :: cs) = introducerFrom false cs := by
  induction front generalizing inWord with
  | nil =>
    rw [List.nil_append, introducerFrom, introducedText?_of_ne (by decide), Bool.and_false]
    rfl
  | cons c front ih =>
    have none : (introducedText? (c :: (front ++ '.' :: cs))).isSome = false := by
      rw [Bool.eq_false_iff, ne_eq, introducedText?_isSome_iff]
      rintro ⟨first, name, gap, body, after, eq, letter, parts, blanks⟩
      exact append_cons_ne (period_notMem_introducer letter parts blanks) h (by decide) eq.symm
    rw [List.cons_append, introducerFrom, none, Bool.and_false, Bool.false_or,
      ih fun m => h (List.mem_cons_of_mem c m)]

/-- A character set that is found is still found. -/
theorem Resolved.introducerFrom {aliases : Aliases} (free : QuoteFree aliases)
    {cs ds : List Char} (h : Resolved aliases cs ds) {inWord : Bool}
    (found : Filter.introducerFrom inWord cs = true) : Filter.introducerFrom inWord ds = true := by
  induction h generalizing inWord with
  | nil => exact found
  | keep c h ih =>
    rw [Filter.introducerFrom, Bool.or_eq_true, Bool.and_eq_true, introducedText?_isSome_iff]
      at found ⊢
    rcases found with ⟨outside, ahead⟩ | found
    · exact .inl ⟨outside, (h.keep c).introducerAhead free ahead⟩
    · exact .inr (ih found)
  | table given _ ih =>
    rw [introducerFrom_append_period (free _ given).1] at found
    rw [introducerFrom_append_period (free _ given).2]
    exact ih found

/-- The pass for second names neither brings in a character set nor takes one away, if no second
name and no table has a quote. -/
theorem hasIntroducer_substituteFrom {aliases : Aliases} (free : QuoteFree aliases) (fresh : Bool)
    (cs : List Char) : HasIntroducer (substituteFrom aliases 0 fresh cs) ↔ HasIntroducer cs := by
  have resolved := resolved_substituteFrom aliases fresh cs
  rw [hasIntroducer_iff, hasIntroducer_iff]
  exact ⟨resolved.symm.introducerFrom (forall_swap free), resolved.introducerFrom free⟩

/-! ## The word between conditions without character sets -/

namespace Dropped

variable {cs ds word : List Char}

/-- What has neither a quote nor an underscore stands in front exactly if it did before. -/
theorem prefix_iff (h : Dropped cs ds) (quote : '\x27' ∉ word) (underscore : '_' ∉ word) :
    word <+: ds ↔ word <+: cs := by
  induction h generalizing word with
  | nil => rfl
  | keep c _ ih =>
    cases word with
    | nil => simp
    | cons w word =>
      rw [List.cons_prefix_cons, List.cons_prefix_cons,
        ih (fun m => quote (List.mem_cons_of_mem w m))
          fun m => underscore (List.mem_cons_of_mem w m)]
  | drop _ _ _ ih =>
    rw [ih quote underscore]
    cases word with
    | nil => simp
    | cons w word =>
      rw [List.cons_prefix_cons, List.cons_prefix_cons]
      exact iff_of_false (fun h => quote (by simp [h.1])) fun h => underscore (by simp [h.1])

/-- No character set with the blanks behind it holds the word between conditions twice. -/
theorem not_infix_name {name gap : List Char} (hname : ∀ c ∈ name, isCharsetPart c = true)
    (hgap : ∀ c ∈ gap, isBlank c = true) : ¬" AND AND ".toList <:+: '_' :: (name ++ gap) := by
  intro inside
  -- a blank would stand in front of a letter
  have inside : [' ', 'A'] <:+: '_' :: name ++ gap :=
    (show [' ', 'A'] <:+: " AND AND ".toList from ⟨[], _, rfl⟩).trans inside
  have noBlank : ' ' ∉ '_' :: name := by
    have blank : ' ' ∉ name := fun m => absurd (hname _ m) (by decide)
    simp [blank]
  have noLetter : 'A' ∉ gap := fun m => absurd (hgap _ m) (by decide)
  rcases infix_append_iff.mp inside with h | h | ⟨left, right, some, ne, eq, suffix, front⟩
  · exact noBlank (h.subset (by simp))
  · exact noLetter (h.subset (by simp))
  · obtain ⟨c, left, rfl⟩ := List.exists_cons_of_ne_nil some
    obtain ⟨rfl, -⟩ := List.cons.inj eq
    exact noBlank (suffix.subset (by simp))

/-- The word between conditions stands twice exactly if it did before. -/
theorem infix_iff (h : Dropped cs ds) :
    " AND AND ".toList <:+: ds ↔ " AND AND ".toList <:+: cs := by
  have quote : '\x27' ∉ " AND AND ".toList := by decide
  have underscore : '_' ∉ " AND AND ".toList := by decide
  induction h with
  | nil => rfl
  | keep c h ih =>
    rw [List.infix_cons_iff, List.infix_cons_iff, (h.keep c).prefix_iff quote underscore]
    exact or_congr_right ih
  | drop hname hgap _ ih =>
    refine ih.trans ?_
    rw [← List.cons_append, infix_append_cons_iff quote (by decide),
      or_iff_right (not_infix_name hname hgap)]
    exact infix_cons_iff_of_notMem quote (by decide)

end Dropped

/-- The pass for character sets neither brings the word between conditions together nor parts it. -/
theorem infix_dropCharsets_iff (cs : List Char) :
    " AND AND ".toList <:+: dropCharsets cs ↔ " AND AND ".toList <:+: cs :=
  (dropped_dropCharsets cs).infix_iff

end SqlFootprint.Filter
