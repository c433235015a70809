import Mathlib.Data.List.Infix
import SqlFootprint.Batch
import SqlFootprint.Proofs.Dump.Commands
import SqlFootprint.Proofs.Filter.Occurrence

/-! # What a filter in normal form may hold

A filter in normal form should hold no mark around a name, no word between conditions in upper case
and no character set in front of a text. Each pass runs once, so that a later pass can bring back
what an earlier one removed. This file tells exactly which filters are free of all three, and where
no second name and no table has a blank or a quote, tells it by the text of the condition and the
tables (`isCanonical_filter`). -/

namespace SqlFootprint.Filter

open Text Sql

/-! ## The word between conditions -/

/-- The word between conditions written in lower case, from left to right. -/
inductive Lowered : List Char → List Char → Prop where
  /-- Nothing is left. -/
  | nil : Lowered [] []
  /-- The word stands in front. -/
  | word {cs ds : List Char} (rest : Lowered cs ds) :
      Lowered (' ' :: 'A' :: 'N' :: 'D' :: ' ' :: cs) (' ' :: 'a' :: 'n' :: 'd' :: ' ' :: ds)
  /-- A character is kept where the word does not stand. -/
  | keep {c : Char} {cs ds : List Char} (away : ¬" AND ".toList <+: c :: cs)
      (rest : Lowered cs ds) : Lowered (c :: cs) (c :: ds)

/-- The pass writes the word in lower case. -/
theorem lowered_lowerWord (cs : List Char) : Lowered cs (lowerWord cs) := by
  induction size : cs.length using Nat.strongRecOn generalizing cs with
  | ind size ih =>
    subst size
    cases cs with
    | nil => exact .nil
    | cons c cs =>
      by_cases front : " AND ".toList <+: c :: cs
      · obtain ⟨rest, hrest⟩ := front
        rw [← hrest, lowerWord, replaceFrom_append (by decide)]
        exact .word (ih rest.length (by simp [← hrest]; omega) rest rfl)
      · have step : lowerWord (c :: cs) = c :: lowerWord cs := by
          rw [lowerWord, replaceFrom, if_neg (by rwa [List.isPrefixOf_iff_prefix]), lowerWord]
        rw [step]
        exact .keep front (ih cs.length (by simp) cs rfl)

namespace Lowered

variable {cs ds : List Char}

/-- A character that is not in the word stays or stays away. -/
theorem mem_iff {c : Char} (h : Lowered cs ds) (hc : c ∉ " AND ".toList ++ " and ".toList) :
    c ∈ ds ↔ c ∈ cs := by
  simp only [String.reduceToList, List.cons_append, List.nil_append, List.mem_cons,
    List.not_mem_nil, or_false, not_or] at hc
  induction h with
  | nil => rfl
  | word _ ih => simp [hc, ih]
  | keep _ _ ih => simp [ih]

/-- A word followed by a blank stands in front of the result exactly if it did before, unless the
word has a blank itself. -/
theorem prefix_iff (h : Lowered cs ds) {word : List Char} (hword : ' ' ∉ word) :
    word ++ [' '] <+: ds ↔ word ++ [' '] <+: cs := by
  induction word generalizing cs ds with
  | nil => cases h <;> simp [List.cons_prefix_cons]
  | cons w word ih =>
    obtain ⟨hw, hword⟩ : ' ' ≠ w ∧ ' ' ∉ word := by simpa using hword
    cases h with
    | nil => rfl
    | word => simp [List.cons_prefix_cons, hw.symm]
    | keep _ rest =>
      rw [List.cons_append, List.cons_prefix_cons, List.cons_prefix_cons, ih rest hword]

/-- The word is left exactly where it stood twice, with one blank between. -/
theorem infix_iff (h : Lowered cs ds) :
    " AND ".toList <:+: ds ↔ " AND AND ".toList <:+: cs := by
  -- behind a blank the word goes on in the result exactly if it did before
  have ahead {cs ds : List Char} (rest : Lowered cs ds) :
      ['A', 'N', 'D', ' '] <+: ds ↔ ['A', 'N', 'D', ' '] <+: cs :=
    @prefix_iff _ _ rest ['A', 'N', 'D'] (by decide)
  have once {cs : List Char} (twice : ['A', 'N', 'D', ' ', 'A', 'N', 'D', ' '] <+: cs) :
      ['A', 'N', 'D', ' '] <+: cs :=
    (List.prefix_append ['A', 'N', 'D', ' '] ['A', 'N', 'D', ' ']).trans twice
  induction h with
  | nil => simp
  | @word cs ds rest ih =>
    have := ahead rest
    have := @once cs
    simp [List.infix_cons_iff, List.cons_prefix_cons] at ih ⊢
    tauto
  | @keep c cs ds away rest ih =>
    have := ahead rest
    have := @once cs
    simp [List.infix_cons_iff, List.cons_prefix_cons] at ih away ⊢
    tauto

/-- What does not tell the letters of the word apart does not see the pass. -/
theorem map_eq {β : Type} {f : Char → β} (h : Lowered cs ds) (hA : f 'A' = f 'a')
    (hN : f 'N' = f 'n') (hD : f 'D' = f 'd') : ds.map f = cs.map f := by
  induction h with
  | nil => rfl
  | word _ ih => simp [ih, hA, hN, hD]
  | keep _ _ ih => simp [ih]

end Lowered

/-! ### Character sets and the word -/

/-- A character with the letters of the word in lower case. -/
def lowered (c : Char) : Char :=
  if c = 'A' then 'a' else if c = 'N' then 'n' else if c = 'D' then 'd' else c

/-- A property that does not tell the letters of the word apart. -/
theorem comp_lowered {β : Type} {p : Char → β} (hA : p 'A' = p 'a') (hN : p 'N' = p 'n')
    (hD : p 'D' = p 'd') : p ∘ lowered = p := by
  funext c
  simp only [Function.comp_apply, lowered]
  split_ifs with isA isN isD
  · rw [isA, hA]
  · rw [isN, hN]
  · rw [isD, hD]
  · rfl

theorem lowered_eq_iff {c d : Char} (hd : d ∉ ['A', 'N', 'D', 'a', 'n', 'd']) :
    lowered c = d ↔ c = d := by
  simp only [List.mem_cons, List.not_mem_nil, or_false, not_or] at hd
  obtain ⟨upperA, upperN, upperD, lowerA, lowerN, lowerD⟩ := hd
  unfold lowered
  split_ifs with isA isN isD
  · exact isA ▸ iff_of_false (Ne.symm lowerA) (Ne.symm upperA)
  · exact isN ▸ iff_of_false (Ne.symm lowerN) (Ne.symm upperN)
  · exact isD ▸ iff_of_false (Ne.symm lowerD) (Ne.symm upperD)
  · rfl

/-- A character set is found in a text exactly if one is found when letters of the word are written
in lower case. -/
theorem introducerFrom_map_lowered (inWord : Bool) (cs : List Char) :
    introducerFrom inWord (cs.map lowered) = introducerFrom inWord cs := by
  have opens (cs : List Char) : opensText (cs.map lowered) = opensText cs := by
    cases cs with
    | nil => rfl
    | cons q body =>
      have hbody : (body.map lowered).contains '\x27' = body.contains '\x27' := by
        rw [Bool.eq_iff_iff, List.contains_iff_mem, List.contains_iff_mem, List.mem_map]
        simp only [@lowered_eq_iff _ '\x27' (by decide), exists_eq_right]
      rw [List.map_cons, opensText, opensText, hbody]
      simp only [@lowered_eq_iff _ '\x27' (by decide)]
  have behind (cs : List Char) : behindName (cs.map lowered) = (behindName cs).map lowered := by
    rw [behindName, List.dropWhile_map, List.dropWhile_map,
      comp_lowered (p := isCharsetPart) (by decide) (by decide) (by decide),
      comp_lowered (p := isBlank) (by decide) (by decide) (by decide), behindName]
  have isSome (c : Char) (cs : List Char) :
      (introducedText? (lowered c :: cs.map lowered)).isSome =
        (introducedText? (c :: cs)).isSome := by
    cases cs with
    | nil => rfl
    | cons first cs =>
      have hfirst : (lowered first).isAlpha = first.isAlpha :=
        congrFun (comp_lowered (p := Char.isAlpha) (by decide) (by decide) (by decide)) first
      rw [List.map_cons, introducedText?_isSome, introducedText?_isSome, behind, opens, hfirst]
      simp only [@lowered_eq_iff _ '_' (by decide)]
  induction cs generalizing inWord with
  | nil => rfl
  | cons c cs ih =>
    have hword : isWordChar (lowered c) = isWordChar c :=
      congrFun (comp_lowered (p := isWordChar) (by decide) (by decide) (by decide)) c
    rw [List.map_cons, introducerFrom, introducerFrom, isSome, hword, ih]

/-- Writing the word in lower case neither brings in a character set nor takes one away. -/
theorem hasIntroducer_lowerWord {cs : List Char} :
    HasIntroducer (lowerWord cs) ↔ HasIntroducer cs := by
  have hmap := (lowered_lowerWord cs).map_eq (f := lowered) rfl rfl rfl
  rw [hasIntroducer_iff, hasIntroducer_iff, ← introducerFrom_map_lowered, hmap,
    introducerFrom_map_lowered]

/-! ## Tables that are written for second names -/

/-- The tables that the pass for second names writes into a text, after `skip` characters; `fresh`
tells whether a second name may begin. -/
def writtenTables (aliases : Aliases) : (skip : Nat) → (fresh : Bool) → List Char → List String
  | _, _, [] => []
  | skip + 1, _, _ :: cs => writtenTables aliases skip false cs
  | 0, fresh, c :: cs =>
    match if fresh then aliasAhead? aliases (c :: cs) else none with
    | some (asName, table) => table :: writtenTables aliases asName.length false cs
    | none => writtenTables aliases 0 (isBoundary c) cs

section Written

variable {aliases : Aliases}

@[simp] theorem writtenTables_nil (skip : Nat) (fresh : Bool) :
    writtenTables aliases skip fresh [] = [] := by
  cases skip <;> rfl

/-- Passing over `skip` characters drops them. -/
theorem writtenTables_skip (skip : Nat) (cs : List Char) :
    writtenTables aliases skip false cs = writtenTables aliases 0 false (cs.drop skip) := by
  induction cs generalizing skip with
  | nil => simp
  | cons c cs ih =>
    cases skip with
    | zero => rfl
    | succ n => simpa [writtenTables] using ih n

/-- A character that is new in the result, and no period, is one of a table that is written. -/
theorem mem_substituteFrom_iff {fresh : Bool} {cs : List Char} {c : Char} (hc : c ∉ cs)
    (hperiod : c ≠ '.') :
    c ∈ substituteFrom aliases 0 fresh cs ↔
      ∃ table ∈ writtenTables aliases 0 fresh cs, c ∈ table.toList := by
  -- a second name may take away several characters at once, so the induction is on the length
  induction size : cs.length using Nat.strongRecOn generalizing cs fresh with
  | ind size ih =>
    subst size
    cases cs with
    | nil => simp
    | cons d ds =>
      obtain ⟨hd, hds⟩ : c ≠ d ∧ c ∉ ds := by simpa using hc
      rw [substituteFrom_cons, writtenTables]
      cases found : (if fresh then aliasAhead? aliases (d :: ds) else none) with
      | some pair =>
        have shorter : (ds.drop pair.1.length).length < (d :: ds).length := by
          rw [List.length_drop, List.length_cons]
          omega
        have rest := @ih _ shorter false _ (fun m => hds (List.mem_of_mem_drop m)) rfl
        dsimp only
        rw [writtenTables_skip, List.exists_mem_cons_iff, ← rest]
        simp [hperiod]
      | none =>
        have rest := @ih ds.length (by simp) (isBoundary d) _ hds rfl
        dsimp only
        rw [← rest]
        simp [hd]

end Written

/-! ## Filters -/

/-- A filter has no mark around a name, no word between conditions in upper case, and no character
set in front of a text. -/
structure IsCanonical (filter : String) : Prop where
  /-- There is no mark. -/
  noMark : '\x60' ∉ filter.toList
  /-- The word between conditions is in lower case. -/
  noWord : ¬" AND ".toList <:+: filter.toList
  /-- No character set stands in front of a text. -/
  noIntroducer : ¬HasIntroducer filter.toList

/-- The text of a condition without marks and without character sets, after these two passes. -/
def bareText (text : String) : List Char := dropCharsets (dropMarks text.toList)

/-- The passes bring nothing back in the text of a condition. -/
structure IsSettled (aliases : Aliases) (text : String) : Prop where
  /-- No table that is written for a second name has a mark in its name. -/
  noMark : ∀ table ∈ writtenTables aliases 0 true (bareText text), '\x60' ∉ table.toList
  /-- Where the word between conditions stands twice, there is more between than one blank. -/
  noWord : ¬" AND AND ".toList <:+: substituteFrom aliases 0 true (bareText text)
  /-- No character set is left or comes together in front of a text. -/
  noIntroducer : ¬HasIntroducer (substituteFrom aliases 0 true (bareText text))

/-- The normal form of a text is canonical exactly if the passes bring nothing back. -/
theorem isCanonical_normalize (aliases : Aliases) (text : String) :
    IsCanonical (normalize aliases text) ↔ IsSettled aliases text := by
  have hfilter : (normalize aliases text).toList =
      lowerWord (substituteFrom aliases 0 true (bareText text)) :=
    Option.some.inj ((getLast?_passes aliases text).symm.trans rfl)
  have hlowered := lowered_lowerWord (substituteFrom aliases 0 true (bareText text))
  have hbare : '\x60' ∉ bareText text := fun m => by
    have kept := List.mem_filter.mp ((dropped_dropCharsets _).sublist.subset m)
    exact of_decide_eq_true kept.2 rfl
  have hmark : '\x60' ∉ (normalize aliases text).toList ↔
      ∀ table ∈ writtenTables aliases 0 true (bareText text), '\x60' ∉ table.toList := by
    rw [hfilter, hlowered.mem_iff (by decide), mem_substituteFrom_iff hbare (by decide)]
    simp
  have hword : ¬" AND ".toList <:+: (normalize aliases text).toList ↔
      ¬" AND AND ".toList <:+: substituteFrom aliases 0 true (bareText text) := by
    rw [hfilter, hlowered.infix_iff]
  have hintroducer : ¬HasIntroducer (normalize aliases text).toList ↔
      ¬HasIntroducer (substituteFrom aliases 0 true (bareText text)) := by
    rw [hfilter, hasIntroducer_lowerWord]
  constructor
  · rintro ⟨noMark, noWord, noIntroducer⟩
    exact ⟨hmark.mp noMark, hword.mp noWord, hintroducer.mp noIntroducer⟩
  · rintro ⟨noMark, noWord, noIntroducer⟩
    exact ⟨hmark.mpr noMark, hword.mpr noWord, hintroducer.mpr noIntroducer⟩

/-- Second names and tables without blanks. -/
def BlankFree (aliases : Aliases) : Prop :=
  ∀ pair ∈ aliases, ' ' ∉ pair.1.toList ∧ ' ' ∉ pair.2.toList

instance (aliases : Aliases) : Decidable (BlankFree aliases) :=
  inferInstanceAs (Decidable (∀ pair ∈ aliases, ' ' ∉ pair.1.toList ∧ ' ' ∉ pair.2.toList))

/-- There is nothing in the text of a condition and in the tables written into it that the passes
bring back. -/
structure IsClean (aliases : Aliases) (text : String) : Prop where
  /-- No table that is written for a second name has a mark in its name. -/
  noMark : ∀ table ∈ writtenTables aliases 0 true (bareText text), '\x60' ∉ table.toList
  /-- Where the word between conditions stands twice in the text without marks, there is more
  between than one blank. -/
  noWord : ¬" AND AND ".toList <:+: dropMarks text.toList
  /-- No character set is left in front of a text in the text without character sets. -/
  noIntroducer : ¬HasIntroducer (bareText text)

/-- Second names and tables without blanks and quotes bring back nothing but marks. -/
theorem isSettled_iff_isClean {aliases : Aliases} (blanks : BlankFree aliases)
    (quotes : QuoteFree aliases) (text : String) :
    IsSettled aliases text ↔ IsClean aliases text := by
  have word : " AND AND ".toList <:+: substituteFrom aliases 0 true (bareText text) ↔
      " AND AND ".toList <:+: dropMarks text.toList :=
    (infix_substituteFrom_iff (show ∀ pair ∈ aliases, _ from blanks) (by decide)
      (show '.' ∉ " AND AND".toList by decide) true (bareText text)).trans
        (infix_dropCharsets_iff _)
  have introducer : HasIntroducer (substituteFrom aliases 0 true (bareText text)) ↔
      HasIntroducer (bareText text) := hasIntroducer_substituteFrom quotes true _
  constructor
  · rintro ⟨noMark, noWord, noIntroducer⟩
    exact ⟨noMark, word.not.mp noWord, introducer.not.mp noIntroducer⟩
  · rintro ⟨noMark, noWord, noIntroducer⟩
    exact ⟨noMark, word.not.mpr noWord, introducer.not.mpr noIntroducer⟩

/-- An empty filter is canonical. -/
theorem isCanonical_empty : IsCanonical "" where
  noMark := by decide
  noWord := by decide
  noIntroducer h := absurd (hasIntroducer_iff.mp h) (by decide)

/-- The filter of a statement without a condition that has a text is empty, and any other one is the
normal form of that text. -/
theorem isCanonical_footprint (statement : Statement) :
    IsCanonical statement.footprint.filter ↔
      ∀ condition text, statement.selection = some condition → condition.compact = .ok text →
        IsSettled statement.aliases text := by
  rw [Dump.footprint_filter]
  cases statement.selection with
  | none => exact iff_of_true isCanonical_empty fun _ _ h => by cases h
  | some condition =>
    cases hcompact : condition.compact with
    | error e =>
      have hnone : renderOrEmpty statement.aliases (some condition) = "" := by
        simp [renderOrEmpty, render, hcompact, bind, Except.bind]
      rw [hnone]
      refine iff_of_true isCanonical_empty fun _ text hcondition htext => ?_
      cases hcondition
      rw [hcompact] at htext
      cases htext
    | ok text =>
      have hrender : renderOrEmpty statement.aliases (some condition) =
          normalize statement.aliases text := by
        simp [renderOrEmpty, render, hcompact, bind, Except.bind, pure, Except.pure]
      rw [hrender, isCanonical_normalize]
      constructor
      · rintro hsettled _ _ ⟨⟩ htext
        rw [hcompact] at htext
        cases htext
        exact hsettled
      · exact fun h => h condition text rfl hcompact

/-- The filter of a statement is canonical exactly if the passes bring nothing back in the text of
its condition, where it has a condition with a text. Where no second name and no table has a blank
or a quote, that is so exactly if there is nothing in the text and in the tables to bring back. -/
theorem isCanonical_filter (statement : Statement) :
    (IsCanonical statement.footprint.filter ↔
      ∀ condition text, statement.selection = some condition → condition.compact = .ok text →
        IsSettled statement.aliases text) ∧
    (BlankFree statement.aliases → QuoteFree statement.aliases →
      (IsCanonical statement.footprint.filter ↔
        ∀ condition text, statement.selection = some condition → condition.compact = .ok text →
          IsClean statement.aliases text)) := by
  have settled := isCanonical_footprint statement
  refine ⟨settled, fun blanks quotes => settled.trans ?_⟩
  simp only [isSettled_iff_isClean blanks quotes]

/-- Users with `u.id = 1 AND name = _utf8 'x AND y'`. -/
def usersById : Statement :=
  .query (.ofBody (.select (.ofSources [namedTable "users" (some "u")] (some (.binary
    (.binary (.dotted [⟨"u", none⟩, ⟨"id", none⟩]) .eq (.literal (.number "1" false))) .and
    (.binary (.name ⟨"name", none⟩) .eq
      (.introduced ⟨"_utf8", none⟩ (.literal (.text .single "x AND y")))))))))

/-- Their filter is canonical, as the text of the condition and the table show. -/
theorem isCanonical_filter_usersById :
    usersById.footprint.filter = "users.id=1 and name='x and y'" ∧
      BlankFree usersById.aliases ∧ QuoteFree usersById.aliases ∧
      IsCanonical usersById.footprint.filter := by
  refine ⟨by decide +kernel, by decide, by decide, ?_⟩
  refine ((isCanonical_filter usersById).2 (by decide) (by decide)).mpr ?_
  intro condition text h h'
  obtain rfl := Option.some.inj h
  obtain rfl := Except.ok.inj h'
  exact ⟨by decide, fun word => absurd (occursIn_iff.mpr word) (by decide),
    fun introducer => absurd (hasIntroducer_iff.mp introducer) (by decide +kernel)⟩

/-- The filters of the statements of a text. -/
def filtersOf (sql : String) : List String :=
  match Batch.analyze sql with
  | .ok footprints => footprints.map Footprint.filter
  | .error _ => []

/-- A table with a mark in its name brings the mark back, the word between conditions stands twice
in a text, and a character set in a text stands in front of another one. -/
theorem not_isCanonical_broughtBack :
    filtersOf "SELECT * FROM `a``b` u WHERE u.id = 1" = ["a`b.id=1"] ∧
    filtersOf "SELECT * FROM t WHERE a = 'x AND AND y'" = ["a='x and AND y'"] ∧
    filtersOf "SELECT * FROM t WHERE a = '_utf8 _latin1' AND b = 'y'" = ["a='_utf8 ' and b='y'"] ∧
    ¬IsCanonical "a`b.id=1" ∧ ¬IsCanonical "a='x and AND y'" ∧
    ¬IsCanonical "a='_utf8 ' and b='y'" := by
  refine ⟨by decide +kernel, by decide +kernel, by decide +kernel, fun h => ?_, fun h => ?_,
    fun h => ?_⟩
  · exact h.noMark (by decide)
  · exact h.noWord (occursIn_iff.mp (by decide))
  · exact h.noIntroducer (hasIntroducer_iff.mpr (by decide +kernel))

end SqlFootprint.Filter
