import SqlFootprint.Proofs.Filter.Conjunction
import SqlFootprint.Proofs.Filter.Introducer

/-! # What becomes of quoted texts

The passes work on the whole text of a condition and know nothing of quoted texts. For conditions
that compare columns with texts, this file tells exactly when every pass leaves the texts as they
are: none holds a mark or the word between conditions, none looks like the character set of a text,
and the pass for second names keeps what is read (`literals_passes_iff`). -/

namespace SqlFootprint.Filter

open Text Sql

/-! ## The passes one by one -/

/-- The word between conditions in lower case. -/
def lowerWord (cs : List Char) : List Char := replaceFrom " AND ".toList " and ".toList 0 cs

/-- The characters of a condition after each of the passes. -/
def passes (aliases : Aliases) (cs : List Char) : List (List Char) :=
  let unmarked := dropMarks cs
  let bare := dropCharsets unmarked
  let resolved := substituteFrom aliases 0 true bare
  [unmarked, bare, resolved, lowerWord resolved]

/-- The last pass gives the normal form. -/
theorem getLast?_passes (aliases : Aliases) (text : String) :
    (passes aliases text.toList).getLast? = some (normalize aliases text).toList := by
  have resolved : (substituteAliases aliases
      (String.ofList (dropCharsets (dropMarks text.toList)))).toList =
        substituteFrom aliases 0 true (dropCharsets (dropMarks text.toList)) := by
    rw [toList_substituteAliases, String.toList_ofList]
  show some (lowerWord _) = some (String.ofList (lowerWord _)).toList
  rw [String.toList_ofList, resolved]

/-- The word is written in lower case stretch by stretch. -/
theorem stretchwise_lowerWord : Stretchwise lowerWord where
  nil := rfl
  append_quote before after :=
    replaceFrom_append_cons (by decide) " and ".toList (by decide) before after
  notMem h m := by
    rcases mem_of_mem_replaceFrom m with old | new
    · exact h old
    · revert new
      decide
  ne_nil {stretch} _ ne := by
    obtain ⟨c, cs, rfl⟩ := List.exists_cons_of_ne_nil ne
    rw [lowerWord, replaceFrom]
    split
    · exact List.cons_ne_nil _ _
    · exact List.cons_ne_nil _ _

/-- The word in lower case is another text exactly if the word occurs. -/
theorem lowerWord_eq_self_iff {cs : List Char} :
    lowerWord cs = cs ↔ ¬" AND ".toList <:+: cs := by
  rw [lowerWord, replaceFrom_eq_self_iff (by decide) (by decide), ← occursIn_iff,
    Bool.not_eq_true]

/-- Second names and tables without quotes. -/
def QuoteFree (aliases : Aliases) : Prop :=
  ∀ pair ∈ aliases, '\x27' ∉ pair.1.toList ∧ '\x27' ∉ pair.2.toList

instance (aliases : Aliases) : Decidable (QuoteFree aliases) :=
  inferInstanceAs (Decidable (∀ pair ∈ aliases, '\x27' ∉ pair.1.toList ∧ '\x27' ∉ pair.2.toList))

/-- The pass for second names brings in nothing but periods and tables. -/
theorem mem_of_mem_substituteFrom {aliases : Aliases} {fresh : Bool} {cs : List Char} {c : Char}
    (h : c ∈ substituteFrom aliases 0 fresh cs) :
    c ∈ cs ∨ c = '.' ∨ ∃ pair ∈ aliases, c ∈ pair.2.toList := by
  -- a second name may take away several characters at once, so the induction is on the length
  induction size : cs.length using Nat.strongRecOn generalizing cs fresh with
  | ind size ih =>
    subst size
    cases cs with
    | nil =>
      rw [substituteFrom_nil] at h
      cases h
    | cons d ds =>
      rw [substituteFrom_cons] at h
      split at h
      · next asName table found =>
        have given : (asName, table) ∈ aliases := by
          cases fresh with
          | true => exact (mem_of_aliasAhead? aliases found).1
          | false => cases found
        rcases List.mem_append.mp h with m | m
        · exact Or.inr (Or.inr ⟨_, given, m⟩)
        · rcases List.mem_cons.mp m with rfl | m
          · exact Or.inr (Or.inl rfl)
          · have shorter : (ds.drop asName.length).length < (d :: ds).length := by
              rw [List.length_drop, List.length_cons]
              omega
            rcases ih _ shorter m rfl with old | new
            · exact Or.inl (List.mem_cons_of_mem d (List.mem_of_mem_drop old))
            · exact Or.inr new
      · rcases List.mem_cons.mp h with rfl | m
        · exact Or.inl List.mem_cons_self
        · rcases ih _ (by simp) m rfl with old | new
          · exact Or.inl (List.mem_cons_of_mem d old)
          · exact Or.inr new

/-- Second names without quotes are resolved stretch by stretch. -/
theorem stretchwise_substituteFrom {aliases : Aliases} (h : QuoteFree aliases) :
    Stretchwise (substituteFrom aliases 0 true) where
  nil := substituteFrom_nil aliases 0 true
  append_quote before after :=
    substituteFrom_append_cons ⟨by decide, by decide, fun pair m => (h pair m).1⟩ true before after
  notMem hstretch m := by
    rcases mem_of_mem_substituteFrom m with old | period | ⟨pair, given, new⟩
    · exact hstretch old
    · revert period
      decide
    · exact (h pair given).2 new
  ne_nil {stretch} _ ne := by
    obtain ⟨c, cs, rfl⟩ := List.exists_cons_of_ne_nil ne
    rw [substituteFrom_cons]
    split
    · simp
    · exact List.cons_ne_nil _ _

/-! ## Texts tied together -/

/-- Texts and what stands in front of each, with the word between conditions in front of every one
but the first. -/
def tied (front : String) : List (String × String) → List (List Char × List Char)
  | [] => []
  | (head, value) :: rest => ((front ++ head).toList, value.toList) :: tied " AND " rest

/-- The characters of conditions tied together, each of which ends in a text. -/
theorem toList_intercalate_tied (front : String) {items : List (String × String)}
    (hne : items ≠ []) :
    (front ++ " AND ".intercalate (items.map fun item => item.1 ++ doubled '\x27' item.2)).toList =
      interleaved (tied front items) := by
  induction items generalizing front with
  | nil => exact absurd rfl hne
  | cons first rest ih =>
    obtain ⟨head, value⟩ := first
    have quoted : (doubled '\x27' value).toList =
        '\x27' :: (doubleMarks '\x27' value.toList ++ ['\x27']) := String.toList_ofList
    cases rest with
    | nil => simp [tied, interleaved, quoted]
    | cons second more =>
      -- the word between conditions goes in front of the rest
      have later := ih " AND " (List.cons_ne_nil second more)
      rw [List.map_cons, String.intercalate_cons_of_ne_nil (by simp), tied, interleaved, ← later]
      simp [quoted]

/-- The characters of a conjunction of conditions, each of which ends in a text. -/
theorem Conjunction.toList_intercalate_items {α : Type} (chain : Conjunction α)
    (written : α → String × String) :
    (" AND ".intercalate (chain.items.map fun item =>
      (written item).1 ++ doubled '\x27' (written item).2)).toList =
        interleaved (tied "" (chain.items.map written)) := by
  have ne : chain.items.map written ≠ [] := by simp [chain.items_ne_nil]
  rw [← toList_intercalate_tied "" ne, String.empty_append, List.map_map]
  rfl

/-- The texts are tied together in their order. -/
theorem map_snd_tied (front : String) (items : List (String × String)) :
    (tied front items).map Prod.snd = items.map fun item => item.2.toList := by
  induction items generalizing front with
  | nil => rfl
  | cons first rest ih => rw [tied, List.map_cons, ih, List.map_cons]

/-- In front of a text stands what belongs to it, behind the first front or the word between
conditions. -/
theorem exists_of_mem_tied {front : String} {items : List (String × String)}
    {stretch : List Char × List Char} (h : stretch ∈ tied front items) :
    ∃ item ∈ items, ∃ word, (word = front ∨ word = " AND ") ∧
      stretch.1 = word.toList ++ item.1.toList := by
  induction items generalizing front with
  | nil => cases h
  | cons first rest ih =>
    rcases List.mem_cons.mp h with rfl | later
    · exact ⟨first, List.mem_cons_self, front, .inl rfl, String.toList_append⟩
    · obtain ⟨item, m, word, which, eq⟩ := ih later
      exact ⟨item, List.mem_cons_of_mem _ m, word, .inr (which.elim id id), eq⟩

/-! ## Columns with their sources -/

/-- A column with its source, where one is named. -/
def columnExpr (source : Option Word) (column : Word) : Expr :=
  match source with
  | none => .name ⟨column, none⟩
  | some source => .dotted [⟨source, none⟩, ⟨column, none⟩]

/-- The text of a column with its source. -/
def columnText (source : Option Word) (column : Word) : String :=
  (match source with
    | none => ""
    | some source => source ++ ".") ++ column

theorem compact_columnExpr (source : Option Word) (column : Word) :
    (columnExpr source column).compact = .ok (columnText source column) := by
  cases source with
  | none => exact congrArg Except.ok String.empty_append.symm
  | some source =>
    show Except.ok (ObjectName.written _) = .ok (source.1 ++ "." ++ column.1)
    simp [ObjectName.written]

/-- A column with its source is written with word characters and a period. -/
theorem notMem_columnText (source : Option Word) (column : Word) {c : Char}
    (boundary : isBoundary c = true) (ne : c ≠ '.') : c ∉ (columnText source column).toList := by
  have noWord (w : Word) : c ∉ w.1.toList := notMem_of_isPlainWord w.2 boundary
  cases source <;> simp [columnText, noWord, ne]

/-! ## Comparisons with texts -/

/-- A comparison of a column with a text. -/
structure TextComparison where
  /-- The source of the column, where one is named. -/
  source : Option Word
  /-- The column. -/
  column : Word
  /-- The text. -/
  value : String

namespace TextComparison

/-- The expression of a comparison with a text. -/
def toExpr (comparison : TextComparison) : Expr :=
  .binary (columnExpr comparison.source comparison.column) .eq
    (.literal (.text .single comparison.value))

/-- What stands in front of the text. -/
def head (comparison : TextComparison) : String :=
  columnText comparison.source comparison.column ++ "="

/-- The compact text of a comparison with a text. -/
theorem compact_toExpr (comparison : TextComparison) :
    comparison.toExpr.compact = .ok (comparison.head ++ doubled '\x27' comparison.value) := by
  rw [toExpr, Expr.compact, compact_columnExpr]
  rfl

/-- In front of the text neither quotes nor marks stand, and an equals sign comes last. -/
theorem exists_head (comparison : TextComparison) :
    ∃ name, comparison.head.toList = name ++ ['='] ∧ '\x27' ∉ name ∧ '\x60' ∉ name :=
  ⟨(columnText comparison.source comparison.column).toList, String.toList_append,
    notMem_columnText _ _ (by decide) (by decide), notMem_columnText _ _ (by decide) (by decide)⟩

/-- The texts of comparisons. -/
def values (comparisons : List TextComparison) : List (List Char) :=
  comparisons.map fun comparison => comparison.value.toList

/-- What stands in front of the quotes, and what stands between them. -/
def written (comparison : TextComparison) : String × String := (comparison.head, comparison.value)

/-- The texts are tied together in their order. -/
theorem map_snd_tied_written (comparisons : List TextComparison) :
    (tied "" (comparisons.map written)).map Prod.snd = values comparisons := by
  rw [map_snd_tied, List.map_map]
  rfl

/-- In front of every text of a conjunction neither quotes nor marks stand, and an equals sign comes
last. -/
theorem exists_of_mem_tied_written {comparisons : List TextComparison}
    {stretch : List Char × List Char} (h : stretch ∈ tied "" (comparisons.map written)) :
    ∃ name, stretch.1 = name ++ ['='] ∧ '\x27' ∉ name ∧ '\x60' ∉ name := by
  obtain ⟨item, m, word, which, eq⟩ := exists_of_mem_tied h
  obtain ⟨comparison, -, rfl⟩ := List.mem_map.mp m
  obtain ⟨name, head, noQuote, noMark⟩ := comparison.exists_head
  have clean : '\x27' ∉ word.toList ∧ '\x60' ∉ word.toList := by
    rcases which with rfl | rfl <;> decide
  refine ⟨word.toList ++ name, ?_, ?_, ?_⟩
  · rw [eq, List.append_assoc, ← head]
    rfl
  · simp [clean, noQuote]
  · simp [clean, noMark]

/-- Every text of a conjunction stands behind an equals sign. -/
theorem behindEquals_tied (comparisons : List TextComparison) :
    BehindEquals (tied "" (comparisons.map written)) := by
  intro stretch m
  obtain ⟨name, eq, noQuote, -⟩ := exists_of_mem_tied_written m
  exact ⟨name, eq, noQuote⟩

/-- No mark stands in front of a text of a conjunction. -/
theorem mark_notMem_tied (comparisons : List TextComparison) :
    ∀ stretch ∈ tied "" (comparisons.map written), '\x60' ∉ stretch.1 := by
  intro stretch m
  obtain ⟨name, eq, -, noMark⟩ := exists_of_mem_tied_written m
  simp [eq, noMark]

end TextComparison

/-! ## Texts in front of which no mark stands -/

/-- Changing all texts leaves them as they are if it leaves each of them. -/
theorem map_eq_self_iff {change : List Char → List Char} {values : List (List Char)} :
    values.map change = values ↔ ∀ value ∈ values, change value = value := by
  have same := List.map_eq_map_iff (f := change) (g := id) (l := values)
  rwa [List.map_id] at same

/-- Dropping marks changes a text exactly if it holds one. -/
theorem dropMarks_eq_self_iff {cs : List Char} : dropMarks cs = cs ↔ '\x60' ∉ cs := by
  constructor
  · intro same mark
    have kept := List.filter_eq_self.mp same _ mark
    simp at kept
  · exact dropMarks_of_notMem

/-- Marks are dropped from a text before or after its quotes are doubled. -/
theorem dropMarks_doubleMarks (value : List Char) :
    dropMarks (doubleMarks '\x27' value) = doubleMarks '\x27' (dropMarks value) := by
  induction value with
  | nil => rfl
  | cons c value ih =>
    -- no character is both a quote and a mark
    have one : dropMarks (if c = '\x27' then [c, c] else [c]) =
        doubleMarks '\x27' (dropMarks [c]) := by
      by_cases quote : c = '\x27'
      · subst quote
        rfl
      · rw [if_neg quote]
        by_cases mark : c = '\x60'
        · subst mark
          rfl
        · have kept : dropMarks [c] = [c] :=
            dropMarks_of_notMem fun m => mark (List.mem_singleton.mp m).symm
          rw [kept, doubleMarks_cons, if_neg quote]
          rfl
    have split : dropMarks (c :: value) = dropMarks [c] ++ dropMarks value :=
      dropMarks_append [c] value
    have joined (cs ds : List Char) : doubleMarks '\x27' (cs ++ ds) =
        doubleMarks '\x27' cs ++ doubleMarks '\x27' ds := List.flatMap_append
    rw [doubleMarks_cons, dropMarks_append, one, ih, split, joined]

section

variable {items : List (List Char × List Char)} (marks : ∀ item ∈ items, '\x60' ∉ item.1)

include marks

/-- Only the texts lose marks. -/
theorem dropMarks_interleaved :
    dropMarks (interleaved items) =
      interleaved (items.map fun item => (item.1, dropMarks item.2)) := by
  induction items with
  | nil => rfl
  | cons item rest ih =>
    obtain ⟨gap, value⟩ := item
    have quote (cs : List Char) : dropMarks ('\x27' :: cs) = '\x27' :: dropMarks cs := rfl
    rw [List.map_cons, interleaved, interleaved, dropMarks_append, quote, dropMarks_append, quote,
      dropMarks_doubleMarks, dropMarks_of_notMem (marks _ List.mem_cons_self),
      ih fun other m => marks other (List.mem_cons_of_mem _ m)]

/-- The texts are read back without their marks. -/
theorem literals_dropMarks (h : BehindEquals items) :
    literals? (dropMarks (interleaved items)) = some ((items.map Prod.snd).map dropMarks) := by
  have same : BehindEquals (items.map fun item => (item.1, dropMarks item.2)) := by
    intro item m
    obtain ⟨other, mem, rfl⟩ := List.mem_map.mp m
    exact h other mem
  rw [dropMarks_interleaved marks, literals_interleaved same.gaps, List.map_map, List.map_map]
  rfl

/-- Without marks in the texts there is nothing to drop. -/
theorem dropMarks_interleaved_of_notMem (h : ∀ value ∈ items.map Prod.snd, '\x60' ∉ value) :
    dropMarks (interleaved items) = interleaved items := by
  rw [dropMarks_interleaved marks]
  refine congrArg interleaved ((List.map_congr_left fun item m => ?_).trans (List.map_id items))
  rw [dropMarks_of_notMem (h item.2 (List.mem_map_of_mem m))]
  rfl

/-- Every pass leaves the texts as they are exactly if they hold no marks, no character sets and no
words between conditions, and if second names are resolved around them. -/
theorem forall_passes_iff (aliases : Aliases) (h : BehindEquals items) :
    (∀ pass ∈ passes aliases (interleaved items), literals? pass = some (items.map Prod.snd)) ↔
      (∀ value ∈ items.map Prod.snd, '\x60' ∉ value ∧ ¬" AND ".toList <:+: value) ∧
        introducersIn (items.map Prod.snd) = false ∧
        literals? (substituteFrom aliases 0 true (interleaved items)) =
          some (items.map Prod.snd) := by
  have lowered := stretchwise_lowerWord.literals_map
    (substituteFrom aliases 0 true (interleaved items))
  simp only [passes, List.forall_mem_cons]
  constructor
  · -- each pass is taken with what the passes before it have left alone
    rintro ⟨first, second, third, fourth, -⟩
    rw [literals_dropMarks marks h] at first
    have noMarks : ∀ value ∈ items.map Prod.snd, '\x60' ∉ value := fun value m mark =>
      dropMarks_eq_self_iff.mp (map_eq_self_iff.mp (Option.some.inj first) value m) mark
    have unmarked := dropMarks_interleaved_of_notMem marks noMarks
    rw [unmarked] at second third fourth
    have free := (literals_dropCharsets_iff h).mp second
    rw [dropCharsets_interleaved h free] at third fourth
    rw [lowered, third] at fourth
    have noWords := map_eq_self_iff.mp (Option.some.inj fourth)
    refine ⟨fun value m => ⟨noMarks value m, ?_⟩, free, third⟩
    exact lowerWord_eq_self_iff.mp (noWords value m)
  · rintro ⟨clean, free, resolved⟩
    have unmarked := dropMarks_interleaved_of_notMem marks fun value m => (clean value m).1
    have bare := dropCharsets_interleaved h free
    have noWords : (items.map Prod.snd).map lowerWord = items.map Prod.snd :=
      map_eq_self_iff.mpr fun value m => lowerWord_eq_self_iff.mpr (clean value m).2
    rw [unmarked, bare]
    refine ⟨literals_interleaved h.gaps, literals_interleaved h.gaps, resolved, ?_, by simp⟩
    rw [lowered, resolved]
    exact congrArg some noWords

end

/-- Second names without quotes are resolved around the texts exactly if they are not found in
them. -/
theorem literals_substituteFrom_iff {aliases : Aliases} (free : QuoteFree aliases)
    {items : List (List Char × List Char)} (h : BehindEquals items) :
    literals? (substituteFrom aliases 0 true (interleaved items)) = some (items.map Prod.snd) ↔
      ∀ value ∈ items.map Prod.snd, substituteFrom aliases 0 true value = value := by
  -- names without quotes are found inside one stretch, so each value is resolved on its own
  rw [(stretchwise_substituteFrom free).literals_map, literals_interleaved h.gaps]
  exact Option.some_inj.trans map_eq_self_iff

/-! ## Conjunctions of comparisons with texts -/

/-- Every pass leaves the texts of a conjunction as they are, and so does the filter, exactly if no
text holds a mark or the word between conditions, none holds the name of a character set in front of
a quote, and what is read is the same once second names are resolved. Without quotes in the second
names and tables, the last means that no second name is found in a text. -/
theorem literals_passes_iff (aliases : Aliases) (chain : Conjunction TextComparison) :
    ∃ text, (chain.toExpr TextComparison.toExpr).compact = .ok text ∧
      render aliases (chain.toExpr TextComparison.toExpr) = .ok (normalize aliases text) ∧
      (passes aliases text.toList).getLast? = some (normalize aliases text).toList ∧
      ((∀ pass ∈ passes aliases text.toList,
          literals? pass = some (TextComparison.values chain.items)) ↔
        (∀ value ∈ TextComparison.values chain.items,
            '\x60' ∉ value ∧ ¬" AND ".toList <:+: value) ∧
          introducersIn (TextComparison.values chain.items) = false ∧
          literals? (substituteFrom aliases 0 true text.toList) =
            some (TextComparison.values chain.items)) ∧
      (QuoteFree aliases →
        (literals? (substituteFrom aliases 0 true text.toList) =
            some (TextComparison.values chain.items) ↔
          ∀ value ∈ TextComparison.values chain.items,
            substituteFrom aliases 0 true value = value)) := by
  have compact := chain.compact_toExpr TextComparison.compact_toExpr
  have chars := chain.toList_intercalate_items TextComparison.written
  have behind := TextComparison.behindEquals_tied chain.items
  have marks := TextComparison.mark_notMem_tied chain.items
  have every := forall_passes_iff marks aliases behind
  rw [TextComparison.map_snd_tied_written, ← chars] at every
  refine ⟨_, compact, ?_, getLast?_passes aliases _, every, fun free => ?_⟩
  · rw [render, compact]
    rfl
  · have around := literals_substituteFrom_iff free behind
    rwa [TextComparison.map_snd_tied_written, ← chars] at around

/-- The condition `a='it''s' AND u.b='x.y'`. -/
def cleanChain : Conjunction TextComparison :=
  .both (.single ⟨none, ⟨"a", by decide⟩, "it's"⟩)
    (.single ⟨some ⟨"u", by decide⟩, ⟨"b", by decide⟩, "x.y"⟩)

/-- Texts in which nothing is found go through all passes, also those with quotes and periods. -/
theorem literals_passes_clean :
    ∃ text, (cleanChain.toExpr TextComparison.toExpr).compact = .ok text ∧
      ∀ pass ∈ passes [("u", "users")] text.toList,
        literals? pass = some ["it's".toList, "x.y".toList] := by
  obtain ⟨text, compact, -, -, survive, around⟩ := literals_passes_iff [("u", "users")] cleanChain
  exact ⟨text, compact, survive.mpr ⟨by decide, by decide, (around (by decide)).mpr (by decide)⟩⟩

/-- A mark inside a text is dropped with the marks around names. -/
theorem literals_marked :
    render [] ((Conjunction.single ⟨none, ⟨"a", by decide⟩, "x\x60y"⟩).toExpr
        TextComparison.toExpr) = .ok "a='xy'" ∧
      literals? "a='xy'".toList ≠ some ["x\x60y".toList] :=
  ⟨rfl, by decide⟩

end SqlFootprint.Filter
