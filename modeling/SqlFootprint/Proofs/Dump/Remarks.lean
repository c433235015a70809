import SqlFootprint.Proofs.Dump.Attribution
import SqlFootprint.Proofs.Footprint.Blocks

/-! # Which remarks stay remarks

A plan is run as a script, so a remark is safe only if every line of its text is a comment. Printing
puts a number sign in front of the first line alone: a remark stays one exactly if a number sign
follows each of its line breaks (`forall_isComment_note`). The remarks on exact rows hold settings,
tables and the whole filter as they are; they stay remarks exactly if this is so of each of these
texts (`forall_isComment_plan`). -/

namespace SqlFootprint.Dump

open Text Sql

/-! ## Comments -/

/-- The lines of a text, without the breaks between them. -/
def physicalLines (text : String) : List String := split text "\n"

/-- Whether a line is a comment of a script. -/
def isComment (line : String) : Bool := line.toList.head? = some '#'

/-- Whether a number sign follows every line break. -/
def marksBreaks : List Char → Bool
  | [] => true
  | c :: cs => (c ≠ '\n' || cs.head? = some '#') && marksBreaks cs

/-- The line break stands in front exactly if it is the first character. -/
theorem isPrefixOf_break (c : Char) (cs : List Char) :
    ['\n'].isPrefixOf (c :: cs) = true ↔ c = '\n' := by
  simp only [List.isPrefixOf_cons_cons, List.isPrefixOf_nil_left, Bool.and_true, beq_iff_eq]
  exact eq_comm

/-- The first line begins with a number sign exactly if the text does, and the others do exactly if
a number sign follows every line break. -/
theorem splitFrom_break (cs : List Char) : ∃ first others,
    splitFrom ['\n'] 0 cs = first :: others ∧
      (first.head? = some '#' ↔ cs.head? = some '#') ∧
      ((∀ line ∈ others, line.head? = some '#') ↔ marksBreaks cs = true) := by
  induction cs with
  | nil => exact ⟨[], [], rfl, Iff.rfl, by simp [marksBreaks]⟩
  | cons c cs ih =>
    obtain ⟨first, others, split, front, behind⟩ := ih
    by_cases isBreak : c = '\n'
    · -- a break ends the first line, so that what was first is now among the others
      subst isBreak
      refine ⟨[], first :: others, ?_, by simp, ?_⟩
      · rw [splitFrom, if_pos ((isPrefixOf_break _ _).mpr rfl), List.length_singleton,
          Nat.sub_self, split]
      · rw [List.forall_mem_cons, front, behind]
        simp [marksBreaks]
    · refine ⟨c :: first, others, ?_, by simp, ?_⟩
      · rw [splitFrom, if_neg (mt (isPrefixOf_break _ _).mp isBreak), split]
      · rw [behind]
        simp [marksBreaks, isBreak]

/-- All lines of a text are comments exactly if it begins with a number sign and one follows every
line break. -/
theorem forall_isComment {text : String} :
    (∀ line ∈ physicalLines text, isComment line = true) ↔
      text.toList.head? = some '#' ∧ marksBreaks text.toList = true := by
  obtain ⟨first, others, cut, front, behind⟩ := splitFrom_break text.toList
  have lines : physicalLines text = (first :: others).map String.ofList :=
    congrArg (List.map String.ofList) cut
  rw [lines, List.forall_mem_map]
  simp only [isComment, String.toList_ofList, decide_eq_true_eq]
  rw [List.forall_mem_cons, front, behind]

/-- All lines of a printed remark are comments exactly if a number sign follows every line break of
its text. -/
theorem forall_isComment_note {text : String} :
    (∀ line ∈ physicalLines (Line.note text).written, isComment line = true) ↔
      marksBreaks text.toList = true := by
  rw [forall_isComment, Line.written]
  split
  · next empty =>
    rw [String.isEmpty_iff.mp empty]
    decide
  · simp [String.toList_append, marksBreaks]

/-! ## Texts around fixed words -/

/-- Whether a text is fixed words that keep what stands around them apart: it is not empty, holds no
line break, and begins with no number sign. -/
def isFixedWords (s : String) : Bool :=
  !s.isEmpty && s.toList.head? ≠ some '#' && s.toList.all (· ≠ '\n')

/-- Without line breaks there is nothing to mark. -/
theorem marksBreaks_append_of_notMem {cs : List Char} (h : '\n' ∉ cs) (ds : List Char) :
    marksBreaks (cs ++ ds) = marksBreaks ds := by
  induction cs with
  | nil => rfl
  | cons c cs ih =>
    obtain ⟨ne, rest⟩ := not_or.mp (mt List.mem_cons.mpr h)
    simp [marksBreaks, ih rest, Ne.symm ne]

/-- In front of a text that begins with no number sign, a line break at the end is not marked. -/
theorem marksBreaks_append (cs : List Char) {ds : List Char} (h : ds.head? ≠ some '#') :
    marksBreaks (cs ++ ds) = (marksBreaks cs && marksBreaks ds) := by
  induction cs with
  | nil => rfl
  | cons c cs ih =>
    -- what follows `c` is what follows it in `cs`, or the text behind, which brings no mark
    have next : decide ((cs ++ ds).head? = some '#') = decide (cs.head? = some '#') := by
      cases cs with
      | nil => simp [h]
      | cons d cs => rfl
    rw [List.cons_append, marksBreaks, marksBreaks, next, ih, Bool.and_assoc]

section

variable {words : String} (h : isFixedWords words = true)

include h

/-- Fixed words hold no line break and begin with another character. -/
theorem exists_of_isFixedWords : ∃ c cs, words.toList = c :: cs ∧ c ≠ '#' ∧ '\n' ∉ c :: cs := by
  simp only [isFixedWords, Bool.and_eq_true, Bool.not_eq_true', List.all_eq_true,
    decide_eq_true_eq] at h
  obtain ⟨⟨nonempty, front⟩, noBreak⟩ := h
  cases eq : words.toList with
  | nil =>
    rw [String.toList_eq_nil_iff.mp eq] at nonempty
    cases nonempty
  | cons c cs =>
    rw [eq] at front noBreak
    refine ⟨c, cs, rfl, fun e => front (congrArg some e), fun m => noBreak _ m rfl⟩

/-- Behind fixed words the line breaks are those of the text. -/
theorem marksBreaks_words_append (s : String) :
    marksBreaks (words ++ s).toList = marksBreaks s.toList := by
  obtain ⟨c, cs, eq, -, noBreak⟩ := exists_of_isFixedWords h
  rw [String.toList_append, eq, marksBreaks_append_of_notMem noBreak]

/-- Fixed words keep the texts around them apart. -/
theorem marksBreaks_append_words_append (s t : String) :
    marksBreaks (s ++ words ++ t).toList = (marksBreaks s.toList && marksBreaks t.toList) := by
  obtain ⟨c, cs, eq, neMark, -⟩ := exists_of_isFixedWords h
  have front : (words ++ t).toList.head? ≠ some '#' := by
    simp [String.toList_append, eq, neMark]
  rw [String.append_assoc, String.toList_append, marksBreaks_append _ front,
    marksBreaks_words_append h]

/-- Fixed words behind a text leave a line break at its end without a mark. -/
theorem marksBreaks_append_words (s : String) :
    marksBreaks (s ++ words).toList = marksBreaks s.toList := by
  have := marksBreaks_append_words_append h s ""
  simpa [marksBreaks] using this

end

/-- Fixed words alone hold no line break. -/
theorem marksBreaks_words {words : String} (h : isFixedWords words = true) :
    marksBreaks words.toList = true := by
  have := marksBreaks_words_append h ""
  simpa [marksBreaks] using this

/-! ## The remarks on exact rows -/

section

variable (settings : Settings) (table : String) (tables : List String) (filter : String)

/-- The texts that the remarks on exact rows hold as they are. -/
def embedded : List String :=
  [settings.connection.options, settings.connection.database, settings.keyColumn,
    pathIn settings.tempDir (table ++ "_ids.txt"), filter, table] ++ tables.filter (· ≠ table)

/-- Joined tables are kept apart from each other and from what stands in front of them. -/
theorem marksBreaks_joins (front : String) (others : List String) :
    marksBreaks (front ++ String.join
        (others.map fun other => " JOIN " ++ other ++ " ON <join_condition>")).toList =
      (marksBreaks front.toList && others.all fun other => marksBreaks other.toList) := by
  induction others generalizing front with
  | nil => simp
  | cons other others ih =>
    rw [List.map_cons, String.join_cons, ← String.append_assoc, ih, ← String.append_assoc,
      ← String.append_assoc, marksBreaks_append_words (by decide),
      marksBreaks_append_words_append (by decide), List.all_cons, Bool.and_assoc]

/-- The query for keys holds the tables, the key and the filter. -/
theorem marksBreaks_keyQuery :
    marksBreaks (keyQuery settings table tables filter).toList =
      (marksBreaks table.toList && marksBreaks settings.keyColumn.toList &&
        marksBreaks table.toList &&
        (tables.filter (· ≠ table)).all (fun other => marksBreaks other.toList) &&
        marksBreaks filter.toList) := by
  unfold keyQuery
  rw [marksBreaks_append_words_append (by decide), marksBreaks_joins,
    marksBreaks_append_words_append (by decide), marksBreaks_append_words_append (by decide),
    marksBreaks_words_append (by decide)]

/-- The remark on the search for keys holds the options, the query, the database and the file. -/
theorem marksBreaks_search (options query database file : String) :
    marksBreaks ("mysql" ++ options ++ " -N -e \"" ++ query ++ "\" " ++ database ++ " > " ++
        file).toList =
      (marksBreaks options.toList && marksBreaks query.toList && marksBreaks database.toList &&
        marksBreaks file.toList) := by
  rw [marksBreaks_append_words_append (by decide), marksBreaks_append_words_append (by decide),
    marksBreaks_append_words_append (by decide), marksBreaks_words_append (by decide)]

/-- The remark on saving the rows found holds the options, the key, the file, the database and the
table. -/
theorem marksBreaks_save (options key file database : String) :
    marksBreaks ("mysqldump" ++ options ++ " --where=\"" ++ key ++ " IN ($(cat " ++ file ++
        " | tr '\\n' ',' | sed 's/,$//'))\" " ++ database ++ " " ++ table).toList =
      (marksBreaks options.toList && marksBreaks key.toList && marksBreaks file.toList &&
        marksBreaks database.toList && marksBreaks table.toList) := by
  rw [marksBreaks_append_words_append (by decide), marksBreaks_append_words_append (by decide),
    marksBreaks_append_words_append (by decide), marksBreaks_append_words_append (by decide),
    marksBreaks_words_append (by decide)]

/-- The remarks on exact rows are comments exactly if a number sign follows every line break of the
texts in them. -/
theorem forall_isComment_exactRows :
    (∀ text, Line.note text ∈ exactRows settings table tables filter →
        ∀ line ∈ physicalLines (Line.note text).written, isComment line = true) ↔
      ∀ part ∈ embedded settings table tables filter, marksBreaks part.toList = true := by
  simp only [forall_isComment_note, exactRows, List.mem_cons, List.not_mem_nil, or_false,
    Line.note.injEq, forall_eq_or_imp, forall_eq]
  rw [marksBreaks_search, marksBreaks_save, marksBreaks_keyQuery]
  simp only [embedded, List.forall_mem_append, List.forall_mem_cons, List.all_eq_true,
    Bool.and_eq_true]
  constructor
  · rintro ⟨-, -, ⟨⟨⟨options, ⟨⟨⟨own, key⟩, -⟩, others⟩, filter⟩, database⟩, file⟩, -⟩
    exact ⟨⟨options, database, key, file, filter, own, by simp⟩, others⟩
  · rintro ⟨⟨options, database, key, file, filter, own, -⟩, others⟩
    exact ⟨marksBreaks_words (by decide), marksBreaks_words (by decide),
      ⟨⟨⟨options, ⟨⟨⟨own, key⟩, own⟩, others⟩, filter⟩, database⟩, file⟩,
      marksBreaks_words (by decide), ⟨⟨⟨⟨options, key⟩, file⟩, database⟩, own⟩, rfl,
      marksBreaks_words (by decide)⟩

end

/-! ## The remarks of a plan -/

/-- The remarks of a plan with tables are those on exact rows. -/
theorem note_mem_plan {settings : Settings} {footprint : Footprint}
    (h : footprint.tables.isEmpty = false) {text : String} :
    Line.note text ∈ plan settings footprint ↔
      ∃ table ∈ exported footprint, isNarrowed footprint table = true ∧
        Line.note text ∈ exactRows settings table footprint.tables footprint.filter := by
  rw [plan, h, if_neg Bool.false_ne_true, List.mem_flatMap]
  refine exists_congr fun table => and_congr_right fun _ => ?_
  -- the last line for a table is its command, which is no remark
  by_cases narrowed : isNarrowed footprint table = true
  · simp [tablePlan, narrowed, directive]
  · simp [tablePlan, narrowed, directive]

/-- Every printed remark of a plan consists of comments exactly if each table whose filter leaves
something out has only such texts in its remarks in which a number sign follows every line break. -/
theorem forall_isComment_plan (settings : Settings) (footprint : Footprint) :
    (∀ text, Line.note text ∈ plan settings footprint →
        ∀ line ∈ physicalLines (Line.note text).written, isComment line = true) ↔
      ∀ table ∈ exported footprint, isNarrowed footprint table = true →
        ∀ part ∈ embedded settings table footprint.tables footprint.filter,
          marksBreaks part.toList = true := by
  by_cases empty : footprint.tables.isEmpty = true
  · -- the only remark says that there are no tables, and no filter leaves anything out
    have none_narrowed (table : String) : isNarrowed footprint table = false := by
      simp [isNarrowed, List.isEmpty_iff.mp empty]
    simp only [plan, empty, if_true, List.mem_singleton, Line.note.injEq, forall_eq,
      forall_isComment_note, none_narrowed, Bool.false_eq_true, false_imp_iff, implies_true,
      iff_true]
    exact marksBreaks_words (by decide)
  · have remarks {text : String} : Line.note text ∈ plan settings footprint ↔
        ∃ table ∈ exported footprint, isNarrowed footprint table = true ∧
          Line.note text ∈ exactRows settings table footprint.tables footprint.filter :=
      note_mem_plan (Bool.eq_false_iff.mpr empty)
    constructor
    · intro comments table exports narrowed
      rw [← forall_isComment_exactRows]
      exact fun text m => comments text (remarks.mpr ⟨table, exports, narrowed, m⟩)
    · intro marked text m
      obtain ⟨table, exports, narrowed, remark⟩ := remarks.mp m
      exact (forall_isComment_exactRows settings table _ _).mpr (marked table exports narrowed)
        text remark

/-- The deletion of the rows of `users` with a line break in their note, among the sources `users`
and `profiles`, under a condition on both. -/
def brokenNote : Statement :=
  let column (asName name : String) : Expr := .dotted [⟨asName, none⟩, ⟨name, none⟩]
  .delete
    { targets := [[⟨"u", none⟩]]
      sources := [namedTable "users" (some "u"), namedTable "profiles" (some "p")]
      further := []
      selection := some
        (.binary (.binary (column "u" "note") .eq (.literal (.text .single "x\ny"))) .and
          (.binary (column "p" "k") .eq (.literal (.number "1" false))))
      returning := []
      order := []
      limit := none }

/-- The second line of the query for keys is no comment. -/
theorem not_isComment_brokenNote :
    ¬∀ text, Line.note text ∈ plan .default brokenNote.footprint →
      ∀ line ∈ physicalLines (Line.note text).written, isComment line = true := by
  intro comments
  have remark : Line.note ("mysql -N -e \"SELECT users.id FROM users JOIN profiles ON " ++
      "<join_condition> WHERE users.note='x\ny' and profiles.k=1\" database_name > " ++
      "/tmp/users_ids.txt") ∈ plan .default brokenNote.footprint := by
    decide +kernel
  have second : "y' and profiles.k=1\" database_name > /tmp/users_ids.txt" ∈
      physicalLines (Line.note ("mysql -N -e \"SELECT users.id FROM users JOIN profiles ON " ++
        "<join_condition> WHERE users.note='x\ny' and profiles.k=1\" database_name > " ++
        "/tmp/users_ids.txt")).written := by
    decide +kernel
  exact absurd (comments _ remark _ second) (by decide)

end SqlFootprint.Dump
