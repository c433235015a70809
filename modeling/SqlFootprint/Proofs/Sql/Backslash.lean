import SqlFootprint.Filter.Restore
import SqlFootprint.Proofs.Sql.Rereading

/-! # Backslashes in texts

A string value is written between single quotes with every quote doubled and nothing else escaped,
while the reader of tokens takes a backslash for the start of an escape. So a value is read back
from its text exactly if the reader keeps all its backslashes, which it does only in front of a
percent sign or an underscore (`lex_compact_iff`). -/

namespace SqlFootprint.Sql

open Text

/-! ## Escapes the reader keeps -/

/-- A backslash is kept in front of the character. -/
def KeepsBackslash (c : Char) : Prop := c = '%' ∨ c = '_'

instance (c : Char) : Decidable (KeepsBackslash c) := inferInstanceAs (Decidable (_ ∨ _))

/-- Behind every backslash stands a character in front of which it is kept. -/
def KeepsBackslashes (value : List Char) : Prop :=
  ∀ rest, '\\' :: rest <:+ value → ∃ c ∈ rest.head?, KeepsBackslash c

theorem keepsBackslashes_nil : KeepsBackslashes [] := fun _ suffix =>
  nomatch List.suffix_nil.mp suffix

theorem keepsBackslashes_cons {c : Char} {cs : List Char} : KeepsBackslashes (c :: cs) ↔
    (c = '\\' → ∃ d ∈ cs.head?, KeepsBackslash d) ∧ KeepsBackslashes cs := by
  constructor
  · intro keeps
    exact ⟨fun same => keeps cs (same ▸ List.suffix_rfl),
      fun rest suffix => keeps rest (suffix.trans (List.suffix_cons c cs))⟩
  · rintro ⟨first, others⟩ rest suffix
    rcases List.suffix_cons_iff.mp suffix with whole | later
    · obtain ⟨rfl, rfl⟩ := List.cons.inj whole
      exact first rfl
    · exact others rest later

instance decidableKeepsBackslashes : DecidablePred KeepsBackslashes
  | [] => isTrue keepsBackslashes_nil
  | _ :: cs =>
    have : Decidable (KeepsBackslashes cs) := decidableKeepsBackslashes cs
    decidable_of_iff _ keepsBackslashes_cons.symm

/-- What a backslash is kept in front of is no mark of the text. -/
theorem KeepsBackslash.ne_mark {c : Char} (kept : KeepsBackslash c) : c ≠ '\x27' ∧ c ≠ '\\' := by
  rcases kept with rfl | rfl <;> decide

/-- A backslash that is kept stays in front of its character. -/
theorem KeepsBackslash.unescape_eq {c : Char} (kept : KeepsBackslash c) :
    unescape c = ['\\', c] := by
  rcases kept with rfl | rfl <;> rfl

theorem unescape_ne_nil (c : Char) : unescape c ≠ [] := by
  unfold unescape
  split <;> exact List.cons_ne_nil _ _

/-- An escape gives a backslash only where the backslash is kept, or for a second one. -/
theorem head?_unescape {c : Char} (h : '\\' ∈ (unescape c).head?) :
    KeepsBackslash c ∨ c = '\\' := by
  unfold unescape at h
  split at h
  all_goals first
    | exact .inl (.inl rfl)
    | exact .inl (.inr rfl)
    | exact .inr (Option.some.inj h)
    | exact absurd h (by decide)

/-! ## Reading between single quotes -/

/-- A pair of quotes is read as one. -/
theorem quotedRun_pair (cs : List Char) : quotedRun '\x27' true ('\x27' :: '\x27' :: cs) =
    (quotedRun '\x27' true cs).map (QuotedRun.push ['\x27'] ['\x27', '\x27']) := by
  rw [quotedRun, if_pos rfl, if_pos rfl]

/-- A backslash takes the character behind it. -/
theorem quotedRun_escape (d : Char) (cs : List Char) : quotedRun '\x27' true ('\\' :: d :: cs) =
    (quotedRun '\x27' true cs).map (QuotedRun.push (unescape d) ['\\', d]) := by
  rw [quotedRun, if_neg (by decide), if_pos (by decide)]

/-- Any other character is read as it is. -/
theorem quotedRun_plain {c : Char} (plain : c ≠ '\x27' ∧ c ≠ '\\') (cs : List Char) :
    quotedRun '\x27' true (c :: cs) =
      (quotedRun '\x27' true cs).map (QuotedRun.push [c] [c]) := by
  cases cs with
  | nil => exact if_neg plain.1
  | cons d cs => rw [quotedRun, if_neg plain.1, if_neg (by simp [plain.2])]

/-- A backslash that is kept is read as it is. -/
theorem quotedRun_kept {d : Char} (kept : KeepsBackslash d) (cs : List Char) :
    quotedRun '\x27' true ('\\' :: d :: cs) =
      (quotedRun '\x27' true (d :: cs)).map (QuotedRun.push ['\\'] ['\\']) := by
  -- the escape gives both characters, so reading them one by one gives the same
  rw [quotedRun_escape, kept.unescape_eq, quotedRun_plain kept.ne_mark, Option.map_map]
  rfl

/-- Every character read gives at most one character of the value, and every quote read at most
half of one; the closing quote gives none. -/
theorem length_value_lt {cs : List Char} {run : QuotedRun}
    (h : quotedRun '\x27' true cs = some run) :
    2 * run.value.length + cs.count '\x27' < 2 * cs.length := by
  -- what is read in front of a run adds to both sides
  have front (read : List Char) {value more : List Char} {run : QuotedRun}
      (ih : ∀ {run : QuotedRun}, quotedRun '\x27' true more = some run →
        2 * run.value.length + more.count '\x27' < 2 * more.length)
      (h : (quotedRun '\x27' true more).map (QuotedRun.push value read) = some run)
      (le : 2 * value.length + read.count '\x27' ≤ 2 * read.length) :
      2 * run.value.length + (read ++ more).count '\x27' < 2 * (read ++ more).length := by
    obtain ⟨inner, found, rfl⟩ := Option.map_eq_some_iff.mp h
    have := ih found
    rw [List.count_append, List.length_append, QuotedRun.push, List.length_append]
    omega
  fun_induction quotedRun '\x27' true cs generalizing run with
  | case1 => cases h
  | case2 =>
    cases h
    decide
  | case3 => cases h
  | case4 cs ih => exact front _ ih h (by decide)
  | case5 d cs =>
    cases h
    have := List.count_le_length (a := '\x27') (l := d :: cs)
    rw [List.count_cons_self, List.length_cons]
    simp only [List.length_nil]
    omega
  | case6 c d cs quote _ ih =>
    -- an escaped quote gives one character, and no escape gives more than two
    refine front [c, d] ih h ?_
    by_cases same : d = '\x27'
    · subst same
      simp [quote, unescape]
    · have := length_unescape_le d
      simp [quote, same]
      omega
  | case7 c d cs quote _ ih =>
    refine front [c] ih h ?_
    simp [quote]

/-! ## Values read back -/

/-- Doubling adds one mark for every mark. -/
theorem count_doubleMarks (mark : Char) (value : List Char) :
    (doubleMarks mark value).count mark = 2 * value.count mark ∧
      (doubleMarks mark value).length = value.length + value.count mark := by
  induction value with
  | nil => exact ⟨rfl, rfl⟩
  | cons c value ih =>
    obtain ⟨count, length⟩ := ih
    rw [doubleMarks_cons, List.count_append, List.length_append, count, length]
    by_cases same : c = mark
    · simp [same]
      omega
    · simp [same]
      omega

/-- A value whose backslashes are kept is read back. -/
theorem quotedRun_of_keepsBackslashes {value : List Char} (keeps : KeepsBackslashes value) :
    quotedRun '\x27' true (doubleMarks '\x27' value ++ ['\x27']) =
      some ⟨value, doubleMarks '\x27' value ++ ['\x27'], []⟩ := by
  induction value with
  | nil => rfl
  | cons c value ih =>
    obtain ⟨first, others⟩ := keepsBackslashes_cons.mp keeps
    have ih := ih others
    rw [doubleMarks_cons]
    by_cases quote : c = '\x27'
    · subst quote
      show quotedRun '\x27' true ('\x27' :: '\x27' :: (doubleMarks '\x27' value ++ ['\x27'])) = _
      rw [quotedRun_pair, ih]
      rfl
    · rw [if_neg quote]
      show quotedRun '\x27' true (c :: (doubleMarks '\x27' value ++ ['\x27'])) = _
      -- the character is read as it is, whether or not it is a backslash
      have step : quotedRun '\x27' true (c :: (doubleMarks '\x27' value ++ ['\x27'])) =
          (quotedRun '\x27' true (doubleMarks '\x27' value ++ ['\x27'])).map
            (QuotedRun.push [c] [c]) := by
        by_cases backslash : c = '\\'
        · obtain ⟨d, head, kept⟩ := first backslash
          obtain ⟨more, rfl⟩ := List.head?_eq_some_iff.mp head
          rw [backslash, doubleMarks_cons, if_neg kept.ne_mark.1]
          exact quotedRun_kept kept _
        · exact quotedRun_plain ⟨quote, backslash⟩ _
      rw [step, ih]
      rfl

/-- A backslash that is not kept is not read back. -/
theorem value_ne_of_not_keepsBackslash {d : Char} (lost : ¬KeepsBackslash d) {value : List Char}
    {run : QuotedRun} (h : quotedRun '\x27' true
      ('\\' :: (doubleMarks '\x27' (d :: value) ++ ['\x27'])) = some run) :
    run.value ≠ '\\' :: d :: value := by
  intro same
  obtain ⟨more, eq⟩ : ∃ more, doubleMarks '\x27' (d :: value) ++ ['\x27'] = d :: more := by
    rw [doubleMarks_cons]
    split <;> exact ⟨_, rfl⟩
  rw [eq, quotedRun_escape] at h
  obtain ⟨inner, found, rfl⟩ := Option.map_eq_some_iff.mp h
  change unescape d ++ inner.value = _ at same
  obtain ⟨first, rest, escape⟩ := List.exists_cons_of_ne_nil (unescape_ne_nil d)
  have head : '\\' ∈ (unescape d).head? := by
    rw [escape] at same ⊢
    exact congrArg some (List.cons.inj same).1
  -- two backslashes are read as one, which leaves too few characters for the rest of the value
  obtain rfl := (head?_unescape head).resolve_left lost
  obtain rfl : doubleMarks '\x27' value ++ ['\x27'] = more := (List.cons.inj eq).2
  have behind : inner.value = '\\' :: value := (List.cons.inj same).2
  have short := length_value_lt found
  obtain ⟨count, length⟩ := count_doubleMarks '\x27' value
  rw [behind, List.count_append, List.length_append, count, length] at short
  simp only [List.length_cons, List.length_nil, List.count_cons_self, List.count_nil] at short
  omega

/-- If a value is read back, its backslashes are kept. -/
theorem keepsBackslashes_of_quotedRun {value : List Char} {run : QuotedRun}
    (h : quotedRun '\x27' true (doubleMarks '\x27' value ++ ['\x27']) = some run)
    (same : run.value = value) : KeepsBackslashes value := by
  induction value generalizing run with
  | nil => exact keepsBackslashes_nil
  | cons c value ih =>
    rw [doubleMarks_cons] at h
    -- behind a character that is read as it is, the rest of the value is read back
    have behind {read more : List Char} (found : (quotedRun '\x27' true more).map
        (QuotedRun.push [c] read) = some run) :
        ∃ inner, quotedRun '\x27' true more = some inner ∧ inner.value = value := by
      obtain ⟨inner, eq, rfl⟩ := Option.map_eq_some_iff.mp found
      exact ⟨inner, eq, (List.cons.inj same).2⟩
    by_cases quote : c = '\x27'
    · subst quote
      change quotedRun '\x27' true ('\x27' :: '\x27' :: _) = _ at h
      rw [quotedRun_pair] at h
      obtain ⟨inner, found, same⟩ := behind h
      exact keepsBackslashes_cons.mpr ⟨nofun, ih found same⟩
    · rw [if_neg quote] at h
      change quotedRun '\x27' true (c :: (doubleMarks '\x27' value ++ ['\x27'])) = _ at h
      by_cases backslash : c = '\\'
      · subst backslash
        cases value with
        | nil => nomatch h
        | cons d value =>
          by_cases kept : KeepsBackslash d
          · rw [doubleMarks_cons, if_neg kept.ne_mark.1] at h ih
            change quotedRun '\x27' true ('\\' :: d :: _) = _ at h
            rw [quotedRun_kept kept] at h
            obtain ⟨inner, found, same⟩ := behind h
            exact keepsBackslashes_cons.mpr ⟨fun _ => ⟨d, rfl, kept⟩, ih found same⟩
          · exact absurd same (value_ne_of_not_keepsBackslash kept h)
      · rw [quotedRun_plain ⟨quote, backslash⟩] at h
        obtain ⟨inner, found, same⟩ := behind h
        exact keepsBackslashes_cons.mpr ⟨fun e => absurd e backslash, ih found same⟩

/-! ## Texts and their tokens -/

/-- A value in single quotes is one token with that value exactly if its backslashes are kept. -/
theorem lex_doubled_iff {value : String} :
    lex (doubled '\x27' value) = .ok [⟨.literal (.text .single value), .start⟩] ↔
      KeepsBackslashes value.toList := by
  have opened : (doubled '\x27' value).toList =
      '\x27' :: (doubleMarks '\x27' value.toList ++ ['\x27']) := String.toList_ofList
  have step (body : List Char) : scan .other .start '\x27' body =
      scanText .start [] .single '\x27' true body := rfl
  rw [lex_eq_ok_iff, opened]
  constructor
  · intro reads
    -- the first step reads the whole token, and its value is that of the quoted text
    obtain ⟨run, found, same⟩ : ∃ run, quotedRun '\x27' true
        (doubleMarks '\x27' value.toList ++ ['\x27']) = some run ∧
          String.ofList run.value = value := by
      cases reads with
      | gap first more =>
        rw [step, scanText] at first
        split at first <;> cases first
      | token first more =>
        rw [step, scanText] at first
        split at first
        · next run found =>
          cases first
          exact ⟨run, found, rfl⟩
        · cases first
    subst same
    rw [String.toList_ofList] at found ⊢
    exact keepsBackslashes_of_quotedRun found rfl
  · intro keeps
    have first : scan .other .start '\x27' (doubleMarks '\x27' value.toList ++ ['\x27']) =
        .ok (literalScan (.text .single value)
          ('\x27' :: (doubleMarks '\x27' value.toList ++ ['\x27'])) []) := by
      rw [step, scanText, quotedRun_of_keepsBackslashes keeps]
      dsimp only
      rw [String.ofList_toList, List.nil_append]
    exact .token first (.nil _ _)

/-- The kinds of literal whose value is a string. -/
def stringKinds : List TextKind := [.single, .double, .national]

/-- A string value is read back from its compact text, as one token in single quotes, exactly if
every backslash in it stands in front of a percent sign or an underscore. -/
theorem lex_compact_iff {kind : TextKind} (string : kind ∈ stringKinds) (value : String) :
    ∃ text, (Expr.literal (.text kind value)).compact = .ok text ∧
      (lex text = .ok [⟨.literal (.text .single value), .start⟩] ↔
        KeepsBackslashes value.toList) := by
  have compact : (Literal.text kind value).compact = doubled '\x27' value := by
    simp only [stringKinds, List.mem_cons, List.not_mem_nil, or_false] at string
    rcases string with rfl | rfl | rfl <;> rfl
  exact ⟨_, congrArg Except.ok compact, lex_doubled_iff⟩

/-- A pattern with an escaped percent sign is read back, though a quote stands behind it. -/
theorem lex_compact_percent : TextKind.national ∈ stringKinds ∧
    KeepsBackslashes "50\\%'".toList ∧
      ∃ text, (Expr.literal (.text .national "50\\%'")).compact = .ok text ∧
        lex text = .ok [⟨.literal (.text .single "50\\%'"), .start⟩] := by
  have string : TextKind.national ∈ stringKinds := by decide
  have keeps : KeepsBackslashes "50\\%'".toList := by decide
  obtain ⟨text, written, iff⟩ := lex_compact_iff string "50\\%'"
  exact ⟨string, keeps, text, written, iff.mpr keeps⟩

/-- Not every string value is read back: the text of `x\y` gives another one. -/
theorem not_forall_lex_compact : ¬∀ kind ∈ stringKinds, ∀ value : String,
    ∃ text, (Expr.literal (.text kind value)).compact = .ok text ∧
      lex text = .ok [⟨.literal (.text .single value), .start⟩] := by
  intro all
  obtain ⟨text, written, reads⟩ := all .single (by decide) "x\\y"
  obtain rfl : doubled '\x27' "x\\y" = text := Except.ok.inj written
  exact absurd (lex_doubled_iff.mp reads) (by decide)

end SqlFootprint.Sql
