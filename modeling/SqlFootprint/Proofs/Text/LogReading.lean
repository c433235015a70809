import SqlFootprint.Proofs.Text.JsonReading
import SqlFootprint.Text.LogQuote

/-! # Reading log lines

A text that a log line shows between double quotes is told apart from every other one, and it ends
where its closing mark stands. A reader for one character shows it: every character is the only one
that is shown as it is. -/

namespace SqlFootprint.Text

/-! ## Hexadecimal digits -/

/-- The hexadecimal digits of a number give it back. -/
theorem unitFrom?_hexDigits (n : Nat) : Json.unitFrom? 0 (hexDigits n) = some n := by
  have value : ∀ d < 16, Json.digitValue? d.digitChar = some d := by decide
  have snoc (digits : List Char) (d start : Nat) (hd : d < 16) :
      Json.unitFrom? start (digits ++ [d.digitChar]) =
        (Json.unitFrom? start digits).map fun front => 16 * front + d := by
    induction digits generalizing start with
    | nil => simp [Json.unitFrom?, value d hd]
    | cons c cs ih =>
      cases hc : Json.digitValue? c with
      | none => simp [Json.unitFrom?, hc]
      | some front => simpa [Json.unitFrom?, hc] using ih (16 * start + front)
  induction n using Nat.strongRecOn with
  | _ n ih =>
    by_cases hn : n < 16
    · simp [hexDigits, Nat.toDigits_of_lt_base hn, Json.unitFrom?, value n hn]
    · have hsplit := Nat.toDigits_of_base_le (b := 16) (n := n) (by decide) (by omega)
      have hfront := ih (n / 16) (by omega)
      rw [hexDigits] at hfront ⊢
      rw [hsplit, snoc _ _ _ (by omega), hfront]
      simp only [Option.map_some, Option.some.injEq]
      omega

/-- No hexadecimal digit is a brace. -/
theorem hexDigits_ne_brace (n : Nat) : ∀ c ∈ hexDigits n, c ≠ '\x7d' := by
  have plain : ∀ d < 16, d.digitChar ≠ '\x7d' := by decide
  induction n using Nat.strongRecOn with
  | _ n ih =>
    by_cases hn : n < 16
    · simp [hexDigits, Nat.toDigits_of_lt_base hn, plain n hn]
    · have hsplit := Nat.toDigits_of_base_le (b := 16) (n := n) (by decide) (by omega)
      intro c hc
      rw [hexDigits, hsplit, List.mem_append, List.mem_singleton] at hc
      rcases hc with hc | rfl
      · exact ih (n / 16) (by omega) c hc
      · exact plain _ (by omega)

/-! ## Characters -/

/-- The character at the front of what a log line shows, and what is behind it. -/
def readShown? : List Char → Option (Char × List Char)
  | '\\' :: '\x22' :: rest => some ('\x22', rest)
  | '\\' :: '\\' :: rest => some ('\\', rest)
  | '\\' :: 'n' :: rest => some ('\n', rest)
  | '\\' :: 'r' :: rest => some ('\r', rest)
  | '\\' :: 't' :: rest => some ('\t', rest)
  | '\\' :: '0' :: rest => some ('\x00', rest)
  | '\\' :: 'u' :: '\x7b' :: rest =>
    (Json.unitFrom? 0 (rest.takeWhile (· != '\x7d'))).map fun n =>
      (Char.ofNat n, (rest.dropWhile (· != '\x7d')).tail)
  | '\\' :: _ => none
  | '\x22' :: _ => none
  | c :: rest => some (c, rest)
  | [] => none

/-- A character by its code point is read back. -/
theorem readShown?_hexDigits (c : Char) (rest : List Char) :
    readShown? (['\\', 'u', '\x7b'] ++ hexDigits c.toNat ++ ['\x7d'] ++ rest) = some (c, rest) := by
  have kept : ∀ d ∈ hexDigits c.toNat, (d != '\x7d') = true := fun d hd =>
    bne_iff_ne.mpr (hexDigits_ne_brace c.toNat d hd)
  have front : (hexDigits c.toNat ++ '\x7d' :: rest).takeWhile (· != '\x7d') =
      hexDigits c.toNat := by
    rw [List.takeWhile_append_of_pos kept]
    simp
  have back : (hexDigits c.toNat ++ '\x7d' :: rest).dropWhile (· != '\x7d') = '\x7d' :: rest := by
    rw [List.dropWhile_append_of_pos kept]
    simp
  simp [readShown?, front, back, unitFrom?_hexDigits, Char.ofNat_toNat]

/-- A character that is neither the mark nor a backslash stands for itself. -/
theorem readShown?_self {c : Char} (mark : c ≠ '\x22') (back : c ≠ '\\') (rest : List Char) :
    readShown? (c :: rest) = some (c, rest) := by
  simp [readShown?, back]

/-- A character is read back from what a log line shows. -/
theorem readShown?_logChar (c : Char) (rest : List Char) :
    readShown? (logChar c ++ rest) = some (c, rest) := by
  simp only [logChar, beq_iff_eq]
  split_ifs with mark back newline creturn tab zero code
  · subst mark; rfl
  · subst back; rfl
  · subst newline; rfl
  · subst creturn; rfl
  · subst tab; rfl
  · obtain rfl : c = '\x00' := Char.ext (UInt32.toNat_inj.mp zero)
    rfl
  · exact readShown?_hexDigits c rest
  · exact readShown?_self mark back rest

/-! ## Texts -/

/-- What stands behind the characters of a text tells where the text ends. -/
theorem flatMap_logChar_inj {cs ds x y : List Char}
    (h : cs.flatMap logChar ++ '\x22' :: x = ds.flatMap logChar ++ '\x22' :: y) :
    cs = ds ∧ x = y := by
  have closing (c : Char) (ds x y : List Char) :
      '\x22' :: x ≠ logChar c ++ (ds.flatMap logChar ++ '\x22' :: y) := by
    intro h
    have hread := readShown?_logChar c (ds.flatMap logChar ++ '\x22' :: y)
    rw [← h] at hread
    simp [readShown?] at hread
  induction cs generalizing ds with
  | nil =>
    cases ds with
    | nil => simpa using h
    | cons d ds =>
      rw [List.flatMap_cons, List.append_assoc] at h
      exact absurd h (closing d ds x y)
  | cons c cs ih =>
    cases ds with
    | nil =>
      rw [List.flatMap_cons, List.append_assoc] at h
      exact absurd h.symm (closing c cs y x)
    | cons d ds =>
      rw [List.flatMap_cons, List.flatMap_cons, List.append_assoc, List.append_assoc] at h
      have hc := readShown?_logChar c (cs.flatMap logChar ++ '\x22' :: x)
      rw [h, readShown?_logChar d] at hc
      obtain ⟨rfl, hrest⟩ := Prod.mk.inj (Option.some.inj hc)
      obtain ⟨rfl, rfl⟩ := ih hrest.symm
      exact ⟨rfl, rfl⟩

/-- A quoted text is told apart from every other one, and from what stands behind it. -/
theorem logQuoted_append_inj {s t : String} {x y : List Char}
    (h : (logQuoted s).toList ++ x = (logQuoted t).toList ++ y) : s = t ∧ x = y := by
  have inner : s.toList.flatMap logChar ++ '\x22' :: x =
      t.toList.flatMap logChar ++ '\x22' :: y := by
    simpa [logQuoted, String.toList_append] using h
  obtain ⟨hs, hx⟩ := flatMap_logChar_inj inner
  exact ⟨String.toList_inj.mp hs, hx⟩

/-! ## Lists of texts -/

/-- What a list shows behind its first text: the others, each behind a comma. -/
def shownBehind (items : List String) : List Char :=
  items.flatMap fun item => ',' :: ' ' :: (logQuoted item).toList

/-- The texts of a list, between its brackets. -/
theorem toList_logList_cons (item : String) (items : List String) :
    (logList (item :: items)).toList =
      '[' :: ((logQuoted item).toList ++ (shownBehind items ++ [']'])) := by
  have joined : (", ".intercalate ((item :: items).map logQuoted)).toList =
      (logQuoted item).toList ++ shownBehind items := by
    induction items generalizing item with
    | nil => simp [shownBehind]
    | cons other items ih =>
      rw [List.map_cons, List.map_cons, String.intercalate_cons_cons, String.toList_append,
        String.toList_append, ← List.map_cons, ih other]
      simp [shownBehind]
  simp only [logList, String.toList_append, joined]
  simp

/-- The other texts of a list are told apart from any others. -/
theorem shownBehind_append_inj {items others : List String} {x y : List Char}
    (h : shownBehind items ++ ']' :: x = shownBehind others ++ ']' :: y) :
    items = others ∧ x = y := by
  induction items generalizing others with
  | nil =>
    cases others with
    | nil => simpa [shownBehind] using h
    | cons other others => simp [shownBehind] at h
  | cons item items ih =>
    cases others with
    | nil => simp [shownBehind] at h
    | cons other others =>
      have hquoted : (logQuoted item).toList ++ (shownBehind items ++ ']' :: x) =
          (logQuoted other).toList ++ (shownBehind others ++ ']' :: y) := by
        simpa [shownBehind] using h
      obtain ⟨rfl, hrest⟩ := logQuoted_append_inj hquoted
      obtain ⟨rfl, rfl⟩ := ih hrest
      exact ⟨rfl, rfl⟩

/-- A list of quoted texts is told apart from every other one, and from what stands behind it. -/
theorem logList_append_inj {items others : List String} {x y : List Char}
    (h : (logList items).toList ++ x = (logList others).toList ++ y) : items = others ∧ x = y := by
  have empty (item : String) (items : List String) (x y : List Char) :
      (logList []).toList ++ x ≠ (logList (item :: items)).toList ++ y := by
    rw [toList_logList_cons]
    simp [logList, logQuoted, String.toList_append]
  cases items with
  | nil =>
    cases others with
    | nil => exact ⟨rfl, List.append_cancel_left h⟩
    | cons other others => exact absurd h (empty other others x y)
  | cons item items =>
    cases others with
    | nil => exact absurd h.symm (empty item items y x)
    | cons other others =>
      have hquoted : (logQuoted item).toList ++ (shownBehind items ++ ']' :: x) =
          (logQuoted other).toList ++ (shownBehind others ++ ']' :: y) := by
        simpa [toList_logList_cons] using h
      obtain ⟨rfl, hrest⟩ := logQuoted_append_inj hquoted
      obtain ⟨rfl, rfl⟩ := shownBehind_append_inj hrest
      exact ⟨rfl, rfl⟩

end SqlFootprint.Text
