import SqlFootprint.Proofs.Text.Separator

/-! # Replacing around a cut

Where a text is cut, an occurrence of a pattern lies on one side or stands astride (`Astride`). If
none stands astride, both sides are replaced on their own (`replaceFrom_append_of_not_astride`), and
the pattern occurs in the whole exactly if it occurs in one of them (`infix_append_iff`). A pattern
whose last character occurs in it only once does not stand astride behind that character. Hence it
occurs in what its removal leaves of a text exactly if a part of the text becomes the pattern by the
removal (`infix_replaceFrom_iff`). -/

namespace SqlFootprint.Text

/-! ## Occurrences astride a cut -/

/-- An occurrence of a pattern stands astride the cut between two texts: it begins in the first and
ends in the second. -/
def Astride (pattern before after : List Char) : Prop :=
  ∃ left right, left ≠ [] ∧ right ≠ [] ∧ pattern = left ++ right ∧ left <:+ before ∧ right <+: after

/-- A cut further back is astride nothing new. -/
theorem Astride.cons {pattern before after : List Char} (c : Char)
    (h : Astride pattern before after) : Astride pattern (c :: before) after := by
  obtain ⟨left, right, hleft, hright, eq, suffix, front⟩ := h
  exact ⟨left, right, hleft, hright, eq, suffix.trans (List.suffix_cons c before), front⟩

/-- A pattern that stands in front of a cut text stands in front of its first part or astride. -/
theorem prefix_append {pattern before after : List Char} (ne : before ≠ [])
    (h : pattern <+: before ++ after) : pattern <+: before ∨ Astride pattern before after := by
  obtain ⟨rest, eq⟩ := h
  rcases List.append_eq_append_iff.mp eq with ⟨more, rfl, -⟩ | ⟨right, rfl, rfl⟩
  · exact .inl (List.prefix_append pattern more)
  · by_cases none : right = []
    · subst none
      exact .inl (by simp)
    · exact .inr ⟨before, right, ne, none, rfl, List.suffix_rfl, List.prefix_append right rest⟩

/-- A pattern occurs in a cut text if and only if it occurs on one side or astride. -/
theorem infix_append_iff {pattern before after : List Char} : pattern <:+: before ++ after ↔
    pattern <:+: before ∨ pattern <:+: after ∨ Astride pattern before after := by
  constructor
  · intro h
    induction before with
    | nil => exact .inr (.inl h)
    | cons c cs ih =>
      rw [List.cons_append, List.infix_cons_iff] at h
      rcases h with front | inside
      · rcases prefix_append (List.cons_ne_nil c cs) front with front | astride
        · exact .inl front.isInfix
        · exact .inr (.inr astride)
      · rcases ih inside with inside | inside | astride
        · exact .inl (inside.trans (List.suffix_cons c cs).isInfix)
        · exact .inr (.inl inside)
        · exact .inr (.inr (astride.cons c))
  · rintro (inside | inside | ⟨left, right, -, -, rfl, ⟨front, rfl⟩, ⟨rest, rfl⟩⟩)
    · exact inside.trans (List.prefix_append before after).isInfix
    · exact inside.trans (List.suffix_append before after).isInfix
    · exact ⟨front, rest, by simp⟩

/-! ## Replacing from the front -/

/-- A replacement passes over a pattern in front at once, and otherwise over one character. What
holds of the rest in both cases, so that it holds of the whole, holds of every text. -/
@[elab_as_elim]
theorem replaceFrom_induction {pattern : List Char} (ne : pattern ≠ [])
    {motive : List Char → Prop} (nil : motive [])
    (found : ∀ rest, motive rest → motive (pattern ++ rest))
    (kept : ∀ c cs, ¬pattern <+: c :: cs → motive cs → motive (c :: cs)) (text : List Char) :
    motive text := by
  induction size : text.length using Nat.strongRecOn generalizing text with
  | ind size ih =>
    subst size
    cases text with
    | nil => exact nil
    | cons c cs =>
      by_cases front : pattern <+: c :: cs
      · obtain ⟨rest, eq⟩ := front
        have shorter : rest.length < (c :: cs).length := by
          rw [← eq, List.length_append]
          exact Nat.lt_add_of_pos_left (List.length_pos_of_ne_nil ne)
        exact eq ▸ found rest (ih _ shorter rest rfl)
      · exact kept c cs front (ih _ (by simp) cs rfl)

/-- A character with which no pattern begins is kept. -/
theorem replaceFrom_cons_of_mismatch {pattern : List Char} (new : List Char) {c : Char}
    {cs : List Char} (h : ¬pattern <+: c :: cs) :
    replaceFrom pattern new 0 (c :: cs) = c :: replaceFrom pattern new 0 cs := by
  rw [replaceFrom, if_neg (mt List.isPrefixOf_iff_prefix.mp h)]

/-- If nothing stands astride a cut, both sides are replaced on their own. -/
theorem replaceFrom_append_of_not_astride {pattern : List Char} (ne : pattern ≠ [])
    (new : List Char) {before after : List Char} (h : ¬Astride pattern before after) :
    replaceFrom pattern new 0 (before ++ after) =
      replaceFrom pattern new 0 before ++ replaceFrom pattern new 0 after := by
  induction before using replaceFrom_induction ne with
  | nil => simp
  | found rest ih =>
    have later : ¬Astride pattern rest after := by
      rintro ⟨left, right, hleft, hright, cut, suffix, front⟩
      have whole := suffix.trans (List.suffix_append pattern rest)
      exact h ⟨left, right, hleft, hright, cut, whole, front⟩
    rw [List.append_assoc, replaceFrom_append ne, replaceFrom_append ne, ih later,
      List.append_assoc]
  | kept c cs miss ih =>
    have whole : ¬pattern <+: c :: (cs ++ after) := fun front =>
      (prefix_append (List.cons_ne_nil c cs) front).elim miss h
    rw [List.cons_append, replaceFrom_cons_of_mismatch new whole,
      replaceFrom_cons_of_mismatch new miss, List.cons_append, ih (mt (Astride.cons c) h)]

/-! ## Cutting what is left -/

/-- Where the text that is left after a removal is cut, the text that it was left of can be cut. -/
theorem exists_of_replaceFrom_eq_append {pattern : List Char} (ne : pattern ≠ [])
    {text left right : List Char} (h : replaceFrom pattern [] 0 text = left ++ right) :
    ∃ before after, text = before ++ after ∧ replaceFrom pattern [] 0 before = left ∧
      replaceFrom pattern [] 0 after = right := by
  induction text using replaceFrom_induction ne generalizing left with
  | nil =>
    obtain ⟨rfl, rfl⟩ := List.append_eq_nil_iff.mp (h.symm.trans (replaceFrom_nil pattern [] 0))
    exact ⟨[], [], rfl, by simp, by simp⟩
  | found rest ih =>
    rw [replaceFrom_append ne, List.nil_append] at h
    obtain ⟨before, after, rfl, hbefore, hafter⟩ := ih h
    exact ⟨pattern ++ before, after, by rw [List.append_assoc],
      by rw [replaceFrom_append ne, hbefore, List.nil_append], hafter⟩
  | kept c cs miss ih =>
    cases left with
    | nil => exact ⟨[], c :: cs, rfl, by simp, h⟩
    | cons d left =>
      rw [replaceFrom_cons_of_mismatch [] miss, List.cons_append] at h
      obtain ⟨rfl, later⟩ := List.cons.inj h
      obtain ⟨before, after, rfl, hbefore, hafter⟩ := ih later
      -- what stands in front of the first part stands in front of the whole
      have kept : ¬pattern <+: c :: before := fun front =>
        miss (front.trans (List.prefix_append (c :: before) after))
      exact ⟨c :: before, after, rfl, by rw [replaceFrom_cons_of_mismatch [] kept, hbefore],
        hafter⟩

/-- What occurs in the text that is left after a removal was left of a part of the text. -/
theorem exists_infix_of_replaceFrom {pattern : List Char} (ne : pattern ≠ [])
    {text word : List Char} (h : word <:+: replaceFrom pattern [] 0 text) :
    ∃ part, part <:+: text ∧ replaceFrom pattern [] 0 part = word := by
  obtain ⟨left, right, eq⟩ := h
  obtain ⟨front, rest, rfl, hfront, -⟩ := exists_of_replaceFrom_eq_append ne eq.symm
  obtain ⟨before, part, rfl, -, hpart⟩ := exists_of_replaceFrom_eq_append ne hfront
  exact ⟨part, ⟨before, rest, rfl⟩, hpart⟩

/-! ## Patterns that end with their only separator -/

section

variable {name : List Char} {d : Char}

/-- The end of such a pattern ends with the separator. -/
theorem exists_of_concat_eq_append {left right : List Char} (ne : right ≠ [])
    (eq : name ++ [d] = left ++ right) : ∃ front, name = left ++ front ∧ right = front ++ [d] := by
  have cut := List.dropLast_concat_getLast ne
  rw [← cut, ← List.append_assoc] at eq
  obtain ⟨same, last⟩ := List.append_inj' eq rfl
  exact ⟨right.dropLast, same, by rw [last, cut]⟩

/-- Such a pattern does not stand astride in front of a text without the separator. -/
theorem not_astride_of_notMem {before after : List Char} (hafter : d ∉ after) :
    ¬Astride (name ++ [d]) before after := by
  rintro ⟨left, right, -, hright, eq, -, front⟩
  obtain ⟨rest, -, rfl⟩ := exists_of_concat_eq_append hright eq
  exact hafter (front.subset (by simp))

/-- A text that becomes such a pattern by its removal ends with the separator, too. -/
theorem exists_concat_of_replaceFrom_eq {part : List Char}
    (h : replaceFrom (name ++ [d]) [] 0 part = name ++ [d]) : ∃ front, part = front ++ [d] := by
  have ne : part ≠ [] := by
    rintro rfl
    simp at h
  have cut := List.dropLast_concat_getLast ne
  refine ⟨part.dropLast, ?_⟩
  by_cases last : part.getLast ne = d
  · rw [← last, cut]
  · -- the last character would be left
    have apart : ¬Astride (name ++ [d]) part.dropLast [part.getLast ne] :=
      not_astride_of_notMem (by simpa using Ne.symm last)
    have alone : occursIn (name ++ [d]) [part.getLast ne] = false := by
      rw [Bool.eq_false_iff, ne_eq, occursIn_iff]
      exact fun inside => last (List.mem_singleton.mp (inside.subset (by simp))).symm
    rw [← cut, replaceFrom_append_of_not_astride (by simp) [] apart,
      replaceFrom_of_not_occursIn [] alone] at h
    exact absurd (List.singleton_inj.mp (List.append_inj' h rfl).2) last

variable (hname : d ∉ name)

include hname

/-- Such a pattern does not stand astride behind its separator. -/
theorem not_astride_concat (before after : List Char) :
    ¬Astride (name ++ [d]) (before ++ [d]) after := by
  rintro ⟨left, right, hleft, hright, eq, suffix, -⟩
  obtain ⟨front, rfl, -⟩ := exists_of_concat_eq_append hright eq
  -- a part of the pattern would end with the separator
  have last : left.getLast hleft = d := by
    have := suffix.getLast hleft
    simpa using this
  exact hname (List.mem_append_left front (last ▸ List.getLast_mem hleft))

/-- Two occurrences of such a pattern do not overlap. -/
theorem eq_nil_or_exists_of_append_eq {before after rest : List Char}
    (h : name ++ [d] ++ rest = before ++ (name ++ [d] ++ after)) :
    before = [] ∨ ∃ more, before = name ++ [d] ++ more ∧ rest = more ++ (name ++ [d] ++ after) := by
  rcases List.append_eq_append_iff.mp h with ⟨more, rfl, rfl⟩ | ⟨right, eq, cut⟩
  · exact .inr ⟨more, rfl, rfl⟩
  · by_cases none : right = []
    · subst none
      exact .inr ⟨[], by rw [eq, List.append_nil, List.append_nil], cut.symm⟩
    · -- the second occurrence would end where the first does
      obtain ⟨front, same, rfl⟩ := exists_of_concat_eq_append none eq
      rw [List.append_assoc, List.append_assoc, List.singleton_append, List.singleton_append] at cut
      have hfront : d ∉ front := fun m => hname (same ▸ List.mem_append_right before m)
      have ends : name = front := eq_of_append_cons_eq hname hfront cut
      rw [ends] at same
      exact .inl (List.append_left_eq_self.mp same.symm)

/-- Such a pattern occurs in what is left of a text after its removal if and only if a part of the
text becomes the pattern by the removal. -/
theorem infix_replaceFrom_iff {text : List Char} :
    name ++ [d] <:+: replaceFrom (name ++ [d]) [] 0 text ↔
      ∃ part, part <:+: text ∧ replaceFrom (name ++ [d]) [] 0 part = name ++ [d] := by
  have ne : name ++ [d] ≠ [] := by simp
  refine ⟨exists_infix_of_replaceFrom ne, ?_⟩
  rintro ⟨part, ⟨before, after, rfl⟩, left⟩
  obtain ⟨front, rfl⟩ := exists_concat_of_replaceFrom_eq left
  have behind : ¬Astride (name ++ [d]) (before ++ (front ++ [d])) after := by
    rw [← List.append_assoc]
    exact not_astride_concat hname _ after
  have ahead : ¬Astride (name ++ [d]) before (front ++ [d]) := by
    rintro ⟨begun, rest, hbegun, hrest, eq, -, later, cut⟩
    obtain ⟨ending, rfl, rfl⟩ := exists_of_concat_eq_append hrest eq
    -- the end of the pattern stands in front of the part, too short to be removed
    have short : occursIn ((begun ++ ending) ++ [d]) (ending ++ [d]) = false := by
      rw [Bool.eq_false_iff, ne_eq, occursIn_iff]
      intro inside
      have := inside.length_le
      have := List.length_pos_of_ne_nil hbegun
      simp only [List.length_append] at *
      omega
    rw [← cut, replaceFrom_append_of_not_astride ne [] (not_astride_concat hname ending later),
      replaceFrom_of_not_occursIn [] short, List.append_assoc, List.singleton_append] at left
    obtain ⟨same, -, -⟩ := (List.append_cons_inj_of_notMem hname List.not_mem_nil).mp left.symm
    exact hbegun (List.append_left_eq_self.mp same)
  rw [replaceFrom_append_of_not_astride ne [] behind, replaceFrom_append_of_not_astride ne [] ahead,
    left]
  exact (List.suffix_append _ _).isInfix.trans (List.prefix_append _ _).isInfix

end

end SqlFootprint.Text
