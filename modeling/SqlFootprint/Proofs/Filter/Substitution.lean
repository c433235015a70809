import Mathlib.Data.List.Find
import SqlFootprint.Filter.Normal
import SqlFootprint.Proofs.Text.Separator

/-! # Tables for second names, stretch by stretch

The scan for second names is a walk with one bit of memory: whether a second name may begin at the
next character (`substituteFrom_cons`). A character that no second name holds and behind which one
may begin parts the text into stretches that are treated on their own
(`substituteFrom_append_cons`). On a single stretch the effect is plain: without a period nothing
changes, and a word in front of the only period becomes its table (`substituteFrom_word`). -/

namespace SqlFootprint.Filter

open Text

/-! ## Plain words -/

/-- Whether a text is a plain word: letters, digits, underscores and dollar signs, with no digit in
front. -/
def isPlainWord (s : String) : Bool :=
  match s.toList with
  | [] => false
  | c :: cs => !c.isDigit && (c :: cs).all fun d => !isBoundary d

/-- A plain word. -/
abbrev Word := { s : String // isPlainWord s = true }

/-- A plain word has a first character, which is no digit. -/
theorem exists_cons_of_isPlainWord {s : String} (h : isPlainWord s = true) :
    ∃ c cs, s.toList = c :: cs ∧ c.isDigit = false := by
  unfold isPlainWord at h
  split at h
  · cases h
  · next c cs eq =>
    simp only [Bool.and_eq_true, Bool.not_eq_true'] at h
    exact ⟨c, cs, eq, h.1⟩

/-- A plain word holds no character behind which a second name may begin. -/
theorem isBoundary_eq_false_of_isPlainWord {s : String} (h : isPlainWord s = true) {d : Char}
    (hd : d ∈ s.toList) : isBoundary d = false := by
  unfold isPlainWord at h
  split at h
  · cases h
  · next c cs eq =>
    simp only [Bool.and_eq_true, List.all_eq_true, Bool.not_eq_true'] at h
    exact h.2 d (eq ▸ hd)

/-- A character of a word is none behind which a second name may begin. -/
theorem ne_of_isBoundary {c d : Char} (hc : isBoundary c = false) (hd : isBoundary d = true) :
    c ≠ d := by
  rintro rfl
  rw [hc] at hd
  cases hd

/-- A character behind which a second name may begin stands in no plain word. -/
theorem notMem_of_isPlainWord {s : String} (h : isPlainWord s = true) {d : Char}
    (hd : isBoundary d = true) : d ∉ s.toList := fun m =>
  ne_of_isBoundary (isBoundary_eq_false_of_isPlainWord h m) hd rfl

/-- Second names that are plain words. -/
def PlainAliases (aliases : Aliases) : Prop := ∀ pair ∈ aliases, isPlainWord pair.1 = true

instance (aliases : Aliases) : Decidable (PlainAliases aliases) :=
  inferInstanceAs (Decidable (∀ pair ∈ aliases, isPlainWord pair.1 = true))

/-! ## One step of the scan -/

/-- The first of the second names that stands ahead is found. -/
theorem aliasAhead?_cons (asName table : String) (more : Aliases) (cs : List Char) :
    aliasAhead? ((asName, table) :: more) cs =
      if (asName.toList ++ ['.']).isPrefixOf cs then some (asName, table)
      else aliasAhead? more cs := by
  unfold aliasAhead?
  rw [List.find?_cons]
  split
  · next front => rw [if_pos front]
  · next miss => rw [if_neg (Bool.eq_false_iff.mp miss)]

section

variable (aliases : Aliases)

/-- A second name found ahead is one of those given, and stands there with a period behind it. -/
theorem mem_of_aliasAhead? {cs : List Char} {asName table : String}
    (h : aliasAhead? aliases cs = some (asName, table)) :
    (asName, table) ∈ aliases ∧ asName.toList ++ ['.'] <+: cs := by
  have front := List.find?_some h
  exact ⟨List.mem_of_find?_eq_some h, List.isPrefixOf_iff_prefix.mp front⟩

@[simp] theorem substituteFrom_nil (skip : Nat) (fresh : Bool) :
    substituteFrom aliases skip fresh [] = [] := by
  cases skip <;> rfl

/-- Passing over `skip` characters drops them. -/
theorem substituteFrom_skip (skip : Nat) (cs : List Char) :
    substituteFrom aliases skip false cs = substituteFrom aliases 0 false (cs.drop skip) := by
  induction cs generalizing skip with
  | nil => simp
  | cons c cs ih =>
    cases skip with
    | zero => rfl
    | succ n => simpa [substituteFrom] using ih n

/-- Where no second name is ahead, it does not matter whether one may begin. -/
theorem substituteFrom_fresh {cs : List Char} (h : aliasAhead? aliases cs = none) (fresh : Bool) :
    substituteFrom aliases 0 fresh cs = substituteFrom aliases 0 false cs := by
  cases cs with
  | nil => simp
  | cons c cs => cases fresh <;> simp [substituteFrom, h]

/-- One step of the scan, where `fresh` tells whether a second name may begin: a second name ahead
is written as its table, and any other character is kept. -/
theorem substituteFrom_cons (fresh : Bool) (c : Char) (cs : List Char) :
    substituteFrom aliases 0 fresh (c :: cs) =
      match if fresh then aliasAhead? aliases (c :: cs) else none with
      | some (asName, table) =>
        table.toList ++ '.' :: substituteFrom aliases 0 false (cs.drop asName.length)
      | none => c :: substituteFrom aliases 0 (isBoundary c) cs := by
  rw [substituteFrom]
  cases (if fresh then aliasAhead? aliases (c :: cs) else none) with
  | some pair => exact congrArg (pair.2.toList ++ '.' :: ·) (substituteFrom_skip aliases _ cs)
  | none =>
    dsimp only
    by_cases boundary : isBoundary c = true
    · rw [if_pos boundary, boundary]
      cases ahead : aliasAhead? aliases cs with
      | some pair =>
        -- what the scan looks at behind a boundary is what a fresh scan finds there
        obtain ⟨asName, table⟩ := pair
        dsimp only
        obtain ⟨rest, rfl⟩ := (mem_of_aliasAhead? aliases ahead).2
        obtain ⟨d, ds, eq⟩ : ∃ d ds, asName.toList ++ ['.'] ++ rest = d :: ds :=
          List.exists_cons_of_ne_nil (by simp)
        rw [eq] at ahead ⊢
        rw [substituteFrom_skip, List.drop_succ_cons, substituteFrom, if_pos rfl, ahead]
        dsimp only
        rw [substituteFrom_skip aliases asName.length, List.cons_append]
      | none => rw [substituteFrom_fresh aliases ahead true]
    · rw [if_neg boundary, Bool.eq_false_iff.mpr boundary]

/-- Without second names the text stays as it is. -/
theorem substituteFrom_empty (fresh : Bool) (cs : List Char) :
    substituteFrom [] 0 fresh cs = cs := by
  induction cs generalizing fresh with
  | nil => simp
  | cons c cs ih =>
    have none_ahead : (if fresh then aliasAhead? [] (c :: cs) else none) = none := by
      cases fresh <;> rfl
    rw [substituteFrom_cons, none_ahead]
    exact congrArg (c :: ·) (ih _)

/-- The scan gives the characters of the whole text, also where there are no second names. -/
theorem toList_substituteAliases (text : String) :
    (substituteAliases aliases text).toList = substituteFrom aliases 0 true text.toList := by
  unfold substituteAliases
  split
  · next empty =>
    obtain rfl : aliases = [] := List.isEmpty_iff.mp empty
    rw [substituteFrom_empty]
  · rw [String.toList_ofList]

/-- Where no second name begins, a character is kept. -/
theorem substituteFrom_cons_false (c : Char) (cs : List Char) :
    substituteFrom aliases 0 false (c :: cs) = c :: substituteFrom aliases 0 (isBoundary c) cs := by
  rw [substituteFrom_cons]
  rfl

/-- Without a period nothing is written anew. -/
theorem substituteFrom_of_notMem_period (fresh : Bool) {cs : List Char} (h : '.' ∉ cs) :
    substituteFrom aliases 0 fresh cs = cs := by
  induction cs generalizing fresh with
  | nil => simp
  | cons c cs ih =>
    -- a second name ahead would bring its period
    have none_ahead : aliasAhead? aliases (c :: cs) = none := by
      cases ahead : aliasAhead? aliases (c :: cs) with
      | none => rfl
      | some pair =>
        have front := (mem_of_aliasAhead? aliases ahead).2
        exact absurd (front.subset (by simp)) h
    rw [substituteFrom_fresh aliases none_ahead, substituteFrom_cons_false,
      ih _ fun m => h (List.mem_cons_of_mem c m)]

/-- Inside a word no second name begins, so that the word is kept with its period. Behind the period
one may begin. -/
theorem substituteFrom_letters {letters : List Char}
    (hletters : ∀ d ∈ letters, isBoundary d = false) (body : List Char) :
    substituteFrom aliases 0 false (letters ++ '.' :: body) =
      letters ++ '.' :: substituteFrom aliases 0 true body := by
  induction letters with
  | nil => exact substituteFrom_cons_false aliases '.' body
  | cons d ds ih =>
    rw [List.cons_append, substituteFrom_cons_false, hletters d List.mem_cons_self,
      ih fun other m => hletters other (List.mem_cons_of_mem d m), List.cons_append]

end

/-! ## Separators -/

/-- A character that parts a text: a second name may begin behind it, and it stands in none with the
period that follows. -/
structure Separates (aliases : Aliases) (d : Char) : Prop where
  /-- A second name may begin behind it. -/
  isBoundary : isBoundary d = true
  /-- It is no period. -/
  ne_period : d ≠ '.'
  /-- No second name holds it. -/
  notMem : ∀ pair ∈ aliases, d ∉ pair.1.toList

section

variable {aliases : Aliases} {d : Char}

/-- In front of a separator the same second names are found as without what follows. -/
theorem Separates.aliasAhead?_append_cons (h : Separates aliases d) (before after : List Char) :
    aliasAhead? aliases (before ++ d :: after) = aliasAhead? aliases before := by
  unfold aliasAhead?
  refine List.find?_congr fun pair m => ?_
  refine isPrefixOf_append_cons ?_ before after
  simpa [h.ne_period] using h.notMem pair m

/-- The stretches around a separator are treated one by one. -/
theorem substituteFrom_append_cons (h : Separates aliases d) (fresh : Bool)
    (before after : List Char) :
    substituteFrom aliases 0 fresh (before ++ d :: after) =
      substituteFrom aliases 0 fresh before ++ d :: substituteFrom aliases 0 true after := by
  -- a second name may take away several characters at once, so the induction is on the length
  induction size : before.length using Nat.strongRecOn generalizing before fresh with
  | ind size ih =>
    subst size
    cases before with
    | nil =>
      -- the separator begins no second name, and behind it one may begin
      have none_ahead : aliasAhead? aliases (d :: after) = none := by
        have := h.aliasAhead?_append_cons [] after
        rw [List.nil_append] at this
        rw [this]
        simp [aliasAhead?]
      rw [List.nil_append, substituteFrom_fresh aliases none_ahead, substituteFrom_cons_false,
        h.isBoundary, substituteFrom_nil, List.nil_append]
    | cons c cs =>
      rw [List.cons_append, substituteFrom_cons, substituteFrom_cons, ← List.cons_append,
        h.aliasAhead?_append_cons]
      split
      · next asName table ahead =>
        have front : asName.toList ++ ['.'] <+: c :: cs := by
          cases fresh with
          | true => exact (mem_of_aliasAhead? aliases ahead).2
          | false => cases ahead
        -- the name lies in front of the separator with its period
        have fits : asName.length ≤ cs.length := by
          have := front.length_le
          simpa [← String.length_toList] using this
        have shorter : (cs.drop asName.length).length < (c :: cs).length := by
          rw [List.length_drop, List.length_cons]
          omega
        rw [List.drop_append_of_le_length fits, ih _ shorter _ _ rfl, List.append_assoc,
          List.cons_append]
      · rw [ih _ (by simp) _ cs rfl, List.cons_append]

end

/-! ## Tables of words -/

/-- A table that a second name stands for is one of those given. -/
theorem mem_of_table? {aliases : Aliases} {asName table : String}
    (h : aliases.table? asName = some table) : (asName, table) ∈ aliases := by
  induction aliases with
  | nil => cases h
  | cons pair rest ih =>
    obtain ⟨other, otherTable⟩ := pair
    rw [Aliases.table?_cons] at h
    by_cases same : asName = other
    · rw [if_pos same] at h
      rw [same, ← Option.some.inj h]
      exact List.mem_cons_self
    · rw [if_neg same] at h
      exact List.mem_cons_of_mem _ (ih h)

/-- Where no second name begins with a character, none is found in front of it. -/
theorem aliasAhead?_cons_eq_none {aliases : Aliases} {c : Char}
    (others : ∀ pair ∈ aliases, ∃ d ds, pair.1.toList = d :: ds ∧ d ≠ c) (cs : List Char) :
    aliasAhead? aliases (c :: cs) = none := by
  cases ahead : aliasAhead? aliases (c :: cs) with
  | none => rfl
  | some pair =>
    obtain ⟨m, rest, eq⟩ := mem_of_aliasAhead? aliases ahead
    obtain ⟨d, ds, name, ne⟩ := others _ m
    rw [name] at eq
    exact absurd (List.cons.inj eq).1 ne

/-- Where second names hold no period, the one in front of a period is all that stands there. -/
theorem aliasAhead?_append_period {aliases : Aliases}
    (names : ∀ pair ∈ aliases, '.' ∉ pair.1.toList) {w : String} (hw : '.' ∉ w.toList)
    (rest : List Char) :
    aliasAhead? aliases (w.toList ++ '.' :: rest) =
      (aliases.table? w).map fun table => (w, table) := by
  induction aliases with
  | nil => rfl
  | cons pair more ih =>
    obtain ⟨asName, table⟩ := pair
    have hname : '.' ∉ asName.toList := names _ List.mem_cons_self
    rw [aliasAhead?_cons, Aliases.table?_cons]
    by_cases same : w = asName
    · subst same
      have front : (w.toList ++ ['.']).isPrefixOf (w.toList ++ '.' :: rest) = true :=
        List.isPrefixOf_iff_prefix.mpr ⟨rest, by simp⟩
      rw [if_pos front, if_pos rfl, Option.map_some]
    · -- a second name that stands in front ends at the same period as the word
      have miss : ¬(asName.toList ++ ['.']).isPrefixOf (w.toList ++ '.' :: rest) = true := by
        refine fun front => same ?_
        obtain ⟨more, eq⟩ := List.isPrefixOf_iff_prefix.mp front
        rw [List.append_assoc] at eq
        exact String.toList_inj.mp (eq_of_append_cons_eq hw hname eq.symm)
      rw [if_neg miss, if_neg same]
      exact ih fun other m => names other (List.mem_cons_of_mem _ m)

/-! ## Plain second names -/

section Plain

variable {aliases : Aliases} (plain : PlainAliases aliases)

include plain

/-- Behind plain second names, every boundary but the period parts the text. -/
theorem PlainAliases.separates {d : Char} (hd : isBoundary d = true) (hne : d ≠ '.') :
    Separates aliases d :=
  ⟨hd, hne, fun pair m => notMem_of_isPlainWord (plain pair m) hd⟩

/-- No plain second name begins with a digit or a boundary. -/
theorem PlainAliases.aliasAhead?_eq_none {c : Char}
    (hc : c.isDigit = true ∨ isBoundary c = true) (cs : List Char) :
    aliasAhead? aliases (c :: cs) = none := by
  refine aliasAhead?_cons_eq_none (fun pair m => ?_) cs
  obtain ⟨d, ds, hd, notDigit⟩ := exists_cons_of_isPlainWord (plain pair m)
  have notBoundary := isBoundary_eq_false_of_isPlainWord (plain pair m) (hd ▸ List.mem_cons_self)
  refine ⟨d, ds, hd, ?_⟩
  rintro rfl
  rcases hc with hc | hc
  · cases hc.symm.trans notDigit
  · cases hc.symm.trans notBoundary

/-- The second name in front of a period is the whole word there. -/
theorem PlainAliases.aliasAhead?_word {w : String} (hw : '.' ∉ w.toList) (rest : List Char) :
    aliasAhead? aliases (w.toList ++ '.' :: rest) =
      (aliases.table? w).map fun table => (w, table) :=
  aliasAhead?_append_period (fun pair m => notMem_of_isPlainWord (plain pair m) (by decide)) hw rest

/-- A word in front of a period is written as its table. Behind the period a second name may begin
only if the word was none. -/
theorem substituteFrom_front {w : String} (hw : isPlainWord w = true) (body : List Char) :
    substituteFrom aliases 0 true (w.toList ++ '.' :: body) =
      ((aliases.table? w).getD w).toList ++
        '.' :: substituteFrom aliases 0 (aliases.table? w).isNone body := by
  have noPeriod : '.' ∉ w.toList := notMem_of_isPlainWord hw (by decide)
  have ahead := plain.aliasAhead?_word noPeriod body
  obtain ⟨c, cs, hc, -⟩ := exists_cons_of_isPlainWord hw
  have size : w.length = cs.length + 1 := by rw [← String.length_toList, hc, List.length_cons]
  cases table : aliases.table? w with
  | none =>
    rw [table] at ahead
    rw [substituteFrom_fresh aliases ahead true, substituteFrom_letters aliases fun d hd =>
      isBoundary_eq_false_of_isPlainWord hw hd]
    rfl
  | some t =>
    -- the rest of the word is passed over with its period
    rw [table, hc, List.cons_append] at ahead
    rw [hc, List.cons_append, substituteFrom_cons, if_pos rfl, ahead]
    dsimp only [Option.map_some, Option.getD_some]
    rw [size, ← List.drop_drop, List.drop_left, List.drop_succ_cons, List.drop_zero]
    rfl

/-- A word in front of the only period is written as its table. -/
theorem substituteFrom_word {w : String} (hw : isPlainWord w = true) {body : List Char}
    (hbody : '.' ∉ body) :
    substituteFrom aliases 0 true (w.toList ++ '.' :: body) =
      ((aliases.table? w).getD w).toList ++ '.' :: body := by
  rw [substituteFrom_front plain hw, substituteFrom_of_notMem_period aliases _ hbody]

/-- Behind digits a period belongs to a number. -/
theorem substituteFrom_digits (fresh : Bool) {digits more : List Char}
    (hdigits : ∀ d ∈ digits, d.isDigit = true) (hmore : '.' ∉ more) :
    substituteFrom aliases 0 fresh (digits ++ '.' :: more) = digits ++ '.' :: more := by
  induction digits generalizing fresh with
  | nil =>
    -- at the period itself no second name begins, and what follows has no other period
    have none_ahead := plain.aliasAhead?_eq_none (Or.inr (by decide : isBoundary '.' = true)) more
    rw [List.nil_append, substituteFrom_fresh aliases none_ahead, substituteFrom_cons_false,
      substituteFrom_of_notMem_period aliases _ hmore]
  | cons d ds ih =>
    have hd := hdigits d List.mem_cons_self
    have none_ahead := plain.aliasAhead?_eq_none (Or.inl hd) (ds ++ '.' :: more)
    rw [List.cons_append, substituteFrom_fresh aliases none_ahead, substituteFrom_cons_false,
      ih _ fun other m => hdigits other (List.mem_cons_of_mem d m)]

end Plain

end SqlFootprint.Filter
