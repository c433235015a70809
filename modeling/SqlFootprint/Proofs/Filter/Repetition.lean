import SqlFootprint.Proofs.Filter.Substitution

/-! # Substituting twice

A second run over a filter whose second names were written as tables should change nothing. It does
exactly if no two second names stand side by side (`substituteAliases_twice_iff`): the period
between them ends the first one, so that the scan finds no boundary in front of the other one, which
is left to the second run. -/

namespace SqlFootprint.Filter

open Text

/-! ## Words -/

/-- Whether a text is a word: letters, digits, underscores and dollar signs, and at least one of
them. -/
def isWord (s : String) : Bool := !s.isEmpty && s.toList.all fun c => !isBoundary c

/-- A word holds no character behind which a second name may begin. -/
theorem isBoundary_eq_false_of_isWord {s : String} (h : isWord s = true) {c : Char}
    (hc : c ∈ s.toList) : isBoundary c = false := by
  simp only [isWord, Bool.and_eq_true, List.all_eq_true, Bool.not_eq_true'] at h
  exact h.2 c hc

/-- A word begins with a character that is no boundary. -/
theorem exists_cons_of_isWord {s : String} (h : isWord s = true) :
    ∃ c cs, s.toList = c :: cs ∧ isBoundary c = false := by
  cases chars : s.toList with
  | nil =>
    rw [isWord, String.toList_eq_nil_iff.mp chars] at h
    cases h
  | cons c cs =>
    exact ⟨c, cs, rfl, isBoundary_eq_false_of_isWord h (chars ▸ List.mem_cons_self)⟩

/-- A word holds no period. -/
theorem period_notMem_of_isWord {s : String} (h : isWord s = true) : '.' ∉ s.toList := fun m =>
  ne_of_isBoundary (isBoundary_eq_false_of_isWord h m) (by decide) rfl

/-- Second names and tables that are words, where no table is named as a second name. -/
structure Settles (aliases : Aliases) : Prop where
  /-- The second names are words. -/
  names : ∀ pair ∈ aliases, isWord pair.1 = true
  /-- The tables are words. -/
  tables : ∀ pair ∈ aliases, isWord pair.2 = true
  /-- No table is named as a second name. -/
  apart : ∀ pair ∈ aliases, ∀ other ∈ aliases, pair.2 ≠ other.1

/-! ## Places where a second name may begin -/

/-- Whether something stands at the beginning of a text or behind a boundary in it; `edge` tells
whether the beginning counts. -/
def standsFrom (ahead : List Char → Bool) : (edge : Bool) → List Char → Bool
  | _, [] => false
  | edge, c :: cs => (edge && ahead (c :: cs)) || standsFrom ahead (isBoundary c) cs

/-- Inside a word nothing may begin, and behind its period something may. -/
theorem standsFrom_letters (ahead : List Char → Bool) {letters : List Char}
    (h : ∀ d ∈ letters, isBoundary d = false) (rest : List Char) :
    standsFrom ahead false (letters ++ '.' :: rest) = standsFrom ahead true rest := by
  induction letters with
  | nil => rfl
  | cons d ds ih =>
    rw [List.cons_append, standsFrom, h d List.mem_cons_self, Bool.false_and, Bool.false_or]
    exact ih fun other m => h other (List.mem_cons_of_mem d m)

/-- In front of a word with its period, something stands there or behind the period. -/
theorem standsFrom_word (ahead : List Char → Bool) (edge : Bool) {letters : List Char}
    (h : ∀ d ∈ letters, isBoundary d = false) (rest : List Char) :
    standsFrom ahead edge (letters ++ '.' :: rest) =
      (edge && ahead (letters ++ '.' :: rest) || standsFrom ahead true rest) := by
  cases letters with
  | nil => rfl
  | cons d ds =>
    have later := standsFrom_letters ahead (fun other m => h other (List.mem_cons_of_mem d m)) rest
    rw [List.cons_append, standsFrom, h d List.mem_cons_self, later]

/-- Something stands at a place if and only if the text can be cut there. -/
theorem standsFrom_iff {ahead : List Char → Bool} (empty : ahead [] = false) {edge : Bool}
    {cs : List Char} : standsFrom ahead edge cs = true ↔
      ∃ before rest, cs = before ++ rest ∧ ((before.getLast?.map isBoundary).getD edge) = true ∧
        ahead rest = true := by
  induction cs generalizing edge with
  | nil =>
    constructor
    · intro h
      cases h
    · rintro ⟨before, rest, eq, -, h⟩
      rw [(List.append_eq_nil_iff.mp eq.symm).2, empty] at h
      cases h
  | cons c cs ih =>
    have later (before : List Char) : (((c :: before).getLast?.map isBoundary).getD edge) =
        ((before.getLast?.map isBoundary).getD (isBoundary c)) := by
      cases before with
      | nil => rfl
      | cons d ds =>
        rw [List.getLast?_cons_cons, List.getLast?_eq_some_getLast (List.cons_ne_nil d ds)]
        rfl
    rw [standsFrom, Bool.or_eq_true, Bool.and_eq_true, ih]
    constructor
    · rintro (⟨here, stands⟩ | ⟨before, rest, rfl, here, stands⟩)
      · exact ⟨[], c :: cs, rfl, here, stands⟩
      · exact ⟨c :: before, rest, rfl, (later before).trans here, stands⟩
    · rintro ⟨before, rest, eq, here, stands⟩
      cases before with
      | nil =>
        obtain rfl : c :: cs = rest := eq
        exact .inl ⟨here, stands⟩
      | cons d before =>
        obtain ⟨rfl, rfl⟩ := List.cons.inj eq
        exact .inr ⟨before, rest, rfl, (later before).symm.trans here, stands⟩

/-! ## Second names ahead -/

section

variable {aliases : Aliases}

/-- Whether a second name is ahead. -/
def nameAhead (aliases : Aliases) (cs : List Char) : Bool := (aliasAhead? aliases cs).isSome

/-- Nothing is ahead at the end of a text. -/
theorem aliasAhead?_nil (aliases : Aliases) : aliasAhead? aliases [] = none :=
  List.find?_eq_none.mpr fun pair _ => by simp

/-- A second name is ahead if and only if one of them stands there with its period. -/
theorem nameAhead_iff {cs : List Char} : nameAhead aliases cs = true ↔
    ∃ pair ∈ aliases, ∃ after, cs = pair.1.toList ++ '.' :: after := by
  rw [nameAhead, aliasAhead?, List.find?_isSome]
  refine exists_congr fun pair => and_congr_right fun _ => ?_
  rw [List.isPrefixOf_iff_prefix]
  constructor
  · rintro ⟨after, rfl⟩
    exact ⟨after, by simp⟩
  · rintro ⟨after, rfl⟩
    exact ⟨after, by simp⟩

/-- Whether two second names are ahead, one behind the other. -/
def pairAhead (aliases : Aliases) (cs : List Char) : Bool :=
  match aliasAhead? aliases cs with
  | some (asName, _) => nameAhead aliases (cs.drop (asName.length + 1))
  | none => false

/-- Two second names stand side by side: each with its period, the first at the beginning of the
text or behind a boundary, and the second directly behind the first. -/
def SideBySide (aliases : Aliases) (text : String) : Prop :=
  ∃ before after, ∃ first ∈ aliases, ∃ second ∈ aliases,
    text.toList = before ++ (first.1.toList ++ '.' :: (second.1.toList ++ '.' :: after)) ∧
      ∀ c ∈ before.getLast?, isBoundary c = true

/-- What is ahead of a word with its period is the word. -/
theorem aliasAhead?_cut (words : ∀ pair ∈ aliases, isWord pair.1 = true) {letters rest : List Char}
    (noPeriod : '.' ∉ letters) {asName table : String}
    (ahead : aliasAhead? aliases (letters ++ '.' :: rest) = some (asName, table)) :
    asName.toList = letters := by
  obtain ⟨m, after, eq⟩ := mem_of_aliasAhead? aliases ahead
  rw [List.append_assoc] at eq
  exact eq_of_append_cons_eq (period_notMem_of_isWord (words _ m)) noPeriod eq

/-- What follows the period of a word. -/
theorem drop_word (word : String) (rest : List Char) :
    (word.toList ++ '.' :: rest).drop (word.length + 1) = rest := by
  rw [← String.length_toList, List.drop_append]
  simp

theorem pairAhead_iff (words : ∀ pair ∈ aliases, isWord pair.1 = true) {cs : List Char} :
    pairAhead aliases cs = true ↔ ∃ first ∈ aliases, ∃ second ∈ aliases, ∃ after,
      cs = first.1.toList ++ '.' :: (second.1.toList ++ '.' :: after) := by
  constructor
  · intro h
    unfold pairAhead at h
    split at h
    · next asName table ahead =>
      obtain ⟨m, rest, rfl⟩ := mem_of_aliasAhead? aliases ahead
      rw [List.append_assoc, List.singleton_append, drop_word] at h
      obtain ⟨second, msecond, after, rfl⟩ := nameAhead_iff.mp h
      exact ⟨_, m, second, msecond, after, by simp⟩
    · cases h
  · rintro ⟨first, mfirst, second, msecond, after, rfl⟩
    have named : nameAhead aliases
        (first.1.toList ++ '.' :: (second.1.toList ++ '.' :: after)) = true :=
      nameAhead_iff.mpr ⟨first, mfirst, _, rfl⟩
    obtain ⟨⟨asName, table⟩, ahead⟩ := Option.isSome_iff_exists.mp named
    have same : asName = first.1 := String.toList_inj.mp
      (aliasAhead?_cut words (period_notMem_of_isWord (words _ mfirst)) ahead)
    rw [pairAhead, ahead]
    dsimp only
    rw [same, drop_word]
    exact nameAhead_iff.mpr ⟨second, msecond, after, rfl⟩

/-- Second names stand side by side if and only if the walk finds them so. -/
theorem sideBySide_iff (words : ∀ pair ∈ aliases, isWord pair.1 = true) {text : String} :
    SideBySide aliases text ↔ standsFrom (pairAhead aliases) true text.toList = true := by
  have empty : pairAhead aliases [] = false := by rw [pairAhead, aliasAhead?_nil]
  rw [standsFrom_iff empty]
  constructor
  · rintro ⟨before, after, first, mfirst, second, msecond, eq, edge⟩
    refine ⟨before, _, eq, ?_, (pairAhead_iff words).mpr
      ⟨first, mfirst, second, msecond, after, rfl⟩⟩
    cases last : before.getLast? with
    | none => rfl
    | some c => exact edge c last
  · rintro ⟨before, rest, eq, edge, ahead⟩
    obtain ⟨first, mfirst, second, msecond, after, rfl⟩ := (pairAhead_iff words).mp ahead
    refine ⟨before, after, first, mfirst, second, msecond, eq, fun c last => ?_⟩
    rw [Option.mem_def.mp last] at edge
    exact edge

end

/-! ## What the first run leaves -/

section

variable {aliases : Aliases}

/-- What a step finds is ahead, at a place where a second name may begin. -/
theorem ahead_of_step {fresh : Bool} {cs : List Char} {found : String × String}
    (h : (if fresh then aliasAhead? aliases cs else none) = some found) :
    fresh = true ∧ aliasAhead? aliases cs = some found := by
  cases fresh with
  | false => cases h
  | true => exact ⟨rfl, h⟩

/-- Where a step finds nothing, nothing is found that needs a second name ahead. -/
theorem and_eq_false_of_step {fresh : Bool} {cs : List Char} {found : Bool}
    (h : (if fresh then aliasAhead? aliases cs else none) = none)
    (needs : aliasAhead? aliases cs = none → found = false) : (fresh && found) = false := by
  cases fresh with
  | false => rfl
  | true => exact needs h

/-- A word at the front of what a run leaves behind a kept character was there before. -/
theorem exists_of_substituteFrom_letters {letters rest cs : List Char}
    (h : ∀ d ∈ letters, isBoundary d = false)
    (eq : substituteFrom aliases 0 false cs = letters ++ '.' :: rest) :
    ∃ rest', cs = letters ++ '.' :: rest' := by
  induction letters generalizing cs with
  | nil =>
    cases cs with
    | nil => simp at eq
    | cons c cs =>
      rw [substituteFrom_cons_false] at eq
      exact ⟨cs, by rw [(List.cons.inj eq).1]; rfl⟩
  | cons d ds ih =>
    cases cs with
    | nil => simp at eq
    | cons c cs =>
      rw [substituteFrom_cons_false] at eq
      obtain ⟨rfl, kept⟩ := List.cons.inj eq
      rw [h c List.mem_cons_self] at kept
      obtain ⟨rest', rfl⟩ := ih (fun other m => h other (List.mem_cons_of_mem c m)) kept
      exact ⟨rest', rfl⟩

variable (settles : Settles aliases)

include settles

/-- A character that is kept begins no second name that did not begin there before. -/
theorem Settles.nameAhead_kept {c : Char} {cs : List Char}
    (none_ahead : aliasAhead? aliases (c :: cs) = none) :
    nameAhead aliases (c :: substituteFrom aliases 0 (isBoundary c) cs) = false := by
  rw [Bool.eq_false_iff]
  intro ahead
  obtain ⟨pair, m, after, eq⟩ := nameAhead_iff.mp ahead
  have word := settles.names pair m
  have letters : ∀ d ∈ pair.1.toList, isBoundary d = false :=
    fun d => isBoundary_eq_false_of_isWord word
  -- the word begins with the character, and the rest of it is kept
  obtain ⟨d, ds, name, letter⟩ := exists_cons_of_isWord word
  rw [name, List.cons_append] at eq
  rw [name] at letters
  obtain ⟨rfl, kept⟩ := List.cons.inj eq
  rw [letter] at kept
  obtain ⟨rest, rfl⟩ := exists_of_substituteFrom_letters
    (fun other m => letters other (List.mem_cons_of_mem c m)) kept
  have before : nameAhead aliases (c :: (ds ++ '.' :: rest)) = true :=
    nameAhead_iff.mpr ⟨pair, m, rest, by rw [name]; rfl⟩
  rw [nameAhead, none_ahead] at before
  cases before

/-- A table is no second name. -/
theorem Settles.nameAhead_table {pair : String × String} (m : pair ∈ aliases)
    (rest : List Char) : nameAhead aliases (pair.2.toList ++ '.' :: rest) = false := by
  rw [nameAhead, Option.isSome_eq_false_iff, Option.isNone_iff_eq_none]
  cases ahead : aliasAhead? aliases (pair.2.toList ++ '.' :: rest) with
  | none => rfl
  | some found =>
    have noPeriod := period_notMem_of_isWord (settles.tables pair m)
    have same := String.toList_inj.mp (aliasAhead?_cut settles.names noPeriod ahead)
    exact absurd same.symm (settles.apart pair m found (mem_of_aliasAhead? aliases ahead).1)

/-- A text stays as it is if and only if no second name stands in it where one may begin. -/
theorem Settles.substituteFrom_eq_self_iff {fresh : Bool} {cs : List Char} :
    substituteFrom aliases 0 fresh cs = cs ↔ standsFrom (nameAhead aliases) fresh cs = false := by
  induction cs generalizing fresh with
  | nil => simp [standsFrom]
  | cons c cs ih =>
    rw [substituteFrom_cons, standsFrom]
    cases here : (if fresh then aliasAhead? aliases (c :: cs) else none) with
    | none =>
      rw [and_eq_false_of_step here fun none => by rw [nameAhead, none]; rfl, Bool.false_or, ← ih]
      exact ⟨fun eq => (List.cons.inj eq).2, congrArg (c :: ·)⟩
    | some found =>
      -- the table would stand where the second name stands
      obtain ⟨rfl, ahead⟩ := ahead_of_step here
      obtain ⟨m, after, eq⟩ := mem_of_aliasAhead? aliases ahead
      rw [nameAhead, ahead]
      simp only [Option.isSome_some, Bool.true_and, Bool.true_or, Bool.true_eq_false, iff_false]
      intro same
      rw [← eq, List.append_assoc] at same
      have name := eq_of_append_cons_eq (period_notMem_of_isWord (settles.tables _ m))
        (period_notMem_of_isWord (settles.names _ m)) same
      exact settles.apart _ m _ m (String.toList_inj.mp name)

/-- What a run leaves of a second name is its table and what it leaves behind the period, where no
other may begin. -/
theorem Settles.standsFrom_written {found : String × String} (m : found ∈ aliases)
    (rest : List Char) :
    standsFrom (nameAhead aliases) true
        (found.2.toList ++ '.' :: substituteFrom aliases 0 false rest) =
      standsFrom (nameAhead aliases) true (substituteFrom aliases 0 false rest) := by
  have letters : ∀ d ∈ found.2.toList, isBoundary d = false :=
    fun d => isBoundary_eq_false_of_isWord (settles.tables _ m)
  rw [standsFrom_word _ true letters, settles.nameAhead_table m]
  rfl

/-- Behind the period of a second name another one is passed over, which then stands there. -/
theorem Settles.standsFrom_behind {rest : List Char}
    (later : standsFrom (nameAhead aliases) true (substituteFrom aliases 0 true rest) =
      standsFrom (pairAhead aliases) true rest) :
    standsFrom (nameAhead aliases) true (substituteFrom aliases 0 false rest) =
      (nameAhead aliases rest || standsFrom (pairAhead aliases) true rest) := by
  cases ahead : aliasAhead? aliases rest with
  | none =>
    rw [← substituteFrom_fresh aliases ahead true, later, nameAhead, ahead]
    rfl
  | some found =>
    obtain ⟨m, after, rfl⟩ := mem_of_aliasAhead? aliases ahead
    have letters : ∀ d ∈ found.1.toList, isBoundary d = false :=
      fun d => isBoundary_eq_false_of_isWord (settles.names _ m)
    have named (text : List Char) : nameAhead aliases (found.1.toList ++ '.' :: text) = true :=
      nameAhead_iff.mpr ⟨_, m, text, rfl⟩
    rw [List.append_assoc, List.singleton_append, substituteFrom_letters aliases letters,
      standsFrom_word _ true letters, named, named]
    rfl

/-- After a run, second names stand where two of them stood side by side. -/
theorem Settles.standsFrom_substituteFrom (fresh : Bool) (cs : List Char) :
    standsFrom (nameAhead aliases) fresh (substituteFrom aliases 0 fresh cs) =
      standsFrom (pairAhead aliases) fresh cs := by
  -- a second name is passed over at once, so the induction is on the length
  induction size : cs.length using Nat.strongRecOn generalizing cs fresh with
  | ind size ih =>
    subst size
    cases cs with
    | nil => rfl
    | cons c cs =>
      rw [substituteFrom_cons]
      cases here : (if fresh then aliasAhead? aliases (c :: cs) else none) with
      | none =>
        have later := ih cs.length (by simp) (isBoundary c) cs rfl
        have unpaired : (fresh && pairAhead aliases (c :: cs)) = false :=
          and_eq_false_of_step here fun none => by rw [pairAhead, none]
        have unnamed := and_eq_false_of_step here settles.nameAhead_kept
        dsimp only
        rw [standsFrom, standsFrom, unpaired, unnamed, Bool.false_or, Bool.false_or, later]
      | some found =>
        obtain ⟨rfl, ahead⟩ := ahead_of_step here
        obtain ⟨m, rest, eq⟩ := mem_of_aliasAhead? aliases ahead
        rw [List.append_assoc, List.singleton_append] at eq
        have letters : ∀ d ∈ found.1.toList, isBoundary d = false :=
          fun d => isBoundary_eq_false_of_isWord (settles.names _ m)
        have behind : cs.drop found.1.length = rest := by
          have := drop_word found.1 rest
          rwa [eq] at this
        have paired : pairAhead aliases (c :: cs) = nameAhead aliases rest := by
          rw [pairAhead, ahead, ← behind]
          rfl
        have shorter : rest.length < (c :: cs).length := by
          rw [← behind, List.length_drop, List.length_cons]
          omega
        dsimp only
        rw [behind, settles.standsFrom_written m,
          settles.standsFrom_behind (ih _ shorter true rest rfl), ← paired, ← eq,
          standsFrom_word (pairAhead aliases) true letters]
        rfl

/-- A second run changes nothing if and only if no two second names stand side by side in the
text. -/
theorem substituteAliases_twice_iff (text : String) :
    substituteAliases aliases (substituteAliases aliases text) = substituteAliases aliases text ↔
      ¬SideBySide aliases text := by
  rw [← String.toList_inj, toList_substituteAliases, toList_substituteAliases,
    settles.substituteFrom_eq_self_iff, settles.standsFrom_substituteFrom,
    sideBySide_iff settles.names, Bool.not_eq_true]

end

/-- Each second name in front of a period is written as its table at once, also the one behind
`ad.`, which is none. -/
theorem substituteAliases_twice_employees :
    let aliases := [("d", "Departments"), ("e", "Employees")]
    substituteAliases aliases (substituteAliases aliases "d.Head=e.d AND ad.e.x=e") =
      substituteAliases aliases "d.Head=e.d AND ad.e.x=e" := by
  have settles : Settles [("d", "Departments"), ("e", "Employees")] :=
    ⟨by decide, by decide, by decide⟩
  have apart : ¬SideBySide [("d", "Departments"), ("e", "Employees")]
      "d.Head=e.d AND ad.e.x=e" := by
    rw [sideBySide_iff settles.names]
    decide +kernel
  exact (substituteAliases_twice_iff settles _).mpr apart

/-- Of `u.u.id` the first run leaves `users.u.id`, and the second `users.users.id`. -/
theorem not_substituteAliases_twice :
    ¬∀ aliases, Settles aliases → ∀ text,
      substituteAliases aliases (substituteAliases aliases text) =
        substituteAliases aliases text := by
  intro h
  have same := h [("u", "users")] ⟨by decide, by decide, by decide⟩ "u.u.id=1"
  revert same
  decide +kernel

end SqlFootprint.Filter
