import Mathlib.Data.List.SplitBy
import SqlFootprint.Proofs.Filter.Repetition

/-! # Second names as whole runs

The scan for second names works character by character. What it does can be told without it, on the
runs of a text (`substituteAliases_eq_runs`): a run is written as its table exactly if it is a
second name, a period stands behind it, and it does not stand directly behind the period of another
run that is written as its table; all else stays as it is. So the order in which the second names
are tried does not matter, one that begins like another never takes its place, and no table is
looked at once it is written. -/

namespace SqlFootprint.Filter

open Text

/-! ## Runs -/

/-- Whether two characters that stand side by side belong to one run. -/
def isJoined (c d : Char) : Bool := !isBoundary c && !isBoundary d

/-- The runs of a text: as many letters, digits, underscores and dollar signs as stand side by side,
and every other character on its own. -/
def runs (cs : List Char) : List (List Char) := cs.splitBy isJoined

/-- From a place on there is the run at that place and what stands behind it. -/
theorem drop_eq_cons {pieces : List (List Char)} {place : Nat} {run : List Char}
    (here : pieces[place]? = some run) : pieces.drop place = run :: pieces.drop (place + 1) := by
  obtain ⟨inside, rfl⟩ := List.getElem?_eq_some_iff.mp here
  exact List.drop_eq_getElem_cons inside

section

variable {cs run : List Char}

/-- A run is a boundary on its own, or it holds none. -/
theorem run_cases (m : run ∈ runs cs) :
    (∃ c, isBoundary c = true ∧ run = [c]) ∨ run ≠ [] ∧ ∀ c ∈ run, isBoundary c = false := by
  have chain := List.isChain_of_mem_splitBy m
  cases run with
  | nil => exact absurd m (List.nil_notMem_splitBy _ cs)
  | cons c ds =>
    cases boundary : isBoundary c with
    | true =>
      cases ds with
      | nil => exact .inl ⟨c, boundary, rfl⟩
      | cons d ds =>
        -- a boundary is joined with nothing
        have beside := (List.isChain_cons_cons.mp chain).1
        simp [isJoined, boundary] at beside
    | false =>
      -- what is joined with a letter is a letter, and so on along the chain
      refine .inr ⟨List.cons_ne_nil c ds, ?_⟩
      clear m
      induction ds generalizing c with
      | nil => simpa using boundary
      | cons d ds ih =>
        obtain ⟨beside, chain⟩ := List.isChain_cons_cons.mp chain
        have next : isBoundary d = false := by simpa [isJoined, boundary] using beside
        rw [List.forall_mem_cons]
        exact ⟨boundary, ih d chain next⟩

/-- Behind a run without a boundary there is one, or nothing. -/
theorem isBoundary_head?_behind {place : Nat} (here : (runs cs)[place]? = some run)
    (letters : ∀ c ∈ run, isBoundary c = false) :
    ∀ d ∈ ((runs cs).drop (place + 1)).flatten.head?, isBoundary d = true := by
  cases split : (runs cs).drop (place + 1) with
  | nil => simp
  | cons next rest =>
    have chain := (List.isChain_getLast_head_splitBy isJoined cs).drop place
    rw [← runs, drop_eq_cons here, split] at chain
    obtain ⟨⟨ha, hb, apart⟩, -⟩ := List.isChain_cons_cons.mp chain
    rw [List.flatten_cons, List.head?_append_of_ne_nil _ hb, List.head?_eq_some_head hb]
    rintro d ⟨⟩
    simpa [isJoined, letters _ (List.getLast_mem ha)] using apart

/-- A period comes next exactly if the next run is a period on its own. -/
theorem head?_flatten_drop_runs (place : Nat) :
    ((runs cs).drop place).flatten.head? = some '.' ↔ (runs cs)[place]? = some ['.'] := by
  rw [← List.head?_drop]
  cases split : (runs cs).drop place with
  | nil => simp
  | cons next rest =>
    have m : next ∈ runs cs := List.mem_of_mem_drop (split ▸ List.mem_cons_self)
    rcases run_cases m with ⟨c, -, rfl⟩ | ⟨nonempty, letters⟩
    · simp
    · obtain ⟨c, ds, rfl⟩ := List.exists_cons_of_ne_nil nonempty
      have ne : c ≠ '.' := ne_of_isBoundary (letters c List.mem_cons_self) (by decide)
      simp [ne]

end

/-! ## The scan, run by run -/

section

variable {aliases : Aliases} (words : ∀ pair ∈ aliases, isWord pair.1 = true)

include words

/-- No second name begins with a boundary. -/
theorem aliasAhead?_boundary {c : Char} (boundary : isBoundary c = true) (rest : List Char) :
    aliasAhead? aliases (c :: rest) = none := by
  refine aliasAhead?_cons_eq_none (fun pair m => ?_) rest
  obtain ⟨d, ds, name, letter⟩ := exists_cons_of_isWord (words pair m)
  exact ⟨d, ds, name, ne_of_isBoundary letter boundary⟩

/-- A boundary is kept, and behind it a second name may begin. -/
theorem substituteFrom_boundary {c : Char} (boundary : isBoundary c = true) (fresh : Bool)
    (rest : List Char) :
    substituteFrom aliases 0 fresh (c :: rest) = c :: substituteFrom aliases 0 true rest := by
  rw [substituteFrom_fresh aliases (aliasAhead?_boundary words boundary rest),
    substituteFrom_cons_false, boundary]

variable {run rest : List Char} (letters : ∀ c ∈ run, isBoundary c = false)
  (edge : ∀ d ∈ rest.head?, isBoundary d = true)

include letters edge

/-- Inside a run no second name begins. -/
theorem substituteFrom_kept :
    substituteFrom aliases 0 false (run ++ rest) = run ++ substituteFrom aliases 0 true rest := by
  induction run with
  | nil =>
    cases rest with
    | nil => simp
    | cons d ds =>
      rw [List.nil_append, List.nil_append, substituteFrom_boundary words (edge d rfl),
        substituteFrom_boundary words (edge d rfl)]
  | cons c cs ih =>
    rw [List.cons_append, substituteFrom_cons_false, letters c List.mem_cons_self,
      ih fun d m => letters d (List.mem_cons_of_mem c m), List.cons_append]

/-- A second name in front of something is the whole run there, with a period behind it. -/
theorem aliasAhead?_run :
    aliasAhead? aliases (run ++ rest) =
      if rest.head? = some '.' then
        (aliases.table? (String.ofList run)).map (String.ofList run, ·)
      else none := by
  have chars : (String.ofList run).toList = run := String.toList_ofList
  have noPeriod : '.' ∉ run := fun m => ne_of_isBoundary (letters _ m) (by decide) rfl
  split
  · next period =>
    obtain ⟨after, rfl⟩ := List.head?_eq_some_iff.mp period
    have names : ∀ pair ∈ aliases, '.' ∉ pair.1.toList :=
      fun pair m => period_notMem_of_isWord (words pair m)
    have ahead := aliasAhead?_append_period names (chars.symm ▸ noPeriod) after
    rwa [chars] at ahead
  · next other =>
    cases ahead : aliasAhead? aliases (run ++ rest) with
    | none => rfl
    | some pair =>
      -- the name would end inside the run, where no period stands, or at the boundary behind it
      obtain ⟨m, after, eq⟩ := mem_of_aliasAhead? aliases ahead
      have name := fun c => isBoundary_eq_false_of_isWord (words _ m) (c := c)
      rw [List.append_assoc, List.append_eq_append_iff] at eq
      rcases eq with ⟨left, eq, behind⟩ | ⟨left, eq, behind⟩
      · cases left with
        | nil => exact absurd (congrArg List.head? behind).symm other
        | cons d ds =>
          obtain rfl : '.' = d := (List.cons.inj behind).1
          exact absurd (by rw [eq]; simp) noPeriod
      · cases left with
        | nil => exact absurd (congrArg List.head? behind) other
        | cons d ds =>
          have boundary := edge d (by rw [behind]; rfl)
          have letter := name d (by rw [eq]; simp)
          cases letter.symm.trans boundary

/-- Where a second name may begin, a run with a table and a period behind it is written as its
table, and none may begin behind the period. Any other run is kept, and one may begin behind it. -/
theorem substituteFrom_run (nonempty : run ≠ []) (fresh : Bool) :
    substituteFrom aliases 0 fresh (run ++ rest) =
      match if fresh = true ∧ rest.head? = some '.' then aliases.table? (String.ofList run)
        else none with
      | some table => table.toList ++ '.' :: substituteFrom aliases 0 false rest.tail
      | none => run ++ substituteFrom aliases 0 true rest := by
  have ahead := aliasAhead?_run words letters edge
  have kept := substituteFrom_kept words letters edge
  cases fresh with
  | false => simpa using kept
  | true =>
    by_cases period : rest.head? = some '.'
    · obtain ⟨after, rfl⟩ := List.head?_eq_some_iff.mp period
      rw [if_pos ⟨rfl, period⟩]
      rw [if_pos period] at ahead
      cases named : aliases.table? (String.ofList run) with
      | none =>
        rw [named] at ahead
        rw [substituteFrom_fresh aliases ahead]
        exact kept
      | some table =>
        -- the scan passes over the name and its period at once
        rw [named] at ahead
        obtain ⟨c, cs, rfl⟩ := List.exists_cons_of_ne_nil nonempty
        have drop : (cs ++ '.' :: after).drop (String.ofList (c :: cs)).length = after := by
          simp [← String.length_toList]
        rw [List.cons_append] at ahead ⊢
        rw [substituteFrom_cons, if_pos rfl, ahead]
        simp only [Option.map_some, drop, List.tail_cons]
    · rw [if_neg period] at ahead
      rw [if_neg fun h => period h.2, substituteFrom_fresh aliases ahead]
      exact kept

end

/-! ## Tables for runs -/

section

variable (aliases : Aliases) (pieces : List (List Char))

/-- The table of the run at a place, if the run is a second name with a period behind it. -/
def tableAt? (place : Nat) : Option String :=
  if pieces[place + 1]? = some ['.'] then
    pieces[place]?.bind fun run => aliases.table? (String.ofList run)
  else none

/-- The table that is written for the run at a place. If one is written for the run two places
before, the period of that run stands between them, and none is written here. -/
def written? : Nat → Option String
  | place + 2 => if (written? place).isSome then none else tableAt? aliases pieces (place + 2)
  | place => tableAt? aliases pieces place

/-- Whether a table may be written for the run at a place. -/
def isFree : Nat → Bool
  | place + 2 => (written? aliases pieces place).isNone
  | _ => true

variable {aliases pieces}

/-- Where a table may be written, it is written for a second name with a period behind it. -/
theorem written?_eq (place : Nat) :
    written? aliases pieces place =
      if isFree aliases pieces place then tableAt? aliases pieces place else none := by
  match place with
  | 0 | 1 => rfl
  | place + 2 =>
    rw [written?, isFree]
    cases written? aliases pieces place <;> rfl

/-- A table is written for a run exactly if the run is a second name with a period behind it and is
not the one behind a run with a table. -/
theorem written?_eq_some_iff {place : Nat} {table : String} :
    written? aliases pieces place = some table ↔
      (∃ run, pieces[place]? = some run ∧ aliases.table? (String.ofList run) = some table) ∧
        pieces[place + 1]? = some ['.'] ∧
          ∀ before, place = before + 2 → written? aliases pieces before = none := by
  have free : isFree aliases pieces place = true ↔
      ∀ before, place = before + 2 → written? aliases pieces before = none := by
    match place with
    | 0 | 1 => simp [isFree]
    | place + 2 => simp [isFree]
  have named : tableAt? aliases pieces place = some table ↔
      (∃ run, pieces[place]? = some run ∧ aliases.table? (String.ofList run) = some table) ∧
        pieces[place + 1]? = some ['.'] := by
    rw [tableAt?]
    split
    · next period => simp [period, Option.bind_eq_some_iff]
    · next other => simp [other]
  rw [written?_eq, ← free, ← and_assoc, ← named]
  cases isFree aliases pieces place <;> simp

/-- What is written from a place on: the tables for the runs that have one, and the other runs. -/
def writtenFrom (aliases : Aliases) (pieces : List (List Char)) (place : Nat) : List Char :=
  ((pieces.drop place).mapIdx fun i run =>
    (written? aliases pieces (place + i)).elim run String.toList).flatten

/-- What is written from a run on is what is written for it and from the next run on. -/
theorem writtenFrom_eq_append {place : Nat} {run : List Char} (here : pieces[place]? = some run) :
    writtenFrom aliases pieces place =
      (written? aliases pieces place).elim run String.toList ++
        writtenFrom aliases pieces (place + 1) := by
  rw [writtenFrom, drop_eq_cons here, List.mapIdx_cons, List.flatten_cons, writtenFrom]
  simp only [Nat.add_zero, Nat.add_assoc, Nat.add_comm 1]

end

section

variable {aliases : Aliases} (words : ∀ pair ∈ aliases, isWord pair.1 = true) (cs : List Char)

include words

/-- No table is written for a boundary. -/
theorem written?_boundary {pieces : List (List Char)} {place : Nat} {c : Char}
    (here : pieces[place]? = some [c]) (boundary : isBoundary c = true) :
    written? aliases pieces place = none := by
  cases table : written? aliases pieces place with
  | none => rfl
  | some table =>
    obtain ⟨⟨run, found, named⟩, -⟩ := written?_eq_some_iff.mp table
    obtain rfl := Option.some.inj (here.symm.trans found)
    have letter := isBoundary_eq_false_of_isWord (words _ (mem_of_table? named)) (c := c) (by simp)
    cases letter.symm.trans boundary

/-- The scan takes one run at a time: it writes the table for the run with its period, or it keeps
the run. -/
theorem substituteFrom_runs_step {place : Nat} {run : List Char}
    (here : (runs cs)[place]? = some run) :
    substituteFrom aliases 0 (isFree aliases (runs cs) place) ((runs cs).drop place).flatten =
      match written? aliases (runs cs) place with
      | some table =>
        table.toList ++ '.' :: substituteFrom aliases 0 false ((runs cs).drop (place + 2)).flatten
      | none => run ++ substituteFrom aliases 0 true ((runs cs).drop (place + 1)).flatten := by
  rw [drop_eq_cons here, List.flatten_cons]
  rcases run_cases (List.mem_of_getElem? here) with ⟨c, boundary, rfl⟩ | ⟨nonempty, letters⟩
  · rw [written?_boundary words here boundary]
    exact substituteFrom_boundary words boundary _ _
  · -- what the scan asks for at the characters is what is told of the run at its place
    have edge := isBoundary_head?_behind here letters
    have told : (if isFree aliases (runs cs) place = true ∧
          ((runs cs).drop (place + 1)).flatten.head? = some '.' then
        aliases.table? (String.ofList run) else none) = written? aliases (runs cs) place := by
      simp only [written?_eq, tableAt?, here, Option.bind_some, head?_flatten_drop_runs, ite_and]
    rw [substituteFrom_run words letters edge nonempty, told]
    cases named : written? aliases (runs cs) place with
    | none => rfl
    | some table =>
      have period := (written?_eq_some_iff.mp named).2.1
      rw [drop_eq_cons period]
      rfl

/-- Where the run before is kept, the scan goes on with what is written run by run. -/
theorem substituteFrom_drop_runs (place : Nat)
    (kept : ∀ before, place = before + 1 → written? aliases (runs cs) before = none) :
    substituteFrom aliases 0 (isFree aliases (runs cs) place) ((runs cs).drop place).flatten =
      writtenFrom aliases (runs cs) place := by
  -- the recursion is on the runs that are left, of which a table takes two: the name and its period
  cases here : (runs cs)[place]? with
  | none =>
    have done : (runs cs).drop place = [] :=
      List.drop_eq_nil_iff.mpr (List.getElem?_eq_none_iff.mp here)
    rw [writtenFrom, done, List.flatten_nil, substituteFrom_nil]
    rfl
  | some run =>
    have inside : place < (runs cs).length := (List.getElem?_eq_some_iff.mp here).1
    rw [substituteFrom_runs_step words cs here, writtenFrom_eq_append here]
    cases named : written? aliases (runs cs) place with
    | none =>
      have free_next : isFree aliases (runs cs) (place + 1) = true := by
        cases place with
        | zero => rfl
        | succ before => rw [isFree, kept before rfl, Option.isNone_none]
      have ih := substituteFrom_drop_runs (place + 1) fun before eq => by
        obtain rfl := Nat.succ.inj eq
        exact named
      rw [free_next] at ih
      exact congrArg (run ++ ·) ih
    | some table =>
      -- no table is written for the period, which stands on its own
      have period := (written?_eq_some_iff.mp named).2.1
      have skipped := written?_boundary words period (by decide)
      have ih := substituteFrom_drop_runs (place + 2) fun before eq => by
        obtain rfl := Nat.succ.inj eq
        exact skipped
      rw [isFree, named, Option.isNone_some] at ih
      rw [writtenFrom_eq_append period, skipped, ← ih]
      rfl
termination_by (runs cs).length - place

end

/-! ## The whole text -/

/-- The order of second names does not matter for their tables, if each is given once. -/
theorem table?_eq_of_perm {aliases other : Aliases} (perm : other.Perm aliases)
    (distinct : (aliases.map Prod.fst).Nodup) (asName : String) :
    other.table? asName = aliases.table? asName := by
  induction perm with
  | nil => rfl
  | cons pair perm ih =>
    obtain ⟨key, table⟩ := pair
    rw [Aliases.table?_cons, Aliases.table?_cons, ih distinct.of_cons]
  | swap first second rest =>
    -- the name is at most one of the two that change places
    have ne : first.1 ≠ second.1 := fun eq => by simp [eq] at distinct
    rw [Aliases.table?_cons, Aliases.table?_cons, Aliases.table?_cons, Aliases.table?_cons]
    by_cases h : asName = first.1
    · simp [h, ne]
    · simp [h]
  | trans perm perm' ih ih' =>
    exact (ih ((perm'.map Prod.fst).nodup_iff.mpr distinct)).trans (ih' distinct)

/-- What is written for a run depends on the tables of the second names only. -/
theorem written?_congr {aliases other : Aliases}
    (same : ∀ asName, other.table? asName = aliases.table? asName) (pieces : List (List Char)) :
    ∀ place, written? other pieces place = written? aliases pieces place
  | 0 | 1 => by simp only [written?, tableAt?, same]
  | place + 2 => by simp only [written?, tableAt?, same, written?_congr same pieces place]

/-- The text with tables for second names is what is written from its first run on. -/
theorem substituteAliases_eq_writtenFrom {aliases : Aliases}
    (words : ∀ pair ∈ aliases, isWord pair.1 = true) (text : String) :
    substituteAliases aliases text = String.ofList (writtenFrom aliases (runs text.toList) 0) := by
  have eq := substituteFrom_drop_runs words text.toList 0 (by simp)
  rw [List.drop_zero, runs, List.flatten_splitBy, ← runs] at eq
  rw [← String.toList_inj, toList_substituteAliases, String.toList_ofList, ← eq]
  rfl

/-- The text with tables for second names is made run by run. A run is written as its table exactly
if it is a second name, a period stands behind it, and it does not stand behind the period of
another run that is written as its table. The order of the second names does not matter. -/
theorem substituteAliases_eq_runs {aliases : Aliases}
    (words : ∀ pair ∈ aliases, isWord pair.1 = true) (text : String) :
    substituteAliases aliases text =
        String.ofList ((runs text.toList).mapIdx fun place run =>
          (written? aliases (runs text.toList) place).elim run String.toList).flatten ∧
      (∀ place table, written? aliases (runs text.toList) place = some table ↔
        (∃ run, (runs text.toList)[place]? = some run ∧
            aliases.table? (String.ofList run) = some table) ∧
          (runs text.toList)[place + 1]? = some ['.'] ∧
            ∀ before, place = before + 2 → written? aliases (runs text.toList) before = none) ∧
      ∀ other, other.Perm aliases → (aliases.map Prod.fst).Nodup →
        substituteAliases other text = substituteAliases aliases text := by
  refine ⟨?_, fun place table => written?_eq_some_iff, fun other perm distinct => ?_⟩
  · rw [substituteAliases_eq_writtenFrom words, writtenFrom]
    simp only [List.drop_zero, Nat.zero_add]
  · have words' : ∀ pair ∈ other, isWord pair.1 = true := fun pair m => words pair (perm.subset m)
    rw [substituteAliases_eq_writtenFrom words, substituteAliases_eq_writtenFrom words']
    simp only [writtenFrom, written?_congr (table?_eq_of_perm perm distinct)]

/-- Second names that are exchanged, and one that begins another one. -/
def exchangedNames : Aliases :=
  [("a", "b"), ("b", "a"), ("u", "users"), ("up", "profiles")]

/-- A name behind the period of a table that was written stays as it is. -/
theorem substituteAliases_exchangedNames :
    (∀ pair ∈ exchangedNames, isWord pair.1 = true) ∧
      substituteAliases exchangedNames "up.x=u.y AND b.z<(a.z) OR a.b.x=menu.id" =
        "profiles.x=users.y AND a.z<(b.z) OR b.b.x=menu.id" ∧
      exchangedNames.reverse.Perm exchangedNames ∧ (exchangedNames.map Prod.fst).Nodup ∧
      ∀ text, substituteAliases exchangedNames.reverse text =
        substituteAliases exchangedNames text := by
  have words : ∀ pair ∈ exchangedNames, isWord pair.1 = true := by decide
  have distinct : (exchangedNames.map Prod.fst).Nodup := by decide
  have perm := exchangedNames.reverse_perm
  refine ⟨words, ?_, perm, distinct, fun text =>
    (substituteAliases_eq_runs words text).2.2 _ perm distinct⟩
  rw [(substituteAliases_eq_runs words _).1]
  decide +kernel

end SqlFootprint.Filter
