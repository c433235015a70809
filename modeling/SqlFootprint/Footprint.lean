/-! # The footprint of a statement

What a statement touches: tables, columns, the rows it picks out, and the second names it uses for
its tables. -/

namespace SqlFootprint

/-- What a statement does. -/
inductive Action where
  | insert | update | delete | select | alter | create | drop | truncate
  deriving DecidableEq, Repr

/-- The keyword of an action. -/
def Action.keyword : Action → String
  | .insert => "INSERT"
  | .update => "UPDATE"
  | .delete => "DELETE"
  | .select => "SELECT"
  | .alter => "ALTER"
  | .create => "CREATE"
  | .drop => "DROP"
  | .truncate => "TRUNCATE"

/-- The name of an action in a log line. -/
def Action.logName : Action → String
  | .insert => "Insert"
  | .update => "Update"
  | .delete => "Delete"
  | .select => "Select"
  | .alter => "Alter"
  | .create => "Create"
  | .drop => "Drop"
  | .truncate => "Truncate"

/-- Whether an action changes or removes rows that are there, so that it has a table it works on. -/
def Action.isMutation : Action → Bool
  | .update | .delete => true
  | _ => false

/-! ## Second names -/

/-- Second names and the tables they stand for, in the order of the second names, each once. -/
abbrev Aliases := List (String × String)

/-- The table of a second name. -/
def Aliases.table? (aliases : Aliases) (asName : String) : Option String := aliases.lookup asName

/-- Gives a second name to a table; what the name stood for before is forgotten. -/
def Aliases.insert (asName table : String) : Aliases → Aliases
  | [] => [(asName, table)]
  | (other, otherTable) :: rest =>
    if asName = other then (asName, table) :: rest
    else if asName < other then (asName, table) :: (other, otherTable) :: rest
    else (other, otherTable) :: Aliases.insert asName table rest

/-- Second names given one after the other. -/
def Aliases.ofList (pairs : List (String × String)) : Aliases :=
  pairs.foldl (fun aliases (asName, table) => aliases.insert asName table) []

/-- The first pair of a name counts. -/
theorem Aliases.table?_cons (asName table other : String) (rest : Aliases) :
    Aliases.table? ((asName, table) :: rest) other =
      if other = asName then some table else Aliases.table? rest other := by
  unfold Aliases.table?
  rw [List.lookup_cons]
  by_cases h : other = asName
  · simp [h]
  · have ne : (other == asName) = false := by simpa using h
    simp [h, ne]

/-- A name stands for the table that it was last given to. -/
theorem Aliases.table?_insert (asName table other : String) (aliases : Aliases) :
    (Aliases.insert asName table aliases).table? other =
      if other = asName then some table else aliases.table? other := by
  induction aliases with
  | nil => simp [Aliases.insert, Aliases.table?_cons]
  | cons first rest ih =>
    obtain ⟨key, value⟩ := first
    rw [Aliases.insert, Aliases.table?_cons]
    by_cases same : asName = key
    · rw [if_pos same, Aliases.table?_cons]
      by_cases h : other = asName
      · simp [h]
      · have ne : other ≠ key := same ▸ h
        simp [h, ne]
    · rw [if_neg same]
      by_cases lt : asName < key
      · rw [if_pos lt, Aliases.table?_cons, Aliases.table?_cons]
      · rw [if_neg lt, Aliases.table?_cons, ih]
        by_cases h : other = key
        · have ne : other ≠ asName := fun e => same (e.symm.trans h)
          rw [if_pos h, if_neg ne, if_pos h]
        · simp [h]

/-! ## The footprint -/

/-- The different items of a list, in the order in which they come first. -/
def firsts (items : List String) : List String :=
  items.foldl (fun found item => if found.contains item then found else found ++ [item]) []

/-- What a statement touches. -/
structure Footprint where
  /-- What the statement does; none for a statement that touches no tables of its own. -/
  action : Option Action
  /-- The tables by their plain names, each once, in the order in which they come first. -/
  tables : List String
  /-- The columns in the order in which they are named, as often as they are named. -/
  columns : List String
  /-- The table whose rows are changed or removed. -/
  primary : Option String
  /-- The condition on the rows in normal form; empty if there is none. -/
  filter : String
  /-- The second names of the tables. -/
  aliases : Aliases
  deriving DecidableEq, Repr

/-- The footprint of a statement that touches nothing. -/
def Footprint.empty : Footprint := ⟨none, [], [], none, "", []⟩

/-- Whether a footprint is that of a statement that changes or removes rows. -/
def Footprint.isMutation (footprint : Footprint) : Bool :=
  footprint.action.any Action.isMutation

end SqlFootprint
