import Mathlib.Data.List.Induction
import SqlFootprint.Dump.Connection
import SqlFootprint.Proofs.Text.Trimming

/-! # Connections put together step by step

A connection begins with nothing said of it, and each step says a value of one field. After any
number of steps it is the connection of the last values (`after_eq_said`): of the server, its
address, the user and the password the last value counts, and a blank one takes the field away; of
the database the last value counts that is not blank. What a command is told follows from that
(`connects_lastSaid`), so that steps on different fields may come in any order. -/

namespace SqlFootprint.Dump.Connection

/-- The connection after steps, each of which says a value of a field. -/
def after (steps : List (Field × String)) : Connection :=
  steps.foldl (fun c step => c.set step.1 step.2) default

/-- The last step is made after the others. -/
theorem after_concat (steps : List (Field × String)) (step : Field × String) :
    after (steps ++ [step]) = (after steps).set step.1 step.2 :=
  List.foldl_append

/-! ## The last values -/

/-- The values that steps say of a field, in their order. -/
def valuesOf (field : Field) (steps : List (Field × String)) : List String :=
  (steps.filter (·.1 = field)).map (·.2)

/-- The last value of a field, without the blanks around it; none if it is blank. -/
def lastSaid (field : Field) (steps : List (Field × String)) : Option String :=
  (valuesOf field steps).getLast?.bind given?

/-- The last value of the database that is not blank, without the blanks around it. -/
def lastNamed (steps : List (Field × String)) : Option String :=
  ((valuesOf .database steps).filterMap given?).getLast?

/-- The connection of the last values. -/
def said (steps : List (Field × String)) : Connection where
  host := lastSaid .host steps
  ip := lastSaid .ip steps
  user := lastSaid .user steps
  password := lastSaid .password steps
  database := (lastNamed steps).getD defaultDatabase

/-- Nothing is left of a value exactly if it is blank; what is left is its text between the
blanks. -/
theorem given?_eq_some_iff {value trimmed : String} :
    given? value = some trimmed ↔ trimmed ≠ "" ∧ Text.Trims value trimmed := by
  rw [given?, Text.trims_iff]
  cases blank : (Text.trim value).isEmpty with
  | true =>
    have none_left : Text.trim value = "" := String.isEmpty_iff.mp blank
    simp [none_left]
  | false =>
    have some_left : Text.trim value ≠ "" := fun h => by simp [h] at blank
    simp only [Bool.false_eq_true, if_false, Option.some.injEq]
    constructor
    · rintro rfl
      exact ⟨some_left, rfl⟩
    · rintro ⟨-, rfl⟩
      rfl

/-! ## One more step -/

section

variable {field other : Field} {steps : List (Field × String)} {value : String}

/-- A step adds its value to the values of its field. -/
theorem valuesOf_concat_self :
    valuesOf field (steps ++ [(field, value)]) = valuesOf field steps ++ [value] := by
  simp [valuesOf]

/-- A step adds nothing to the values of another field. -/
theorem valuesOf_concat_of_ne (h : other ≠ field) :
    valuesOf field (steps ++ [(other, value)]) = valuesOf field steps := by
  simp [valuesOf, h]

/-- A step says the last value of its field. -/
@[simp] theorem lastSaid_concat_self :
    lastSaid field (steps ++ [(field, value)]) = given? value := by
  simp [lastSaid, valuesOf_concat_self]

/-- A step keeps the last value of another field. -/
theorem lastSaid_concat_of_ne (h : other ≠ field) :
    lastSaid field (steps ++ [(other, value)]) = lastSaid field steps := by
  rw [lastSaid, valuesOf_concat_of_ne h, lastSaid]

/-- A step names the database unless its value is blank. -/
@[simp] theorem lastNamed_concat_database :
    lastNamed (steps ++ [(.database, value)]) = (given? value).or (lastNamed steps) := by
  rw [lastNamed, valuesOf_concat_self, List.filterMap_append, List.getLast?_append, lastNamed]
  cases given : given? value <;> simp [given]

/-- A step keeps the name of the database if it is on another field. -/
theorem lastNamed_concat_of_ne (h : other ≠ .database) :
    lastNamed (steps ++ [(other, value)]) = lastNamed steps := by
  rw [lastNamed, valuesOf_concat_of_ne h, lastNamed]

/-- A step changes the connection of the last values as it changes any connection. -/
theorem said_concat : said (steps ++ [(field, value)]) = (said steps).set field value := by
  cases field with
  | database =>
    -- a blank value keeps the name that stood there before
    simp only [said, set, lastNamed_concat_database, lastSaid_concat_of_ne, ne_eq, reduceCtorEq,
      not_false_eq_true]
    cases given? value <;> rfl
  | _ => simp [said, set, lastSaid_concat_of_ne, lastNamed_concat_of_ne]

end

/-- After any number of steps a connection is the one of the last values. -/
theorem after_eq_said (steps : List (Field × String)) : after steps = said steps := by
  -- the steps are taken away from the end, where the values stand that count
  induction steps using List.reverseRecOn with
  | nil => rfl
  | append_singleton steps step ih => rw [after_concat, ih, said_concat]

/-! ## What a command is told -/

/-- The flags of a command are those with a value. -/
theorem options_eq_join (c : Connection) :
    c.options = String.join
      ([("-h ", c.target), ("-u ", c.user), ("--password=", c.password)].filterMap
        fun (words, value) => value.map (" " ++ words ++ ·)) := by
  rw [options]
  cases c.target <;> cases c.user <;> cases c.password <;> simp [flag, String.join]

/-- Two runs of steps end alike if they agree on the last value of each field but the database and
on the last value of the database that is not blank. -/
structure EndAlike (steps other : List (Field × String)) : Prop where
  /-- They agree on the last value of each field but the database. -/
  last : ∀ field ≠ Field.database,
    (valuesOf field steps).getLast? = (valuesOf field other).getLast?
  /-- They agree on the name of the database. -/
  name : lastNamed steps = lastNamed other

/-- Steps that end alike lead to one connection. -/
theorem EndAlike.after_eq {steps other : List (Field × String)} (h : EndAlike steps other) :
    after steps = after other := by
  have same (field : Field) (ne : field ≠ .database) :
      lastSaid field steps = lastSaid field other := by
    rw [lastSaid, h.last field ne, lastSaid]
  rw [after_eq_said, after_eq_said, said, said, h.name]
  simp only [same, ne_eq, reduceCtorEq, not_false_eq_true]

/-- What a command is told of the server, the user and the password follows from the last value of
each field, where the address of the server comes before its name whatever was said first, and a
field whose last value is blank has no flag. The database is the last one that is not blank. So
steps may be mixed in any way that keeps the order of the values of each field. -/
theorem connects_lastSaid (steps : List (Field × String)) :
    (after steps).target = (lastSaid .ip steps).or (lastSaid .host steps) ∧
      (after steps).options = String.join
        ([("-h ", (lastSaid .ip steps).or (lastSaid .host steps)), ("-u ", lastSaid .user steps),
          ("--password=", lastSaid .password steps)].filterMap
            fun (words, value) => value.map (" " ++ words ++ ·)) ∧
      (after steps).database = (lastNamed steps).getD defaultDatabase ∧
      (∀ value trimmed, given? value = some trimmed ↔ trimmed ≠ "" ∧ Text.Trims value trimmed) ∧
      (∀ other, EndAlike steps other → after steps = after other) ∧
      ∀ other, (∀ field, valuesOf field steps = valuesOf field other) →
        after steps = after other := by
  have target : (after steps).target = (lastSaid .ip steps).or (lastSaid .host steps) := by
    rw [after_eq_said, said, Connection.target]
    cases lastSaid .ip steps <;> rfl
  refine ⟨target, ?_, by rw [after_eq_said, said], fun _ _ => given?_eq_some_iff,
    fun _ alike => alike.after_eq, fun other same => ?_⟩
  · rw [options_eq_join, target, after_eq_said, said]
  · exact EndAlike.after_eq ⟨fun field _ => by rw [same], by rw [lastNamed, same, lastNamed]⟩

/-- Steps on all fields, with blanks around and blank values among them. -/
def mixedSteps : List (Field × String) :=
  [(.ip, " 10.0.0.5\t"), (.user, "root"), (.host, "db"), (.database, "shop "),
    (.password, "\u00A0pw"), (.user, "  "), (.database, "\n")]

/-- The steps of `mixedSteps`, field by field. -/
def sortedSteps : List (Field × String) :=
  [(.database, "shop "), (.database, "\n"), (.host, "db"), (.ip, " 10.0.0.5\t"),
    (.password, "\u00A0pw"), (.user, "root"), (.user, "  ")]

/-- A blank user takes the one before away, and a blank database does not. -/
theorem connects_mixedSteps :
    (after mixedSteps).options = " -h 10.0.0.5 --password=pw" ∧
      (after mixedSteps).database = "shop" ∧
      (∀ field, valuesOf field mixedSteps = valuesOf field sortedSteps) ∧
      after mixedSteps = after sortedSteps := by
  have same : ∀ field, valuesOf field mixedSteps = valuesOf field sortedSteps := by
    intro field
    cases field <;> rfl
  obtain ⟨-, options, database, -, -, mixed⟩ := connects_lastSaid mixedSteps
  exact ⟨options.trans (by decide +kernel), database.trans (by decide +kernel), same,
    mixed sortedSteps same⟩

end SqlFootprint.Dump.Connection
