import SqlFootprint.Proofs.Text.JsonReading
import SqlFootprint.Report

/-! # Footprints from their report

A report in JSON leaves out what is missing or empty. Nothing is lost by that: a field that is not
there is read as nothing, and every footprint is the only one with its object (`footprint?_json`).
Together with the reader for JSON texts this gives back the whole list of footprints
(`read_render_json`), whatever characters its names and conditions hold. -/

namespace SqlFootprint.Report

open Text

/-! ## The fields of an object -/

/-- A text. -/
def text? : Datum → Option String
  | .text value => some value
  | _ => none

/-- A list of texts. -/
def texts? : Datum → Option (List String)
  | .list items => items.mapM text?
  | _ => none

/-- A field with a text. -/
def pair? (field : String × Datum) : Option (String × String) :=
  (text? field.2).map fun value => (field.1, value)

/-- An object of texts. -/
def pairs? : Datum → Option (List (String × String))
  | .object fields => fields.mapM pair?
  | _ => none

/-- The action of a keyword. -/
def actionOf? (keyword : String) : Option Action :=
  [Action.insert, .update, .delete, .select, .alter, .create, .drop, .truncate].find? fun action =>
    action.keyword = keyword

/-- An action, or that there is none. -/
def action? : Datum → Option (Option Action)
  | .null => some none
  | .text keyword => (actionOf? keyword).map some
  | _ => none

/-- A field that may be left out if it has a value that says nothing. -/
def optional {α : Type} (fields : List (String × Datum)) (key : String) (nothing : α)
    (read : Datum → Option α) : Option α :=
  match fields.lookup key with
  | none => some nothing
  | some value => read value

/-- The footprint of an object, whatever the order of its fields. -/
def footprint? : Datum → Option Footprint
  | .object fields => do
    return {
      action := ← (fields.lookup "action").bind action?
      tables := ← (fields.lookup "tables").bind texts?
      columns := ← (fields.lookup "columns").bind texts?
      primary := ← optional fields "primary_table" none fun value => (text? value).map some
      filter := ← optional fields "where_filter" "" text?
      aliases := ← optional fields "alias_map" [] pairs? }
  | _ => none

/-! ## Reading what is written -/

/-- An action is found by its keyword. -/
theorem actionOf?_keyword (action : Action) : actionOf? action.keyword = some action := by
  cases action <;> decide

/-- A list of texts is read back. -/
theorem texts?_texts (items : List String) : texts? (Json.texts items).datum = some items := by
  show (Json.itemData (items.map .text)).mapM text? = some items
  induction items with
  | nil => rfl
  | cons item items ih =>
    rw [List.map_cons, Json.itemData, List.mapM_cons, ih]
    rfl

/-- An object of texts is read back. -/
theorem pairs?_fieldData (pairs : List (String × String)) :
    pairs? (.object (Json.fieldData (pairs.map fun pair => (pair.1, .text pair.2)))) =
      some pairs := by
  show (Json.fieldData (pairs.map fun pair => (pair.1, .text pair.2))).mapM pair? = some pairs
  induction pairs with
  | nil => rfl
  | cons pair pairs ih =>
    rw [List.map_cons, Json.fieldData, List.mapM_cons, ih]
    rfl

/-- The object of a footprint is read back. -/
theorem footprint?_json (footprint : Footprint) :
    footprint? (json footprint).datum = some footprint := by
  obtain ⟨action, tables, columns, primary, filter, aliases⟩ := footprint
  -- what is left out is known, and what stands there is found by its key
  rcases eq_or_ne filter "" with rfl | hfilter <;>
    rcases eq_or_ne aliases [] with rfl | haliases <;> cases primary <;> cases action <;>
    simp [json, footprint?, Json.datum, Json.fieldData, Json.fieldDatum, optional, List.lookup_cons,
      List.lookup_nil, action?, actionOf?_keyword, text?, texts?_texts, pairs?_fieldData, *]

/-! ## Reports -/

/-- The objects of footprints are read back, one by one. -/
theorem mapM_footprint?_itemData (footprints : List Footprint) :
    (Json.itemData (footprints.map json)).mapM footprint? = some footprints := by
  induction footprints with
  | nil => rfl
  | cons footprint footprints ih =>
    rw [List.map_cons, Json.itemData, List.mapM_cons, footprint?_json, ih]
    rfl

/-- A report in JSON is a list with one object for each footprint, in their order, and these objects
give back the footprints. -/
theorem read_render_json (footprints : List Footprint) :
    ∃ objects : List Datum, Json.read? (render footprints .json) = some (.list objects) ∧
      objects.mapM footprint? = some footprints := by
  have gap : ∀ c ∈ "\n".toList, Json.isGap c = true := by
    simp [Json.isGap]
  exact ⟨Json.itemData (footprints.map json), Json.read?_pretty (.list (footprints.map json)) gap,
    mapM_footprint?_itemData footprints⟩

end SqlFootprint.Report
