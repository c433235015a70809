import Mathlib.Data.List.Forall2
import SqlFootprint.Proofs.Filter.Pieces

/-! # Pieces and the text they lay out

Pieces lay out a text if they spell it and every qualifier among them stands at the beginning or
behind a gap, so that a second name may begin there (`Lays`). There is one law for each way in which
texts are put together. -/

namespace SqlFootprint.Filter

open Sql

/-! ## Spelling -/

theorem spell_cons (piece : Piece) (pieces : List Piece) :
    spell (piece :: pieces) = piece.written ++ spell pieces := rfl

/-- Pieces are spelled one after the other. -/
theorem spell_append (ps qs : List Piece) : spell (ps ++ qs) = spell ps ++ spell qs := by
  induction ps with
  | nil => rw [List.nil_append, spell, String.empty_append]
  | cons p ps ih => rw [List.cons_append, spell_cons, spell_cons, ih, String.append_assoc]

theorem spell_lit (s : String) : spell (lit s) = s := String.append_empty

/-- A closed qualifier is written as before. -/
theorem spell_closed (ps : List Piece) : spell (closed ps) = spell ps := by
  induction ps with
  | nil => rfl
  | cons p ps ih =>
    cases p with
    | text s =>
      rw [closed, spell_cons, spell_cons]
      split
      · rw [ih]
      · rfl
    | qualifier reference => rfl

/-! ## Places of qualifiers -/

/-- Whether a qualifier may begin behind a text; `free` tells whether one may begin in front. -/
def opens (free : Bool) (s : String) : Bool :=
  match s.toList.getLast? with
  | none => free
  | some c => isGap c

/-- Whether every qualifier stands where it may begin. -/
def placed : (free : Bool) → List Piece → Bool
  | _, [] => true
  | free, .text s :: pieces => placed (opens free s) pieces
  | free, .qualifier _ :: pieces => free && placed false pieces

/-- Whether a qualifier may begin behind pieces. -/
def ends : (free : Bool) → List Piece → Bool
  | free, [] => free
  | free, .text s :: pieces => ends (opens free s) pieces
  | _, .qualifier _ :: pieces => ends false pieces

/-- Behind a gap a qualifier may begin. -/
theorem opens_of_endsGap {s : String} (h : endsGap s = true) (free : Bool) :
    opens free s = true := by
  unfold endsGap at h
  unfold opens
  cases last : s.toList.getLast? with
  | none =>
    rw [last] at h
    cases h
  | some c =>
    rw [last] at h
    exact h

/-- Texts open one after the other. -/
theorem opens_append (free : Bool) (s t : String) :
    opens free (s ++ t) = opens (opens free s) t := by
  unfold opens
  rw [String.toList_append, List.getLast?_append]
  cases t.toList.getLast? with
  | none => rfl
  | some c => rfl

/-- A blank is a gap. -/
theorem endsGap_blank : endsGap " " = true := by decide

/-- An opening parenthesis is a gap. -/
theorem endsGap_paren : endsGap "(" = true := by decide

/-- The places of pieces behind others depend on what these end with. -/
theorem placed_append (free : Bool) (ps qs : List Piece) :
    placed free (ps ++ qs) = (placed free ps && placed (ends free ps) qs) := by
  induction ps generalizing free with
  | nil => rfl
  | cons p ps ih =>
    cases p with
    | text s => exact ih (opens free s)
    | qualifier reference =>
      show (free && placed false (ps ++ qs)) = ((free && placed false ps) && _)
      rw [ih, Bool.and_assoc]
      rfl

theorem ends_append (free : Bool) (ps qs : List Piece) :
    ends free (ps ++ qs) = ends (ends free ps) qs := by
  induction ps generalizing free with
  | nil => rfl
  | cons p ps ih =>
    cases p with
    | text s => exact ih (opens free s)
    | qualifier reference => exact ih false

/-- Behind a text that is not empty it does not matter what stands in front. -/
theorem opens_of_not_isEmpty {s : String} (h : ¬s.isEmpty = true) (free free' : Bool) :
    opens free s = opens free' s := by
  unfold opens
  cases last : s.toList.getLast? with
  | none =>
    have empty := String.toList_eq_nil_iff.mp (List.getLast?_eq_none_iff.mp last)
    exact absurd (String.isEmpty_iff.mpr empty) h
  | some c => rfl

/-- An empty text changes nothing. -/
theorem opens_of_isEmpty {s : String} (h : s.isEmpty = true) (free : Bool) :
    opens free s = free := by
  rw [String.isEmpty_iff.mp h]
  rfl

/-- What is placed where no qualifier may begin is placed everywhere. -/
theorem placed_of_false {ps : List Piece} (h : placed false ps = true) (free : Bool) :
    placed free ps = true := by
  induction ps with
  | nil => rfl
  | cons p ps ih =>
    cases p with
    | text s =>
      have h : placed (opens false s) ps = true := h
      show placed (opens free s) ps = true
      by_cases empty : s.isEmpty = true
      · rw [opens_of_isEmpty empty] at h ⊢
        exact ih h
      · rwa [opens_of_not_isEmpty empty free false]
    | qualifier reference => cases h

/-- Closed pieces are placed everywhere. -/
theorem placed_closed {ps : List Piece} (h : placed true ps = true) (free : Bool) :
    placed free (closed ps) = true := by
  induction ps with
  | nil => rfl
  | cons p ps ih =>
    cases p with
    | text s =>
      have h : placed (opens true s) ps = true := h
      show placed (opens free s) (if s.isEmpty then closed ps else ps) = true
      by_cases empty : s.isEmpty = true
      · rw [opens_of_isEmpty empty] at h ⊢
        rw [if_pos empty]
        exact ih h
      · rwa [if_neg empty, opens_of_not_isEmpty empty free true]
    | qualifier reference => exact placed_of_false h _

/-! ## Pieces that lay out a text -/

/-- Pieces lay out a text: they spell it, and their qualifiers stand where they may begin. -/
structure Lays (free : Bool) (text : String) (pieces : List Piece) : Prop where
  /-- The pieces spell the text. -/
  spelled : spell pieces = text
  /-- The qualifiers stand where they may begin. -/
  placed : placed free pieces = true

namespace Lays

variable {free : Bool} {t u s : String} {ps qs : List Piece}

/-- No pieces lay out the empty text. -/
theorem nil : Lays free "" [] := ⟨rfl, rfl⟩

/-- A text that is no qualifier lays out itself. -/
theorem lit (s : String) : Lays free s (Filter.lit s) := ⟨spell_lit s, rfl⟩

/-- Pieces lay out a text everywhere if they do so where no qualifier may begin. -/
theorem anywhere (h : Lays false t ps) : Lays free t ps :=
  ⟨h.spelled, placed_of_false h.placed free⟩

/-- Closed pieces lay out the same text everywhere. -/
theorem closed (h : Lays true t ps) : Lays free t (closed ps) :=
  ⟨(spell_closed ps).trans h.spelled, placed_closed h.placed free⟩

/-- Pieces that lay out a text where the first ones end may stand behind them. -/
theorem append_of_ends (h : Lays free t ps) (h' : Lays (ends free ps) u qs) :
    Lays free (t ++ u) (ps ++ qs) := by
  constructor
  · rw [spell_append, h.spelled, h'.spelled]
  · rw [placed_append, h.placed, h'.placed]
    rfl

/-- Pieces that lay out a text everywhere may stand behind all others. -/
theorem append (h : Lays free t ps) (h' : Lays false u qs) : Lays free (t ++ u) (ps ++ qs) :=
  h.append_of_ends h'.anywhere

/-- A text may stand behind all pieces. -/
theorem text (h : Lays free t ps) (s : String) : Lays free (t ++ s) (ps ++ Filter.lit s) :=
  h.append (lit s)

/-- Behind a text that is not empty it does not matter what stands in front. -/
theorem behind (h : Lays true t (Filter.lit s ++ ps)) (hs : ¬s.isEmpty = true) :
    Lays false t (Filter.lit s ++ ps) := by
  refine ⟨h.spelled, ?_⟩
  have placed : Filter.placed (opens true s) ps = true := h.placed
  rwa [opens_of_not_isEmpty hs true false] at placed

/-- One of two texts. -/
theorem ite {p : Prop} [Decidable p] (h : Lays free t ps) (h' : Lays free u qs) :
    Lays free (if p then t else u) (if p then ps else qs) := by
  split
  · exact h
  · exact h'

end Lays

/-- Pieces lay out a text, and a qualifier may begin behind them. -/
structure LaysOpen (free : Bool) (text : String) (pieces : List Piece) : Prop
    extends Lays free text pieces where
  /-- A qualifier may begin behind the last piece. -/
  opened : ends free pieces = true

namespace LaysOpen

variable {free : Bool} {t u s : String} {ps qs : List Piece}

/-- At the beginning a qualifier may begin. -/
theorem nil : LaysOpen true "" [] := ⟨.nil, rfl⟩

/-- Behind a gap a qualifier may begin. -/
theorem gap (h : Lays free t ps) (hs : endsGap s = true) :
    LaysOpen free (t ++ s) (ps ++ lit s) := by
  refine ⟨h.text s, ?_⟩
  rw [ends_append]
  exact opens_of_endsGap hs _

/-- What may begin may begin behind all that opens. -/
theorem append (h : LaysOpen free t ps) (h' : Lays true u qs) : Lays free (t ++ u) (ps ++ qs) := by
  refine h.toLays.append_of_ends ?_
  rwa [h.opened]

/-- What opens still opens behind another. -/
theorem open_append (h : LaysOpen free t ps) (h' : LaysOpen true u qs) :
    LaysOpen free (t ++ u) (ps ++ qs) := by
  refine ⟨h.append h'.toLays, ?_⟩
  rw [ends_append, h.opened, h'.opened]

/-- A word opens if it ends with a gap, or if there is none. -/
theorem word (hs : (s.isEmpty || endsGap s) = true) : LaysOpen true s (lit s) := by
  refine ⟨.lit s, ?_⟩
  rcases (Bool.or_eq_true _ _).mp hs with empty | gap
  · exact opens_of_isEmpty empty true
  · exact opens_of_endsGap gap true

/-- A text that ends with a gap opens. -/
theorem lead (hs : endsGap s = true) : LaysOpen free s (lit s) := ⟨.lit s, opens_of_endsGap hs free⟩

/-- One of two texts. -/
theorem ite {p : Prop} [Decidable p] (h : LaysOpen free t ps) (h' : LaysOpen free u qs) :
    LaysOpen free (if p then t else u) (if p then ps else qs) := by
  split
  · exact h
  · exact h'

end LaysOpen

namespace Lays

variable {free : Bool} {t u s : String} {ps qs : List Piece}

/-- All pieces may stand behind a gap. -/
theorem gap (h : Lays free t ps) (hs : endsGap s = true) (h' : Lays true u qs) :
    Lays free (t ++ s ++ u) (ps ++ Filter.lit s ++ qs) := (LaysOpen.gap h hs).append h'

/-- All pieces may stand behind a gap at the beginning. -/
theorem lead (hs : endsGap s = true) (h' : Lays true u qs) :
    Lays free (s ++ u) (Filter.lit s ++ qs) := (LaysOpen.lead hs).append h'

/-- Pieces behind a label. -/
theorem behindLabel (label : String) (h : Lays true t ps) :
    Lays true (label ++ t) (behindLabel label ps) := by
  unfold Filter.behindLabel
  split
  · next begins => exact (LaysOpen.word begins).append h
  · exact (lit label).append h.closed

/-- A name with its qualifiers. -/
theorem dotted (scopes : List Aliases) (parts : List Ident) :
    Lays true (ObjectName.written parts) (dottedPieces scopes parts) := by
  unfold dottedPieces
  split
  · next front back =>
    split
    · refine ⟨?_, rfl⟩
      show front.written ++ "." ++ (back.written ++ "") =
        ".".intercalate [front.written, back.written]
      rw [String.append_empty, String.intercalate_cons_cons, String.intercalate_singleton]
    · exact lit _
  · exact lit _

/-- All columns of a table. -/
theorem star (scopes : List Aliases) (parts : List Ident) :
    Lays true (ObjectName.written parts ++ ".*") (starPieces scopes parts) := by
  unfold starPieces
  split
  · next front =>
    split
    · refine ⟨?_, rfl⟩
      show front.written ++ "." ++ ("*" ++ "") = ".".intercalate [front.written] ++ ".*"
      rw [String.append_empty, String.intercalate_singleton, String.append_assoc]
      rfl
    · exact lit _
  · exact lit _

/-! ### Lists -/

/-- Several names with their qualifiers. -/
theorem dottedNames (scopes : List Aliases) (names : List ObjectName) :
    List.Forall₂ (Lays true) (names.map ObjectName.written) (names.map (dottedPieces scopes)) := by
  rw [List.forall₂_map_left_iff, List.forall₂_map_right_iff, List.forall₂_same]
  exact fun parts _ => dotted scopes parts

variable {texts : List String} {items : List (List Piece)}

/-- Items with a gap between them. -/
theorem join (hs : endsGap s = true) (h : List.Forall₂ (Lays true) texts items) :
    Lays true (s.intercalate texts) (joinPieces s items) := by
  induction h with
  | nil => exact nil
  | @cons first ps texts items hfirst hrest ih =>
    cases hrest with
    | nil =>
      rw [String.intercalate_singleton]
      exact hfirst
    | cons second more =>
      rw [String.intercalate_cons_cons]
      exact hfirst.gap hs ih

/-- Items separated by commas. -/
theorem comma (h : List.Forall₂ (Lays true) texts items) :
    Lays true (commaSep texts) (commaPieces items) := join (by decide) h

/-- Items in parentheses. -/
theorem paren (h : List.Forall₂ (Lays true) texts items) :
    Lays free (parenList texts) (parenPieces items) := (lead (by decide) (comma h)).text ")"

/-- A clause with a list, if the list is not empty. -/
theorem clause (hs : endsGap s = true) (h : List.Forall₂ (Lays true) texts items) :
    Lays free (clauseList s texts) (clausePieces s items) := by
  cases h with
  | nil => exact nil
  | cons first rest => exact lead hs (comma (.cons first rest))

/-- Items that stand behind texts of their own. -/
theorem zipWith {texts : List String} {items : List (List Piece)}
    (h : List.Forall₂ (Lays false) texts items) (names : List Ident) :
    List.Forall₂ (Lays true)
      (List.zipWith (fun name window => name.written ++ " AS " ++ window) names texts)
      (List.zipWith (fun name window => Filter.lit name.written ++ Filter.lit " AS " ++ window)
        names items) := by
  induction h generalizing names with
  | nil => cases names <;> exact .nil
  | cons first rest ih =>
    cases names with
    | nil => exact .nil
    | cons name names => exact .cons (((lit _).text _).append first) (ih names)

/-- The only item of a list, or none. -/
theorem one {p : Prop} [Decidable p] (h : Lays true t ps) :
    List.Forall₂ (Lays true) (if p then [] else [t]) (if p then [] else [ps]) := by
  split
  · exact .nil
  · exact .cons h .nil

/-! ### Frames and limits -/

/-- The first item of a list, if there is one. -/
theorem headD (h : List.Forall₂ (Lays true) texts items) :
    Lays true (texts.headD "") (items.headD []) := by
  cases h with
  | nil => exact nil
  | cons first _ => exact first

/-- One end of a frame, and what it leaves of the numbers. -/
theorem frameEnd (stop : FrameEnd) (h : List.Forall₂ (Lays true) texts items) :
    Lays true (stop.written texts).1 (frameEndPieces stop items).1 ∧
      List.Forall₂ (Lays true) (stop.written texts).2 (frameEndPieces stop items).2 := by
  have tail : List.Forall₂ (Lays true) texts.tail items.tail := by
    cases h with
    | nil => exact .nil
    | cons _ rest => exact rest
  cases stop with
  | current => exact ⟨lit _, h⟩
  | first => exact ⟨lit _, h⟩
  | last => exact ⟨lit _, h⟩
  | before => exact ⟨(headD h).text _, tail⟩
  | after => exact ⟨(headD h).text _, tail⟩

/-- The frame of a window. -/
theorem frame (frame : Frame) (h : List.Forall₂ (Lays true) texts items) :
    Lays true (frame.written texts) (framePieces frame items) := by
  obtain ⟨unit, start, stop⟩ := frame
  obtain ⟨first, rest⟩ := frameEnd start h
  cases stop with
  | none => exact (lit unit).gap (by decide) first
  | some stop =>
    exact ((lit unit).gap (by decide) first).gap (by decide) (frameEnd stop rest).1

/-- The limit of a query. -/
theorem limit (form : LimitForm) {limit offset : Option String}
    {limit' offset' : Option (List Piece)} (hlimit : Option.Rel (Lays true) limit limit')
    (hoffset : Option.Rel (Lays true) offset offset') :
    Lays free (form.written limit offset) (limitPieces form limit' offset') := by
  have getD {o : Option String} {o' : Option (List Piece)} (h : Option.Rel (Lays true) o o') :
      Lays true (o.getD "") (o'.getD []) := by
    cases h with
    | some h => exact h
    | none => exact nil
  cases form with
  | comma => exact (lead (by decide) (getD hoffset)).gap (by decide) (getD hlimit)
  | words behind =>
    -- first the count, then the start
    have start {t : String} {ps : List Piece} (h : Lays true t ps) :
        Lays false (" OFFSET " ++ t ++ spaced behind)
          (Filter.lit " OFFSET " ++ ps ++ Filter.lit (spaced behind)) :=
      (lead (by decide) h).text _
    cases hlimit with
    | some count =>
      cases hoffset with
      | some h => exact (lead (by decide) count).append (start h)
      | none => exact (lead (by decide) count).append nil
    | none =>
      cases hoffset with
      | some h => exact nil.append (start h)
      | none => exact nil.append nil

end Lays

end SqlFootprint.Filter
