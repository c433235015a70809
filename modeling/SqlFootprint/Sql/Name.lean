import SqlFootprint.Text.Quoted

/-! # Names

A name is held by its value, without quotes, together with the mark it was quoted with. Only the
written form shows the mark. -/

namespace SqlFootprint.Sql

/-- The marks that may stand around a name. -/
inductive QuoteMark where
  /-- The mark of quoted names. -/
  | backtick
  /-- A single-quoted text used as a name. -/
  | single
  /-- A double-quoted text used as a name. -/
  | double
  deriving DecidableEq, Repr

/-- The character of a mark. -/
def QuoteMark.char : QuoteMark → Char
  | .backtick => '\x60'
  | .single => '\x27'
  | .double => '\x22'

/-- A name, with the mark it was quoted with. -/
structure Ident where
  /-- The name itself. -/
  value : String
  /-- The mark around it, if it was quoted. -/
  mark : Option QuoteMark
  deriving DecidableEq, Repr

/-- A name as it is written. -/
def Ident.written : Ident → String
  | ⟨value, none⟩ => value
  | ⟨value, some mark⟩ => Text.widened mark.char value

/-- A possibly qualified name: its parts from left to right. -/
abbrev ObjectName := List Ident

/-- The parts of a name, joined by dots. -/
def ObjectName.written (name : ObjectName) : String :=
  ".".intercalate (name.map Ident.written)

/-- The last part of a name without its quotes; empty for a name without parts. -/
def ObjectName.lastPart (name : ObjectName) : String :=
  match name.getLast? with
  | some part => part.value
  | none => ""

/-- Names separated by commas. -/
def commaNames (names : List Ident) : String := ", ".intercalate (names.map Ident.written)

@[simp] theorem Ident.written_plain (value : String) : Ident.written ⟨value, none⟩ = value := rfl

@[simp] theorem ObjectName.written_singleton (part : Ident) :
    ObjectName.written [part] = part.written := by
  simp [ObjectName.written]

@[simp] theorem ObjectName.lastPart_singleton (part : Ident) :
    ObjectName.lastPart [part] = part.value := rfl

end SqlFootprint.Sql
