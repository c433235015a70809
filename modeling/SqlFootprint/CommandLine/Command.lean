import SqlFootprint.CommandLine.Arguments
import SqlFootprint.Dump.Plan

/-! # Commands

What the arguments and the environment ask for. -/

namespace SqlFootprint.CommandLine

/-- Where the statements come from. -/
structure Input where
  /-- Their text. -/
  sql : Option String
  /-- The file with their text, which counts more. -/
  file : Option String
  deriving DecidableEq, Repr

/-- What is to be done. -/
inductive Command where
  /-- Report the footprints of the statements. -/
  | analyze (input : Input) (format : Report.Format)
  /-- Tell whether the statements are correct. -/
  | check (input : Input)
  /-- Print the plan for the statements. -/
  | dump (input : Input) (settings : Dump.Settings)
  deriving DecidableEq, Repr

/-- Where the statements come from, as it is given. -/
def Given.input (given : Given) : Input := ⟨given.sql, given.value? .file⟩

/-- A format by its name, plain text if there is none. -/
def formatOf (name : Option String) : Report.Format :=
  (name.bind Report.Format.ofName?).getD .text

/-- Settings from the values of options; what is not given keeps its default. -/
def settingsOf (value? : Opt → Option String) : Dump.Settings :=
  let field (c : Dump.Connection) (field : Dump.Field) (opt : Opt) : Dump.Connection :=
    match value? opt with
    | none => c
    | some value => c.set field value
  let connection := field Dump.Connection.default .database .database
  let connection := field (field connection .host .host) .ip .ip
  { connection := field (field connection .user .user) .password .password
    keyColumn := Text.trim ((value? .keyColumn).getD Dump.defaultKeyColumn)
    tempDir := (value? .tempDir).getD Dump.defaultTempDir }

/-- The options of a command with their values, each from its argument or its variable. -/
def resolveAll (environment : String → Option String) (given : Given) :
    List Opt → Except Stop (List (Opt × String))
  | [] => .ok []
  | opt :: opts => do
    let value ← given.resolve environment opt
    let others ← resolveAll environment given opts
    return (value.map (opt, ·)).toList ++ others

/-- The command that a verb and what is given for it stand for. -/
def Verb.command (verb : Verb) (given : Given) (values : List (Opt × String)) : Command :=
  match verb with
  | .analyze => .analyze given.input (formatOf (values.lookup .format))
  | .check => .check given.input
  | .dump => .dump given.input (settingsOf fun opt => values.lookup opt)

/-- The command that arguments ask for in an environment. Without a verb the statements are
analyzed; what stands in front of a verb does not count for it, but has to be correct. -/
def Command.ofArguments (environment : String → Option String) (args : List String) :
    Except Stop Command := do
  let (front, rest) ← readPlace .front none .nothing args
  match rest with
  | none => return Verb.analyze.command front (← resolveAll environment front Place.front.options)
  | some (verb, args) =>
    let place := Place.behind verb
    let (given, _) ← readPlace place none .nothing args
    let values ← resolveAll environment given place.options
    let _ ← resolveAll environment front Place.front.options
    return verb.command given values

end SqlFootprint.CommandLine
