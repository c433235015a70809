import SqlFootprint.Report

/-! # Command line arguments

The arguments are read from left to right: options with their values, switches, at most one text of
statements, and the name of a command, behind which the arguments belong to that command. -/

namespace SqlFootprint.CommandLine

/-- The options that take a value. -/
inductive Opt where
  | file | format | logLevel | host | ip | user | password | database | keyColumn | tempDir
  deriving DecidableEq, Repr

/-- The long name of an option. -/
def Opt.long : Opt → String
  | .file => "file"
  | .format => "format"
  | .logLevel => "log-level"
  | .host => "host"
  | .ip => "ip"
  | .user => "user"
  | .password => "password"
  | .database => "database"
  | .keyColumn => "key-column"
  | .tempDir => "temp-dir"

/-- The short name of an option, if it has one. -/
def Opt.short? : Opt → Option Char
  | .file => some 'f'
  | .host => some 'h'
  | .user => some 'u'
  | .password => some 'P'
  | .database => some 'd'
  | _ => none

/-- The variable of the environment that stands in for an option. -/
def Opt.variable? : Opt → Option String
  | .file => none
  | .format => some "SQLFACTS_FORMAT"
  | .logLevel => some "SQLFACTS_LOG_LEVEL"
  | .host => some "SQLFACTS_HOST"
  | .ip => some "SQLFACTS_IP"
  | .user => some "SQLFACTS_USER"
  | .password => some "SQLFACTS_PASSWORD"
  | .database => some "SQLFACTS_DATABASE"
  | .keyColumn => some "SQLFACTS_KEY_COLUMN"
  | .tempDir => some "SQLFACTS_TEMP_DIR"

/-- Whether an option takes a value: a format has to have a known name, and a path must not be
empty. -/
def Opt.accepts (opt : Opt) (value : String) : Bool :=
  match opt with
  | .format => (Report.Format.ofName? value).isSome
  | .file | .tempDir => !value.isEmpty
  | _ => true

/-- The commands by their names. -/
inductive Verb where
  | analyze | check | dump
  deriving DecidableEq, Repr

/-- The command of a name. -/
def Verb.ofName? : String → Option Verb
  | "analyze" => some .analyze
  | "check" => some .check
  | "dump" => some .dump
  | _ => none

/-- Why the arguments lead to no command. -/
inductive Stop where
  /-- The arguments are wrong. -/
  | usage
  /-- A description of the arguments is asked for. -/
  | help
  /-- The version is asked for. -/
  | version
  deriving DecidableEq, Repr

/-- Where arguments stand: in front of any command, or behind one. -/
inductive Place where
  | front
  | behind (verb : Verb)
  deriving DecidableEq, Repr

/-- The options that may stand in a place. -/
def Place.options : Place → List Opt
  | .front => [.file, .format, .logLevel]
  | .behind .analyze => [.file, .format, .logLevel]
  | .behind .check => [.file, .logLevel]
  | .behind .dump =>
    [.file, .host, .ip, .user, .password, .database, .keyColumn, .tempDir, .logLevel]

/-- The option of a long name in a place. -/
def Place.long? (place : Place) (name : String) : Option Opt :=
  place.options.find? (·.long = name)

/-- The option of a short name in a place. -/
def Place.short? (place : Place) (name : Char) : Option Opt :=
  place.options.find? (·.short? = some name)

/-- What a switch of a long name asks for in a place. -/
def Place.longSwitch? (place : Place) (name : String) : Option Stop :=
  if name = "help" then some .help
  else if name = "version" ∧ place = .front then some .version
  else none

/-- What a switch of a short name asks for in a place. -/
def Place.shortSwitch? (place : Place) (name : Char) : Option Stop :=
  if name = 'h' ∧ place ≠ .behind .dump then some .help
  else if name = 'V' ∧ place = .front then some .version
  else none

/-- What the arguments give. -/
structure Given where
  /-- The text of statements. -/
  sql : Option String
  /-- The values of options. -/
  values : List (Opt × String)
  deriving DecidableEq, Repr

/-- Nothing given. -/
def Given.nothing : Given := ⟨none, []⟩

/-- The value of an option. -/
def Given.value? (given : Given) (opt : Opt) : Option String := given.values.lookup opt

/-- Gives an option a value; an option takes one value and only values that suit it. -/
def Given.put (given : Given) (opt : Opt) (value : String) : Except Stop Given :=
  if (given.value? opt).isSome || !opt.accepts value then .error .usage
  else .ok { given with values := (opt, value) :: given.values }

/-- Gives a text of statements; there is at most one. -/
def Given.putSql (given : Given) (sql : String) : Except Stop Given :=
  if given.sql.isSome then .error .usage else .ok { given with sql := some sql }

/-- What one argument is. -/
inductive Argument where
  /-- The two hyphens behind which everything is text. -/
  | rest
  /-- A long name and the value behind an equals sign. -/
  | long (name : String) (value : Option String)
  /-- A short name and what stands right behind it. -/
  | short (name : Char) (value : Option String)
  /-- Text. -/
  | text
  deriving DecidableEq, Repr

/-- The characters in front of the first equals sign, and those behind it if there is one. -/
def cutAtEquals : List Char → List Char × Option (List Char)
  | [] => ([], none)
  | c :: cs =>
    if c = '=' then ([], some cs)
    else
      let (name, value) := cutAtEquals cs
      (c :: name, value)

/-- What an argument is by its first characters. A hyphen alone is text. -/
def Argument.of (arg : String) : Argument :=
  match arg.toList with
  | ['-', '-'] => .rest
  | '-' :: '-' :: cs =>
    let (name, value) := cutAtEquals cs
    .long (String.ofList name) (value.map String.ofList)
  | '-' :: c :: cs =>
    .short c (match cs with
      | [] => none
      | '=' :: value => some (String.ofList value)
      | value => some (String.ofList value))
  | _ => .text

/-- What is read from one argument: something given, or an option that waits for its value. -/
abbrev Step := Except Stop (Given × Option Opt)

/-- Takes an option with the value it may have. -/
def Given.take (given : Given) (opt : Opt) : Option String → Step
  | none => .ok (given, some opt)
  | some value => do return (← given.put opt value, none)

/-- Takes an option or switch by its long name. -/
def Given.takeLong (given : Given) (place : Place) (name : String) (value : Option String) : Step :=
  match place.long? name, place.longSwitch? name, value with
  | some opt, _, _ => given.take opt value
  | none, some stop, none => .error stop
  | _, _, _ => .error .usage

/-- Takes an option or switch by its short name. -/
def Given.takeShort (given : Given) (place : Place) (name : Char) (value : Option String) : Step :=
  match place.short? name, place.shortSwitch? name with
  | some opt, _ => given.take opt value
  | none, some stop => .error stop
  | none, none => .error .usage

/-- Texts behind the two hyphens. -/
def takeTexts (given : Given) : List String → Except Stop Given
  | [] => .ok given
  | arg :: args => do takeTexts (← given.putSql arg) args

/-- Reads the arguments in a place up to a command name in front of any command. `waiting` is an
option that still has to get its value. Gives the command with the arguments behind it. -/
def readPlace (place : Place) : (waiting : Option Opt) → Given → List String →
    Except Stop (Given × Option (Verb × List String))
  | some _, _, [] => .error .usage
  | none, given, [] => .ok (given, none)
  | some opt, given, arg :: args =>
    match Argument.of arg with
    | .text => do readPlace place none (← given.put opt arg) args
    | _ => .error .usage
  | none, given, arg :: args =>
    match if place = .front then Verb.ofName? arg else none with
    | some verb => .ok (given, some (verb, args))
    | none =>
      match Argument.of arg with
      | .rest => do return (← takeTexts given args, none)
      | .long name value => do
        let (given, waiting) ← given.takeLong place name value
        readPlace place waiting given args
      | .short name value => do
        let (given, waiting) ← given.takeShort place name value
        readPlace place waiting given args
      | .text =>
        if place = .front && arg = "help" then .error .help
        else do readPlace place none (← given.putSql arg) args

/-- The value of an option, or else that of the variable that stands in for it. -/
def Given.resolve (given : Given) (environment : String → Option String) (opt : Opt) :
    Except Stop (Option String) :=
  match given.value? opt with
  | some value => .ok (some value)
  | none =>
    match opt.variable?.bind environment with
    | none => .ok none
    | some value => if opt.accepts value then .ok (some value) else .error .usage

end SqlFootprint.CommandLine
