import SqlFootprint.Text.Blank

/-! # Connection options

The options of the commands of a plan. A value is taken without the blanks around it; a blank value
takes an option away, except that the database keeps its name. -/

namespace SqlFootprint.Dump

/-- How a command reaches the database. -/
structure Connection where
  /-- The name of the server. -/
  host : Option String
  /-- The address of the server. -/
  ip : Option String
  /-- The user. -/
  user : Option String
  /-- The password. -/
  password : Option String
  /-- The database. -/
  database : String
  deriving DecidableEq, Repr

/-- What can be said about a connection. -/
inductive Field where
  | host | ip | user | password | database
  deriving DecidableEq, Repr

/-- The name of the database if none is given. -/
def defaultDatabase : String := "database_name"

namespace Connection

/-- The connection of which nothing is said. -/
def default : Connection := ⟨none, none, none, none, defaultDatabase⟩

/-- A value without the blanks around it; none if nothing is left. -/
def given? (value : String) : Option String :=
  let trimmed := Text.trim value
  if trimmed.isEmpty then none else some trimmed

/-- Says something about a connection. -/
def set (c : Connection) (field : Field) (value : String) : Connection :=
  match field with
  | .host => { c with host := given? value }
  | .ip => { c with ip := given? value }
  | .user => { c with user := given? value }
  | .password => { c with password := given? value }
  | .database => { c with database := (given? value).getD c.database }

/-- The server to connect to: its address if given, else its name. -/
def target (c : Connection) : Option String := c.ip <|> c.host

/-- An option in front of its value, with a blank before it; nothing without a value. -/
def flag (words : String) : Option String → String
  | none => ""
  | some value => " " ++ words ++ value

/-- The options of a command. -/
def options (c : Connection) : String :=
  flag "-h " c.target ++ flag "-u " c.user ++ flag "--password=" c.password

end Connection

end SqlFootprint.Dump
