/-! # Lines of a plan

A plan is a list of lines, and a line is either a command to run or a remark. Only a remark carries
a number sign in front when it is printed. -/

namespace SqlFootprint.Dump

/-- A line of a plan. -/
inductive Line where
  /-- A command to run. -/
  | directive (command : String)
  /-- A remark for the reader. -/
  | note (text : String)
  deriving DecidableEq, Repr

/-- Whether a line is a command. -/
def Line.isDirective : Line → Bool
  | .directive _ => true
  | .note _ => false

/-- A line as it is printed: a remark stands behind a number sign. -/
def Line.written : Line → String
  | .directive command => command
  | .note text => if text.isEmpty then "#" else "# " ++ text

end SqlFootprint.Dump
