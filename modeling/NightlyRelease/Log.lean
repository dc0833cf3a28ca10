/-
# Log lines

What a run writes for the one who watches it, each line with a level.
-/

namespace NightlyRelease

namespace Log

/-- How much a line matters. -/
inductive Level where
  | error | warn | info | debug
  deriving DecidableEq, Repr

/-- The name of a level. -/
def Level.name : Level → String
  | error => "ERROR"
  | warn => "WARN"
  | info => "INFO"
  | debug => "DEBUG"

/-- A line of the log. -/
structure Line where
  level : Level
  text : String
  deriving DecidableEq, Repr

/-- The line as it is shown. -/
def Line.render (l : Line) : String := l.level.name ++ " " ++ l.text

end Log
end NightlyRelease
