/-
  Log entries. What an operation reports is part of its result, in the order of reporting.
-/

namespace SplitTest

/-- How much an entry matters. -/
inductive Level
  | debug
  | info
  | warning
  | error
  deriving DecidableEq, Repr

def Level.name : Level → String
  | .debug => "DEBUG"
  | .info => "INFO"
  | .warning => "WARNING"
  | .error => "ERROR"

/-- One line of the log. -/
structure Entry where
  level : Level
  message : String
  deriving DecidableEq, Repr

namespace Entry

def debug (message : String) : Entry := ⟨.debug, message⟩
def info (message : String) : Entry := ⟨.info, message⟩
def warning (message : String) : Entry := ⟨.warning, message⟩
def error (message : String) : Entry := ⟨.error, message⟩

end Entry

/-- A truth value in the words of the log. -/
def truthWord (b : Bool) : String :=
  if b then "True" else "False"

end SplitTest
