import SplitTest.Settings.Basic

/-
  Where the log goes: to the console in colour, and to a file if the settings name one. A file is
  replaced when it is full; old ones are packed and kept for a while.
-/

namespace SplitTest

/-- A place that log lines go to. -/
inductive Sink
  | console
  | file (path : String)
  deriving DecidableEq, Repr

namespace Sink

/-- How a place takes lines from a level on. -/
def options (level : String) : Sink → Table Json
  | console => [("level", .ofText level), ("colorize", .ofBool true)]
  | file _ =>
    [("rotation", .ofText "100 MB"), ("retention", .ofText "10 days"),
     ("compression", .ofText "zip"), ("level", .ofText level)]

end Sink

namespace Settings

/-- The places that the log goes to. -/
def sinks (s : Settings) : List Sink :=
  .console :: ((s.logFile.filter (· != "")).map Sink.file).toList

/-- The first line of a log that has just been set up. -/
def logOpened : String := "Loguru logging initialised"

end Settings

end SplitTest
