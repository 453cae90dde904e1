import SplitTest.App
import SplitTest.Settings.Sources

/-
  The command line: a rehearsal of seeding.
  Settings are read from the environment and from a file `.env`; the sample experiments then go
  into a new, empty store, and what seeding says about it is printed.
-/

namespace SplitTest

/-- The variables of the environment that are settings. -/
def environmentSettings : IO (Table String) := do
  let values ← Settings.names.mapM fun name => do
    let value ← IO.getEnv name
    pure (value.map fun v => (name, v))
  pure (values.filterMap id)

/-- The settings file, if there is one. -/
def settingsFile : IO (Option String) := do
  try
    let text ← IO.FS.readFile ".env"
    pure (some text)
  catch _ => pure none

end SplitTest

open SplitTest

def main : IO UInt32 := do
  let environment ← environmentSettings
  let file ← settingsFile
  match Settings.ofSources environment file with
  | .faults faults =>
    for fault in faults do
      IO.eprintln (String.intercalate "." (fault.path.map Place.text) ++ ": " ++ fault.kind.code)
    pure 1
  | .value settings =>
    let (result, w) := App.seedStore (App.start settings false 0)
    for line in w.printed do
      IO.println line
    match result with
    | .ok _ => pure 0
    | .error e =>
      IO.eprintln e.message
      pure 1
