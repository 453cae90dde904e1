import SplitTest.Stats.Codec
import SplitTest.Store.Command
import SplitTest.Store.Keys

/-
  The platform statistics in the store: one text under one key.
-/

namespace SplitTest.Statistics

open Program

/-- The statistics a text holds; an empty text holds none. -/
def decode (text : Option String) : StoreProgram (Option PlatformStats) :=
  match text.filter (· != "") with
  | none => pure none
  | some text => do
    let now ← Program.now
    match PlatformStats.ofText (.utc now) text with
    | .value s => pure (some s)
    | .faults fs => .fail (.invalidDocument fs)

/-- Reads the statistics, if there are any. -/
def current (keys : Keys) : StoreProgram (Option PlatformStats) := do
  let text ← StoreProgram.send (.readText keys.stats)
  decode text

/-- Writes the statistics. -/
def save (keys : Keys) (s : PlatformStats) : StoreProgram PlatformStats := do
  let _ ← StoreProgram.send (.writeText keys.stats s.render)
  report (.info s!"Platform stats saved: {keys.stats}")
  pure s

end SplitTest.Statistics
