import SplitTest.Cache
import SplitTest.Stats.Repository

/-
  Statistics for readers: answered from the cache while it is fresh, otherwise from the store.
  Reading never fails: when the store does, the last value that was kept is answered, however old,
  and the defaults when there was none. The cache is touched in steps of its own, so that a call
  can be interrupted between the store and the cache.
-/

namespace SplitTest.Statistics

open Program

/-- What the service asks: commands to the store and looks at the cache. -/
inductive Query
  | store (c : Command)
  /-- The value in the cache, if it is fresh at a moment. -/
  | fresh (now : Instant)
  /-- The age of the value in the cache at a moment. -/
  | age (now : Instant)
  /-- The value kept last. -/
  | stale
  /-- Keep a value. -/
  | keep (value : PlatformStats) (now : Instant)

/-- The answers to the queries. -/
abbrev Query.Answer : Query → Type
  | .store c => c.Result
  | .fresh _ => Option PlatformStats
  | .age _ => Option Int
  | .stale => Option PlatformStats
  | .keep _ _ => Unit

/-- A computation over store and cache. -/
abbrev ServiceProgram (α : Type) := Program Query Query.Answer α

/-- A computation over the store alone. -/
def overStore {α : Type} (p : StoreProgram α) : ServiceProgram α :=
  p.embed Query.store fun _ r => r

/-- What is answered when the store cannot be read. -/
def fallback (e : Error) (now : Instant) : ServiceProgram PlatformStats := do
  report (.error s!"Failed to read platform stats: {e.message}")
  let stale ← question Query.stale
  match stale with
  | some s => do
    report (.info "Returning stale cached platform stats")
    pure s
  | none => pure (.defaults (.utc now))

/-- Reads the store and keeps what it holds. -/
def refresh (keys : Keys) (now : Instant) : ServiceProgram PlatformStats := do
  report (.info "Platform stats cache miss or expired, reading repository")
  let result ← (overStore (current keys)).attempt
  match result with
  | .error e => fallback e now
  | .ok (some s) => do
    question (Query.keep s now)
    pure s
  | .ok none => do
    report (.warning "No platform stats stored, returning defaults")
    let s := PlatformStats.defaults (.utc now)
    question (Query.keep s now)
    pure s

/-- The statistics for a reader. -/
def get (keys : Keys) : ServiceProgram PlatformStats := do
  let now ← Program.now
  let fresh ← question (Query.fresh now)
  match fresh with
  | some s => do
    let age ← question (Query.age now)
    report (.info s!"Returning cached platform stats (age: {ageText 0 (age.getD 0)}s)")
    pure s
  | none => refresh keys now

/-- Stamps and writes new statistics, and keeps them. -/
def update (keys : Keys) (s : PlatformStats) : ServiceProgram PlatformStats := do
  let now ← Program.now
  let saved ← overStore (save keys (s.stamped (.utc now)))
  question (Query.keep saved now)
  pure saved

end SplitTest.Statistics
