import SplitTest.Experiment.Repository
import SplitTest.Http.Endpoints
import SplitTest.Http.Query
import SplitTest.Http.Route
import SplitTest.Seed
import SplitTest.Settings.Basic
import SplitTest.Stats.Service
import SplitTest.Store.Server

/-
  The application: settings, the store behind its connection, and the cache of the statistics.
  The cache is made when the statistics are first asked for and lives as long as the application.
-/

namespace SplitTest

/-- The state of the application. -/
structure App where
  settings : Settings
  server : Server
  cache : Option (TimedCache PlatformStats)

namespace App

/-- An application at its start. -/
def start (settings : Settings) (hasClient : Bool) (clock : Instant) : World App :=
  ⟨clock, 0, [], [], ⟨settings, .fresh hasClient, none⟩⟩

def keys (a : App) : Keys := a.settings.keys

end App

namespace World

/-- Reports an entry. -/
def reported {σ : Type} (w : World σ) (entry : Entry) : World σ :=
  { w with log := w.log ++ [entry] }

/-- Changes the server. -/
def withServer (w : World App) (server : Server) : World App :=
  { w with state := { w.state with server } }

/-- Changes the cache. -/
def withCache (w : World App) (cache : TimedCache PlatformStats) : World App :=
  { w with state := { w.state with cache := some cache } }

end World

namespace App

/-- Answers a command from the server. -/
def answerCommand (c : Command) (w : World App) : c.Result × World App :=
  let (result, server) := w.state.server.send c
  (result, w.withServer server)

/-- Runs a computation over the store. -/
def runStore {α : Type} (p : StoreProgram α) (w : World App) : Except Error α × World App :=
  p.run answerCommand w

/-! ## Statistics -/

/-- The cache, made if it is not there yet. -/
def openCache (w : World App) : Except Error (TimedCache PlatformStats) :=
  match w.state.cache with
  | some cache => .ok cache
  | none => (Lifetime.ofInt w.state.settings.statsLifetime).map TimedCache.new

/-- Answers a query of the statistics service, given its cache. -/
def answerQuery (cache : TimedCache PlatformStats) (q : Statistics.Query) (w : World App) :
    q.Answer × World App :=
  let cache := w.state.cache.getD cache
  match q with
  | .store c => answerCommand c w
  | .fresh now => (cache.fresh? now, w)
  | .age now => (cache.age? now, w)
  | .stale => (cache.stale?, w)
  | .keep value now => ((), w.withCache (cache.keep value now))

/-- Runs a computation over store and cache. -/
def runStats {α : Type} (p : Statistics.ServiceProgram α) (w : World App) :
    Except Error α × World App :=
  match openCache w with
  | .ok cache => p.run (answerQuery cache) (w.withCache cache)
  | .error e => (.error e, w)

/-- The statistics for a reader. -/
def stats (w : World App) : Except Error PlatformStats × World App :=
  runStats (Statistics.get w.state.keys) w

/-- Makes the cached statistics stale. -/
def invalidateStats (w : World App) : Except Error Unit × World App :=
  match openCache w with
  | .ok cache => (.ok (), w.withCache cache.invalidate)
  | .error e => (.error e, w)

/-! ## Assignments -/

/-- The assigner over the stored experiments. -/
def assigner (a : App) : Assigner Command Command.Result :=
  ⟨Experiments.active a.keys, a.settings.readTimeout⟩

/-- Looks an experiment up and allocates a visitor to one of its variants. -/
def assignStored (keys : Keys) (id page : String) (user : Option String) :
    StoreProgram Allocation := do
  let found ← Experiments.get keys id page
  assign found user

/-! ## Connection -/

/-- Takes a client and tries it; one that does not answer is dropped. -/
def connect (w : World App) : World App :=
  let server := { w.state.server with hasClient := true }
  match server.send .ping with
  | (.ok _, server) =>
    (w.withServer server).reported
      (.info s!"Redis connected: {w.state.settings.connection.target}")
  | (.error outage, server) =>
    (w.withServer { server with hasClient := false }).reported
      (.error s!"Redis connection failed: {outage.toError.message}")

/-- Closes the connection, if there is a client; the client stays at hand. -/
def close (w : World App) : World App :=
  if w.state.server.hasClient then
    (w.withServer (w.state.server.record .closed)).reported (.info "Redis connection closed")
  else w

/-- The client, or the error that there is none. -/
def client (w : World App) : Except Error Unit :=
  if w.state.server.hasClient then .ok () else .error .notConnected

/-- The line around the greeting. -/
def banner : String := String.ofList (List.replicate 60 '=')

/-- What the application does when it starts. -/
def startup (w : World App) : World App :=
  let s := w.state.settings
  connect
    (((((w.reported (.info banner)).reported (.info "Author pages service starting...")).reported
      (.info s!"Debug mode: {truthWord s.debug}")).reported
      (.info s!"Log level: {s.logLevel}")).reported (.info banner))

/-- What the application does when it ends. -/
def shutdown (w : World App) : World App :=
  close (w.reported (.info "Author pages service shutting down..."))

/-- Seeds the store over a connection of its own, which is closed in the end. -/
def seedStore (w : World App) : Except Error Unit × World App :=
  let (result, w) := runStore (Seed.seedAll w.state.keys) (connect w)
  (result, close w)

/-! ## Requests -/

/-- Answers a request for an endpoint; statistics whose cache cannot be made break it off. -/
def serveEndpoint (e : Http.Endpoint) (query : String) (w : World App) :
    Http.Reply × Option Error × World App :=
  match e with
  | .health => (Http.health, none, w)
  | .experiments =>
    let params := Http.parameters query
    let (result, w) := runStore
      (Http.experiments w.state.assigner (Http.value? "page" params) (Http.value? "userId" params)) w
    match result with
    | .ok reply => (reply, none, w)
    | .error error => (.brokenOff, some error, w)
  | .stats =>
    match stats w with
    | (.ok s, w) => (Http.statsReply s, none, w.reported (.info "Returned platform stats"))
    | (.error error, w) => (.brokenOff, some error, w)

/-- Answers a request. -/
def serve (method path query : String) (w : World App) : Http.Reply × Option Error × World App :=
  match Http.resolve method path with
  | .endpoint e => serveEndpoint e query w
  | .methodNotAllowed => (.methodNotAllowed, none, w)
  | .redirect path => (.redirect (Http.location path query), none, w)
  | .notFound => (.notFound, none, w)

end App

end SplitTest
