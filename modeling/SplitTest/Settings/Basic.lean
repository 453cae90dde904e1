import SplitTest.Schema.Document
import SplitTest.Store.Keys

/-
  The settings of the application and their defaults.
-/

namespace SplitTest

structure Settings where
  debug : Bool
  logLevel : String
  /-- The file that the log goes to as well, unless it is missing or empty. -/
  logFile : Option String
  host : String
  hostPort : Int
  database : Int
  password : Option String
  /-- The socket that is used in place of the network address, unless it is missing or empty. -/
  socket : Option String
  /-- The text in front of all keys of this environment. -/
  environment : String
  /-- The seconds that reading the experiments of a page may take. -/
  readTimeout : Option Binary64
  /-- The seconds that platform statistics are cached for. -/
  statsLifetime : Int
  deriving DecidableEq, Repr

/-- How the store is reached. -/
inductive Connection
  | socket (path : String) (database : Int) (password : Option String)
  | address (host : String) (hostPort database : Int) (password : Option String)
  deriving DecidableEq, Repr

/-- Where a connection leads. -/
def Connection.target : Connection → String
  | .socket path _ _ => path
  | .address host hostPort _ _ => s!"{host}:{hostPort}"

/-- The seconds that connecting may take. -/
def Connection.patience : Nat := 5

/-- How a connection is opened: answers are read as text, and the line is kept alive. -/
def Connection.options : Connection → Table Json
  | .socket path database password =>
    ("unix_socket_path", .ofText path) :: common database password
  | .address host hostPort database password =>
    ("host", .ofText host) :: ("port", .ofInt hostPort) :: common database password
where
  common (database : Int) (password : Option String) : Table Json :=
    [("db", .ofInt database), ("password", .ofOption .ofText password),
     ("decode_responses", .ofBool true), ("socket_connect_timeout", .ofInt patience),
     ("socket_keepalive", .ofBool true)]

namespace Settings

def defaults : Settings where
  debug := false
  logLevel := "INFO"
  logFile := none
  host := "localhost"
  hostPort := 6379
  database := 0
  password := none
  socket := none
  environment := ""
  readTimeout := some (.ofInt 5)
  statsLifetime := 3600

def keys (s : Settings) : Keys := ⟨s.environment⟩

/-- The connection that the settings ask for. -/
def connection (s : Settings) : Connection :=
  match s.socket.filter (· != "") with
  | some path => .socket path s.database s.password
  | none => .address s.host s.hostPort s.database s.password

/-- The names of the settings, in the order they are written in. -/
def names : List String :=
  ["DEBUG", "LOG_LEVEL", "LOG_FILE", "REDIS_HOST", "REDIS_PORT", "REDIS_DB", "REDIS_PASSWORD",
   "REDIS_UNIX_SOCKET", "REDIS_KEY_PREFIX", "EXPERIMENTS_READ_TIMEOUT_SECONDS",
   "PLATFORM_STATS_CACHE_TTL_SECONDS"]

/-- Reads settings from their fields; missing ones have their defaults. -/
def readFields (fields : Table Json) : Reading Settings :=
  Settings.mk <$> Reading.optional (.only "DEBUG") defaults.debug Reading.truth fields
    <*> Reading.optional (.only "LOG_LEVEL") defaults.logLevel Reading.text fields
    <*> Reading.optional (.only "LOG_FILE") defaults.logFile Reading.optionalText fields
    <*> Reading.optional (.only "REDIS_HOST") defaults.host Reading.text fields
    <*> Reading.optional (.only "REDIS_PORT") defaults.hostPort Reading.int fields
    <*> Reading.optional (.only "REDIS_DB") defaults.database Reading.int fields
    <*> Reading.optional (.only "REDIS_PASSWORD") defaults.password Reading.optionalText fields
    <*> Reading.optional (.only "REDIS_UNIX_SOCKET") defaults.socket Reading.optionalText fields
    <*> Reading.optional (.only "REDIS_KEY_PREFIX") defaults.environment Reading.text fields
    <*> Reading.optional (.only "EXPERIMENTS_READ_TIMEOUT_SECONDS") defaults.readTimeout
      Reading.optionalBinary64 fields
    <*> Reading.optional (.only "PLATFORM_STATS_CACHE_TTL_SECONDS") defaults.statsLifetime
      Reading.int fields

def toJson (s : Settings) : Json :=
  .object
    [("DEBUG", .ofBool s.debug), ("LOG_LEVEL", .ofText s.logLevel),
     ("LOG_FILE", .ofOption .ofText s.logFile), ("REDIS_HOST", .ofText s.host),
     ("REDIS_PORT", .ofInt s.hostPort), ("REDIS_DB", .ofInt s.database),
     ("REDIS_PASSWORD", .ofOption .ofText s.password),
     ("REDIS_UNIX_SOCKET", .ofOption .ofText s.socket),
     ("REDIS_KEY_PREFIX", .ofText s.environment),
     ("EXPERIMENTS_READ_TIMEOUT_SECONDS", .ofOption .ofBinary64 s.readTimeout),
     ("PLATFORM_STATS_CACHE_TTL_SECONDS", .ofInt s.statsLifetime)]

def render (s : Settings) : String := s.toJson.compact

end Settings

end SplitTest
