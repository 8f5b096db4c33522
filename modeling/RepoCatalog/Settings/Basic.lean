import RepoCatalog.EnvFile.Error
import RepoCatalog.Settings.UserMode
import RepoCatalog.Time.Duration

/-!
# Settings

All settings with their defaults, the rules they must keep, and their written form.
-/
namespace RepoCatalog

inductive SettingsError where
  | unreadableFile (path : String) (cause : EnvFile.Error)
  | unknownUserMode (value : String)
  | unknownLogFormat (value : String)
  | invalidValue (field value : String)
  | zeroValue (field : String)
  | ceilingsCrossed (perUser perSite : Nat)
deriving DecidableEq, Inhabited

def SettingsError.message : SettingsError → String
  | .unreadableFile path cause => s!"failed to load environment file {path}: {cause.message}"
  | .unknownUserMode value =>
    s!"invalid external service user mode '{value}'; expected disabled, public or all"
  | .unknownLogFormat value => s!"invalid log format '{value}'; expected json or pretty"
  | .invalidValue field value => s!"invalid value '{value}' for {field}"
  | .zeroValue field => s!"{field} must be greater than zero"
  | .ceilingsCrossed perUser perSite =>
    s!"per-user repo ceiling ({perUser}) cannot exceed per-site ceiling ({perSite})"

/-- Settings of passes and of the scheduler. Times are in seconds. -/
structure SyncSettings where
  userReposMaxPerUser : Nat
  userReposMaxPerSite : Nat
  userMode : UserMode
  /-- Whether no service is queued by itself. -/
  disableAutoSyncs : Bool
  /-- Whether passes work repository by repository. -/
  streamingSync : Bool
  /-- Whether a batch pass inserts new repositories of the site while it still lists. -/
  streamingInsert : Bool
  cloudMode : Bool
  minSyncInterval : Nat
  enqueueInterval : Nat
  /-- How many items wait between a source and its reader. -/
  channelCapacity : Nat
deriving DecidableEq, Inhabited

/-- Settings of the workers, the resetter and the cleaner. Times are in seconds. -/
structure WorkerSettings where
  concurrency : Nat
  dequeueInterval : Nat
  heartbeatInterval : Nat
  stalledMaxAge : Nat
  maxNumResets : Nat
  maxNumRetries : Nat
  resetterInterval : Nat
  cleanupOldJobs : Bool
  cleanupInterval : Nat
  jobRetention : Nat
deriving DecidableEq, Inhabited

structure Settings where
  profile : String
  logLevel : String
  logFormat : String
  databaseUrl : String
  dbMaxConnections : Nat
  dbAcquireTimeoutMs : Nat
  sync : SyncSettings
  worker : WorkerSettings
deriving DecidableEq, Inhabited

/-- Refuses the first of several named settings that is zero. -/
def Settings.checkPositive : List (String × Nat) → Except SettingsError Unit
  | [] => .ok ()
  | (field, n) :: rest => if n = 0 then .error (.zeroValue field) else checkPositive rest

namespace SyncSettings

def default : SyncSettings where
  userReposMaxPerUser := 2000
  userReposMaxPerSite := 200000
  userMode := .publicOnly
  disableAutoSyncs := false
  streamingSync := false
  streamingInsert := false
  cloudMode := false
  minSyncInterval := 60
  enqueueInterval := 60
  channelCapacity := 64

/-- A number of seconds as the signed 64-bit number of the same bits. -/
def signedSeconds (n : Nat) : Int :=
  (Int.ofNat n).bmod (Nat.pow 2 64)

/-- The shortest time between two passes over one service, if it can be held. -/
def leastInterval? (s : SyncSettings) : Option Time.Duration :=
  Time.Duration.ofSeconds? (signedSeconds s.minSyncInterval)

def validate (s : SyncSettings) : Except SettingsError Unit :=
  if s.userReposMaxPerSite < s.userReposMaxPerUser then
    .error (.ceilingsCrossed s.userReposMaxPerUser s.userReposMaxPerSite)
  else
    Settings.checkPositive [("MIN_SYNC_INTERVAL_SECONDS", s.minSyncInterval),
      ("ENQUEUE_INTERVAL_SECONDS", s.enqueueInterval),
      ("SOURCE_CHANNEL_CAPACITY", s.channelCapacity)]

end SyncSettings

namespace WorkerSettings

def default : WorkerSettings where
  concurrency := 3
  dequeueInterval := 10
  heartbeatInterval := 15
  stalledMaxAge := 30
  maxNumResets := 5
  maxNumRetries := 0
  resetterInterval := 300
  cleanupOldJobs := true
  cleanupInterval := 3600
  jobRetention := 86400

def validate (w : WorkerSettings) : Except SettingsError Unit :=
  Settings.checkPositive [("CONCURRENT_EXTERNAL_SERVICE_SYNCERS", w.concurrency),
    ("DEQUEUE_INTERVAL_SECONDS", w.dequeueInterval),
    ("HEARTBEAT_INTERVAL_SECONDS", w.heartbeatInterval),
    ("STALLED_MAX_AGE_SECONDS", w.stalledMaxAge),
    ("RESETTER_INTERVAL_SECONDS", w.resetterInterval),
    ("CLEANUP_INTERVAL_SECONDS", w.cleanupInterval),
    ("JOB_RETENTION_SECONDS", w.jobRetention)]

end WorkerSettings

namespace Settings

def default : Settings where
  profile := "local"
  logLevel := "info"
  logFormat := "json"
  databaseUrl := "sqlite://reposync.db?mode=rwc"
  dbMaxConnections := 10
  dbAcquireTimeoutMs := 5000
  sync := .default
  worker := .default

/-- Checks the log format, then the database, then passes, then workers. -/
def validate (s : Settings) : Except SettingsError Unit := do
  if s.logFormat ≠ "json" ∧ s.logFormat ≠ "pretty" then
    throw (.unknownLogFormat s.logFormat)
  checkPositive [("DB_MAX_CONNECTIONS", s.dbMaxConnections)]
  s.sync.validate
  s.worker.validate

end Settings

end RepoCatalog
