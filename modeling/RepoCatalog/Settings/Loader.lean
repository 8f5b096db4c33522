import RepoCatalog.EnvFile.Entry
import RepoCatalog.EnvFile.Folder
import RepoCatalog.Settings.Basic
import RepoCatalog.Text.Decimal

/-!
# Settings from the environment

Settings come in layers: four environment files, each overriding the one before, and the process
environment over all of them. Two of the files are named after the profile, which the process
environment tells or else the first two files. Variables whose names do not begin with `REPOSYNC_`
are not settings.
-/
namespace RepoCatalog.Settings

open EnvFile (Variables Folder)

def variableStart : String :=
  "REPOSYNC_"

def settingOf? (name : String) : Option String :=
  if name.startsWith variableStart then
    some (String.ofList (name.toList.drop variableStart.length))
  else none

/-- The values with those that variables give on top of them. -/
def overlay (values : Variables) (given : List (String × String)) : Variables :=
  given.foldl (fun values v =>
    match settingOf? v.1 with
    | some key => values.insert key v.2
    | none => values) values

/-- The values with those of a file on top of them, if the file exists. -/
def overlayFile (environment : Variables) (folder : Folder) (values : Variables) (name : String) :
    Except SettingsError Variables :=
  let entries : Except EnvFile.Error (List (String × String)) := do
    match ← folder.read? name with
    | some text => EnvFile.read environment text
    | none => return []
  match entries with
  | .ok entries => .ok (overlay values entries)
  | .error e => .error (.unreadableFile (folder.pathOf name) e)

/-- The files that every profile has in common, lowest first. -/
def commonFiles : List String :=
  [".env", ".env.local"]

/-- The files of one profile, lowest first. -/
def profileFiles (profile : String) : List String :=
  [s!".env.{profile}", s!".env.{profile}.local"]

/-- The values of all layers, and the profile by which files were chosen. -/
def layers (environment : Variables) (folder : Folder) :
    Except SettingsError (Variables × String) := do
  let values ← commonFiles.foldlM (overlayFile environment folder) ∅
  let told := environment.get? (variableStart ++ "PROFILE") <|> values.get? "PROFILE"
  let profile := told.getD default.profile
  let values ← (profileFiles profile).foldlM (overlayFile environment folder) values
  return (overlay values environment.entries, profile)

/-- The text of a setting without blanks around it, unless nothing is left. -/
def text? (values : Variables) (key : String) : Option String :=
  ((values.get? key).map Text.trim).filter fun s => !s.isEmpty

def number (values : Variables) (most : Nat) (key : String) (ifMissing : Nat) :
    Except SettingsError Nat :=
  match text? values key with
  | none => .ok ifMissing
  | some value =>
    match Text.Decimal.unsigned? most value with
    | some n => .ok n
    | none => .error (.invalidValue key value)

/-- The truth of a setting, told by one of several words in any case. -/
def truth (values : Variables) (key : String) (ifMissing : Bool) : Except SettingsError Bool :=
  match text? values key with
  | none => .ok ifMissing
  | some value =>
    let word := Text.Ascii.lower value
    if ["1", "true", "yes", "on"].contains word then .ok true
    else if ["0", "false", "no", "off"].contains word then .ok false
    else .error (.invalidValue key value)

def userMode (values : Variables) : Except SettingsError UserMode :=
  match text? values "EXTERNAL_SERVICE_USER_MODE" with
  | none => .ok SyncSettings.default.userMode
  | some value =>
    match UserMode.ofText? value with
    | some mode => .ok mode
    | none => .error (.unknownUserMode (UserMode.key value))

def most32 : Nat :=
  4294967295

def most64 : Nat :=
  18446744073709551615

def syncOf (values : Variables) : Except SettingsError SyncSettings := do
  let standard := SyncSettings.default
  let number := number values most64
  let truth := truth values
  return {
    userReposMaxPerUser := ← number "USER_REPOS_MAX_PER_USER" standard.userReposMaxPerUser
    userReposMaxPerSite := ← number "USER_REPOS_MAX_PER_SITE" standard.userReposMaxPerSite
    userMode := ← userMode values
    disableAutoSyncs := ← truth "DISABLE_AUTO_CODE_HOST_SYNCS" standard.disableAutoSyncs
    streamingSync := ← truth "STREAMING_SYNC" standard.streamingSync
    streamingInsert := ← truth "STREAMING_INSERT" standard.streamingInsert
    cloudMode := ← truth "CLOUD_MODE" standard.cloudMode
    minSyncInterval := ← number "MIN_SYNC_INTERVAL_SECONDS" standard.minSyncInterval
    enqueueInterval := ← number "ENQUEUE_INTERVAL_SECONDS" standard.enqueueInterval
    channelCapacity := ← number "SOURCE_CHANNEL_CAPACITY" standard.channelCapacity }

def workerOf (values : Variables) : Except SettingsError WorkerSettings := do
  let standard := WorkerSettings.default
  let wide := number values most64
  let narrow := number values most32
  return {
    concurrency := ← wide "CONCURRENT_EXTERNAL_SERVICE_SYNCERS" standard.concurrency
    dequeueInterval := ← wide "DEQUEUE_INTERVAL_SECONDS" standard.dequeueInterval
    heartbeatInterval := ← wide "HEARTBEAT_INTERVAL_SECONDS" standard.heartbeatInterval
    stalledMaxAge := ← wide "STALLED_MAX_AGE_SECONDS" standard.stalledMaxAge
    maxNumResets := ← narrow "MAX_NUM_RESETS" standard.maxNumResets
    maxNumRetries := ← narrow "MAX_NUM_RETRIES" standard.maxNumRetries
    resetterInterval := ← wide "RESETTER_INTERVAL_SECONDS" standard.resetterInterval
    cleanupOldJobs := ← truth values "CLEANUP_OLD_JOBS" standard.cleanupOldJobs
    cleanupInterval := ← wide "CLEANUP_INTERVAL_SECONDS" standard.cleanupInterval
    jobRetention := ← wide "JOB_RETENTION_SECONDS" standard.jobRetention }

/-- The settings that the values of all layers describe. -/
def ofValues (values : Variables) (profile : String) : Except SettingsError Settings := do
  let text := text? values
  return {
    profile := (text "PROFILE").getD profile
    logLevel := (text "LOG_LEVEL").getD default.logLevel
    logFormat := ((text "LOG_FORMAT").map Text.Ascii.lower).getD default.logFormat
    databaseUrl := (text "DATABASE_URL").getD default.databaseUrl
    dbMaxConnections := ← number values most32 "DB_MAX_CONNECTIONS" default.dbMaxConnections
    dbAcquireTimeoutMs := ← number values most64 "DB_ACQUIRE_TIMEOUT_MS" default.dbAcquireTimeoutMs
    sync := ← syncOf values
    worker := ← workerOf values }

def load (environment : Variables) (folder : Folder) : Except SettingsError Settings := do
  let (values, profile) ← layers environment folder
  let settings ← ofValues values profile
  settings.validate
  return settings

end RepoCatalog.Settings
