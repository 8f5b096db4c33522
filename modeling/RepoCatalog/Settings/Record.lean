import RepoCatalog.Json.Decode
import RepoCatalog.Settings.Basic

/-!
# Settings as JSON

The written form of settings, and its reader, in which every field may be missing.
-/
namespace RepoCatalog

open Json

def UserMode.decode : Decoder UserMode :=
  Decoder.variant UserMode.name UserMode.modes

def SyncSettings.encode (s : SyncSettings) : Value :=
  .object [("USER_REPOS_MAX_PER_USER", .nat s.userReposMaxPerUser),
    ("USER_REPOS_MAX_PER_SITE", .nat s.userReposMaxPerSite),
    ("EXTERNAL_SERVICE_USER_MODE", .string s.userMode.name),
    ("DISABLE_AUTO_CODE_HOST_SYNCS", .bool s.disableAutoSyncs),
    ("STREAMING_SYNC", .bool s.streamingSync), ("STREAMING_INSERT", .bool s.streamingInsert),
    ("CLOUD_MODE", .bool s.cloudMode), ("MIN_SYNC_INTERVAL_SECONDS", .nat s.minSyncInterval),
    ("ENQUEUE_INTERVAL_SECONDS", .nat s.enqueueInterval),
    ("SOURCE_CHANNEL_CAPACITY", .nat s.channelCapacity)]

def SyncSettings.fields : List Field :=
  [.of "USER_REPOS_MAX_PER_USER" Decoder.nat64, .of "USER_REPOS_MAX_PER_SITE" Decoder.nat64,
    .of "EXTERNAL_SERVICE_USER_MODE" UserMode.decode,
    .of "DISABLE_AUTO_CODE_HOST_SYNCS" Decoder.bool, .of "STREAMING_SYNC" Decoder.bool,
    .of "STREAMING_INSERT" Decoder.bool, .of "CLOUD_MODE" Decoder.bool,
    .of "MIN_SYNC_INTERVAL_SECONDS" Decoder.nat64, .of "ENQUEUE_INTERVAL_SECONDS" Decoder.nat64,
    .of "SOURCE_CHANNEL_CAPACITY" Decoder.natSize]

def SyncSettings.decode : Decoder SyncSettings := fun v => do
  let m ← Members.ofValue "SyncConfig" fields v
  return {
    userReposMaxPerUser :=
      ← m.withDefault "USER_REPOS_MAX_PER_USER" Decoder.nat64 default.userReposMaxPerUser
    userReposMaxPerSite :=
      ← m.withDefault "USER_REPOS_MAX_PER_SITE" Decoder.nat64 default.userReposMaxPerSite
    userMode := ← m.withDefault "EXTERNAL_SERVICE_USER_MODE" UserMode.decode default.userMode
    disableAutoSyncs :=
      ← m.withDefault "DISABLE_AUTO_CODE_HOST_SYNCS" Decoder.bool default.disableAutoSyncs
    streamingSync := ← m.withDefault "STREAMING_SYNC" Decoder.bool default.streamingSync
    streamingInsert := ← m.withDefault "STREAMING_INSERT" Decoder.bool default.streamingInsert
    cloudMode := ← m.withDefault "CLOUD_MODE" Decoder.bool default.cloudMode
    minSyncInterval :=
      ← m.withDefault "MIN_SYNC_INTERVAL_SECONDS" Decoder.nat64 default.minSyncInterval
    enqueueInterval :=
      ← m.withDefault "ENQUEUE_INTERVAL_SECONDS" Decoder.nat64 default.enqueueInterval
    channelCapacity :=
      ← m.withDefault "SOURCE_CHANNEL_CAPACITY" Decoder.natSize default.channelCapacity }

def WorkerSettings.encode (w : WorkerSettings) : Value :=
  .object [("CONCURRENT_EXTERNAL_SERVICE_SYNCERS", .nat w.concurrency),
    ("DEQUEUE_INTERVAL_SECONDS", .nat w.dequeueInterval),
    ("HEARTBEAT_INTERVAL_SECONDS", .nat w.heartbeatInterval),
    ("STALLED_MAX_AGE_SECONDS", .nat w.stalledMaxAge), ("MAX_NUM_RESETS", .nat w.maxNumResets),
    ("MAX_NUM_RETRIES", .nat w.maxNumRetries),
    ("RESETTER_INTERVAL_SECONDS", .nat w.resetterInterval),
    ("CLEANUP_OLD_JOBS", .bool w.cleanupOldJobs),
    ("CLEANUP_INTERVAL_SECONDS", .nat w.cleanupInterval),
    ("JOB_RETENTION_SECONDS", .nat w.jobRetention)]

def WorkerSettings.fields : List Field :=
  [.of "CONCURRENT_EXTERNAL_SERVICE_SYNCERS" Decoder.natSize,
    .of "DEQUEUE_INTERVAL_SECONDS" Decoder.nat64, .of "HEARTBEAT_INTERVAL_SECONDS" Decoder.nat64,
    .of "STALLED_MAX_AGE_SECONDS" Decoder.nat64, .of "MAX_NUM_RESETS" Decoder.nat32,
    .of "MAX_NUM_RETRIES" Decoder.nat32, .of "RESETTER_INTERVAL_SECONDS" Decoder.nat64,
    .of "CLEANUP_OLD_JOBS" Decoder.bool, .of "CLEANUP_INTERVAL_SECONDS" Decoder.nat64,
    .of "JOB_RETENTION_SECONDS" Decoder.nat64]

def WorkerSettings.decode : Decoder WorkerSettings := fun v => do
  let m ← Members.ofValue "WorkerConfig" fields v
  return {
    concurrency :=
      ← m.withDefault "CONCURRENT_EXTERNAL_SERVICE_SYNCERS" Decoder.natSize default.concurrency
    dequeueInterval :=
      ← m.withDefault "DEQUEUE_INTERVAL_SECONDS" Decoder.nat64 default.dequeueInterval
    heartbeatInterval :=
      ← m.withDefault "HEARTBEAT_INTERVAL_SECONDS" Decoder.nat64 default.heartbeatInterval
    stalledMaxAge := ← m.withDefault "STALLED_MAX_AGE_SECONDS" Decoder.nat64 default.stalledMaxAge
    maxNumResets := ← m.withDefault "MAX_NUM_RESETS" Decoder.nat32 default.maxNumResets
    maxNumRetries := ← m.withDefault "MAX_NUM_RETRIES" Decoder.nat32 default.maxNumRetries
    resetterInterval :=
      ← m.withDefault "RESETTER_INTERVAL_SECONDS" Decoder.nat64 default.resetterInterval
    cleanupOldJobs := ← m.withDefault "CLEANUP_OLD_JOBS" Decoder.bool default.cleanupOldJobs
    cleanupInterval :=
      ← m.withDefault "CLEANUP_INTERVAL_SECONDS" Decoder.nat64 default.cleanupInterval
    jobRetention := ← m.withDefault "JOB_RETENTION_SECONDS" Decoder.nat64 default.jobRetention }

def Settings.encode (s : Settings) : Value :=
  .object [("PROFILE", .string s.profile), ("LOG_LEVEL", .string s.logLevel),
    ("LOG_FORMAT", .string s.logFormat), ("DATABASE_URL", .string s.databaseUrl),
    ("DB_MAX_CONNECTIONS", .nat s.dbMaxConnections),
    ("DB_ACQUIRE_TIMEOUT_MS", .nat s.dbAcquireTimeoutMs), ("SYNC", s.sync.encode),
    ("WORKER", s.worker.encode)]

def Settings.fields : List Field :=
  [.of "PROFILE" Decoder.string, .of "LOG_LEVEL" Decoder.string, .of "LOG_FORMAT" Decoder.string,
    .of "DATABASE_URL" Decoder.string, .of "DB_MAX_CONNECTIONS" Decoder.nat32,
    .of "DB_ACQUIRE_TIMEOUT_MS" Decoder.nat64, .of "SYNC" SyncSettings.decode,
    .of "WORKER" WorkerSettings.decode]

def Settings.decode : Decoder Settings := fun v => do
  let m ← Members.ofValue "AppConfig" fields v
  return {
    profile := ← m.withDefault "PROFILE" Decoder.string default.profile
    logLevel := ← m.withDefault "LOG_LEVEL" Decoder.string default.logLevel
    logFormat := ← m.withDefault "LOG_FORMAT" Decoder.string default.logFormat
    databaseUrl := ← m.withDefault "DATABASE_URL" Decoder.string default.databaseUrl
    dbMaxConnections := ← m.withDefault "DB_MAX_CONNECTIONS" Decoder.nat32 default.dbMaxConnections
    dbAcquireTimeoutMs :=
      ← m.withDefault "DB_ACQUIRE_TIMEOUT_MS" Decoder.nat64 default.dbAcquireTimeoutMs
    sync := ← m.withDefault "SYNC" SyncSettings.decode default.sync
    worker := ← m.withDefault "WORKER" WorkerSettings.decode default.worker }

end RepoCatalog
