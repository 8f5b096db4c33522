import RepoCatalog.Queue.Job
import RepoCatalog.Record.Encode
import RepoCatalog.Store.Catalog

/-!
# Rows as JSON

The written form of jobs and of the rows of all tables. Rows are written with what is stored,
readable or not.
-/
namespace RepoCatalog

open Json

def Job.encodeWith (time : TimeFormat) (j : Job) : Value :=
  .object [("id", .int j.id), ("state", .string j.state.name), ("service", .int j.service),
    ("failure_message", .ofOption .string j.failureMessage), ("num_resets", .int j.numResets),
    ("num_failures", .int j.numFailures), ("queued_at", time j.queuedAt),
    ("started_at", .ofOption time j.startedAt), ("finished_at", .ofOption time j.finishedAt),
    ("next_sync_at", .ofOption time j.nextSyncAt)]

def JobRow.encodeWith (time : TimeFormat) (id : Int) (j : JobRow) : Value :=
  .object [("id", .int id), ("state", .string j.state.text), ("service", .int j.service),
    ("failure_message", .ofOption .string j.failureMessage), ("num_resets", .int j.numResets),
    ("num_failures", .int j.numFailures), ("queued_at", time j.queuedAt),
    ("started_at", .ofOption time j.startedAt), ("finished_at", .ofOption time j.finishedAt),
    ("process_after", .ofOption time j.processAfter),
    ("last_heartbeat_at", .ofOption time j.lastHeartbeatAt)]

def ServiceRow.encodeWith (time : TimeFormat) (id : Int) (s : ServiceRow) : Value :=
  .object [("id", .int id), ("kind", .string s.kindName), ("display_name", .string s.displayName),
    ("config", s.config), ("namespace_user_id", .ofOption .int s.namespaceUserId),
    ("cloud_default", .bool s.cloudDefault), ("last_sync_at", .ofOption time s.lastSyncAt),
    ("next_sync_at", .ofOption time s.nextSyncAt), ("created_at", time s.createdAt),
    ("updated_at", time s.updatedAt), ("deleted_at", .ofOption time s.deletedAt)]

def Membership.encode (key : MemberKey) (m : Membership) : Value :=
  .object [("repo", .int key.repo), ("service", .int key.service),
    ("clone_url", .string m.cloneUrl), ("user", .ofOption .int m.userId)]

def User.encode (id : Int) (u : User) : Value :=
  .array [.int id, .string u.name, .bool u.allowsPrivate]

end RepoCatalog
