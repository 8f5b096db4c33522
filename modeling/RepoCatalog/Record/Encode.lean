import RepoCatalog.Diff
import RepoCatalog.Service
import RepoCatalog.Time.Timestamp

/-!
# Records as JSON

The written form of identities, claims, repositories and services. Every field is written; a time
that is not set is null. How a time is written is a parameter, because a report may show times
other than as timestamps.
-/
namespace RepoCatalog

open Json Time

abbrev TimeFormat := Instant → Value

def TimeFormat.timestamp : TimeFormat := fun t =>
  .string (Timestamp.write t)

def Spec.encode (s : Spec) : Value :=
  .object [("service_type", .string s.serviceType), ("service_id", .string s.serviceId),
    ("id", .string s.id)]

def Claim.encode (c : Claim) : Value :=
  .object [("id", .string c.urn), ("clone_url", .string c.cloneUrl)]

def Claims.encode (cs : Claims) : Value :=
  .object (cs.entries.map fun e => (e.1, e.2.encode))

def Repo.encodeWith (time : TimeFormat) (r : Repo) : Value :=
  .object [("id", .int r.id), ("name", .string r.name), ("uri", .string r.uri),
    ("description", .string r.description), ("fork", .bool r.isFork),
    ("archived", .bool r.isArchived), ("private", .bool r.isPrivate),
    ("external_repo", r.spec.encode), ("sources", Claims.encode r.claims),
    ("created_at", .ofOption time r.createdAt), ("updated_at", .ofOption time r.updatedAt),
    ("deleted_at", .ofOption time r.deletedAt)]

def Repo.encode (r : Repo) : Value :=
  r.encodeWith .timestamp

def Service.encodeWith (time : TimeFormat) (s : Service) : Value :=
  .object [("id", .int s.id), ("kind", .string s.kind.recordName),
    ("display_name", .string s.displayName), ("config", s.config),
    ("namespace_user_id", .ofOption .int s.namespaceUserId),
    ("cloud_default", .bool s.cloudDefault), ("last_sync_at", .ofOption time s.lastSyncAt),
    ("next_sync_at", .ofOption time s.nextSyncAt), ("created_at", .ofOption time s.createdAt),
    ("updated_at", .ofOption time s.updatedAt), ("deleted_at", .ofOption time s.deletedAt)]

def Service.encode (s : Service) : Value :=
  s.encodeWith .timestamp

def Diff.encodeWith (time : TimeFormat) (d : Diff) : Value :=
  let list (rs : List Repo) : Value := .array (rs.map (Repo.encodeWith time))
  .object [("added", list d.added), ("deleted", list d.deleted), ("modified", list d.modified),
    ("unmodified", list d.unmodified)]

end RepoCatalog
