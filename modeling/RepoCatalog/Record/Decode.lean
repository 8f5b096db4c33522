import RepoCatalog.Json.Decode
import RepoCatalog.Record.Encode

/-!
# Records from JSON

Readers for what `RepoCatalog.Record.Encode` writes.
-/
namespace RepoCatalog

open Json Time

def timestampDecoder : Decoder Instant
  | .string s =>
    match Timestamp.read s with
    | .ok t => .ok t
    | .error e => .error (.badTimestamp e.message)
  | v => Decoder.refuse "an RFC 3339 formatted date and time string" v

def Kind.decode : Decoder Kind :=
  Decoder.variant Kind.recordName Kind.all

def Spec.decode : Decoder Spec := fun v => do
  let m ← Members.ofValue "ExternalRepoSpec"
    [.of "service_type" Decoder.string, .of "service_id" Decoder.string,
      .of "id" Decoder.string] v
  return {
    serviceType := ← m.required "service_type" Decoder.string
    serviceId := ← m.required "service_id" Decoder.string
    id := ← m.required "id" Decoder.string }

def Claim.decode : Decoder Claim := fun v => do
  let m ← Members.ofValue "SourceInfo"
    [.of "id" Decoder.string, .of "clone_url" Decoder.string] v
  return {
    urn := ← m.required "id" Decoder.string
    cloneUrl := ← m.required "clone_url" Decoder.string }

def Claims.decode : Decoder Claims :=
  Decoder.dict Claim.decode

def Repo.fields : List Field :=
  [.of "id" Decoder.int32, .of "name" Decoder.string, .of "uri" Decoder.string,
    .of "description" Decoder.string, .of "fork" Decoder.bool, .of "archived" Decoder.bool,
    .of "private" Decoder.bool, .of "external_repo" Spec.decode, .of "sources" Claims.decode,
    .of "created_at" timestampDecoder.nullable, .of "updated_at" timestampDecoder.nullable,
    .of "deleted_at" timestampDecoder.nullable]

def Repo.decode : Decoder Repo := fun v => do
  let m ← Members.ofValue "Repo" Repo.fields v
  return {
    id := ← m.required "id" Decoder.int32
    name := ← m.required "name" Decoder.string
    uri := ← m.required "uri" Decoder.string
    description := ← m.required "description" Decoder.string
    isFork := ← m.required "fork" Decoder.bool
    isArchived := ← m.required "archived" Decoder.bool
    isPrivate := ← m.required "private" Decoder.bool
    spec := ← m.required "external_repo" Spec.decode
    claims := ← m.required "sources" Claims.decode
    createdAt := ← m.optional "created_at" timestampDecoder
    updatedAt := ← m.optional "updated_at" timestampDecoder
    deletedAt := ← m.optional "deleted_at" timestampDecoder }

def Service.fields : List Field :=
  [.of "id" Decoder.int32, .of "kind" Kind.decode, .of "display_name" Decoder.string,
    .of "config" Except.ok, .of "namespace_user_id" Decoder.int32.nullable,
    .of "cloud_default" Decoder.bool, .of "last_sync_at" timestampDecoder.nullable,
    .of "next_sync_at" timestampDecoder.nullable, .of "created_at" timestampDecoder.nullable,
    .of "updated_at" timestampDecoder.nullable, .of "deleted_at" timestampDecoder.nullable]

def Service.decode : Decoder Service := fun v => do
  let m ← Members.ofValue "ExternalService" Service.fields v
  return {
    id := ← m.required "id" Decoder.int32
    kind := ← m.required "kind" Kind.decode
    displayName := ← m.required "display_name" Decoder.string
    config := ← m.required "config" Except.ok
    namespaceUserId := ← m.optional "namespace_user_id" Decoder.int32
    cloudDefault := ← m.required "cloud_default" Decoder.bool
    lastSyncAt := ← m.optional "last_sync_at" timestampDecoder
    nextSyncAt := ← m.optional "next_sync_at" timestampDecoder
    createdAt := ← m.optional "created_at" timestampDecoder
    updatedAt := ← m.optional "updated_at" timestampDecoder
    deletedAt := ← m.optional "deleted_at" timestampDecoder }

end RepoCatalog
