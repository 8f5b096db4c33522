import RepoCatalog.Proofs.Dict
import RepoCatalog.Proofs.Fields
import RepoCatalog.Proofs.Timestamp
import RepoCatalog.Record.Decode
import RepoCatalog.Settings.Loader
import RepoCatalog.Settings.Record

/-!
# Records read back

What is written of a repository, a service or settings is read back as it was, from the object that
is written and from every object that has the same members among others.
-/
namespace RepoCatalog

open Json Time

namespace Json.Decoder

@[simp] theorem string_string (s : String) : string (.string s) = .ok s := rfl

@[simp] theorem bool_bool (b : Bool) : bool (.bool b) = .ok b := rfl

theorem integer_int {type : String} {least most n : Int} (h : least ≤ n ∧ n ≤ most) :
    integer type least most (.int n) = .ok n :=
  if_pos h

theorem int32_int {n : Int} (h : Urn.InRange n) : int32 (.int n) = .ok n :=
  integer_int h

theorem natural_nat {type : String} {most n : Nat} (h : n ≤ most) :
    natural type most (.nat n) = .ok n := by
  have hread : integer type 0 most (.int (Int.ofNat n)) = .ok (Int.ofNat n) :=
    integer_int ⟨Int.natCast_nonneg n, Int.ofNat_le.mpr h⟩
  unfold natural Value.nat
  rw [hread]
  rfl

theorem nat32_nat {n : Nat} (h : n ≤ Settings.most32) : nat32 (.nat n) = .ok n :=
  natural_nat h

theorem nat64_nat {n : Nat} (h : n ≤ Settings.most64) : nat64 (.nat n) = .ok n :=
  natural_nat h

theorem natSize_nat {n : Nat} (h : n ≤ Settings.most64) : natSize (.nat n) = .ok n :=
  natural_nat h

theorem nullable_ofOption {α : Type} {d : Decoder α} {f : α → Value} {o : Option α}
    (hnull : ∀ a, f a ≠ .null) (hread : ∀ a, o = some a → d (f a) = .ok a) :
    d.nullable (.ofOption f o) = .ok o := by
  cases o with
  | none => rfl
  | some a =>
    change d.nullable (f a) = .ok (some a)
    unfold nullable
    split
    · rename_i hv
      exact absurd hv (hnull a)
    · rw [hread a rfl]
      rfl

theorem nullable_int32 {o : Option Int} (h : ∀ i, o = some i → Urn.InRange i) :
    int32.nullable (.ofOption .int o) = .ok o :=
  nullable_ofOption (fun i hi => by cases hi) fun i hi => int32_int (h i hi)

theorem dict_object {α : Type} {d : Decoder α} {f : α → Value} (h : ∀ a, d (f a) = .ok a)
    (es : Dict String α) : dict d (.object (es.entries.map fun e => (e.1, f e.2))) = .ok es := by
  have hread : (es.entries.map fun e => (e.1, f e.2)).mapM (fun m => do return (m.1, ← d m.2)) =
      (.ok es.entries : Except DecodeError _) := by
    rw [List.mapM_map]
    trans es.entries.mapM pure
    · congr 1
      funext e
      simp [h, bind, Except.bind, pure, Except.pure]
    · rw [List.mapM_pure, List.map_id']
      rfl
  unfold dict
  simp only [hread]
  exact congrArg Except.ok (Dict.ofList_entries es)

end Json.Decoder

/-- That a time falls in the years 0 to 9999, which are written with four digits. -/
def Time.Instant.Stamped (t : Instant) : Prop :=
  0 ≤ t.year ∧ t.year ≤ 9999

instance (t : Instant) : Decidable t.Stamped :=
  inferInstanceAs (Decidable (0 ≤ t.year ∧ t.year ≤ 9999))

theorem timestampDecoder_timestamp {t : Instant} (h : t.Stamped) :
    timestampDecoder (TimeFormat.timestamp t) = .ok t := by
  unfold timestampDecoder TimeFormat.timestamp
  simp only [Timestamp.read_write h]

theorem timestampDecoder_ofOption {o : Option Instant} (h : ∀ t, o = some t → t.Stamped) :
    timestampDecoder.nullable (.ofOption TimeFormat.timestamp o) = .ok o :=
  Decoder.nullable_ofOption (fun t ht => by cases ht) fun t ht =>
    timestampDecoder_timestamp (h t ht)

theorem Kind.decode_recordName (k : Kind) : decode (.string k.recordName) = .ok k := by
  cases k <;> rfl

theorem UserMode.decode_name (m : UserMode) : decode (.string m.name) = .ok m := by
  cases m <;> rfl

theorem Spec.decode_encode (s : Spec) : decode s.encode = .ok s := by
  simp [decode, encode, Members.ofValue, Field.of, Members.required, Members.get?, bind,
    Except.bind, pure, Except.pure, Except.map]

theorem Claim.decode_encode (c : Claim) : decode c.encode = .ok c := by
  simp [decode, encode, Members.ofValue, Field.of, Members.required, Members.get?, bind,
    Except.bind, pure, Except.pure, Except.map]

theorem Claims.decode_encode (cs : Claims) : decode (encode cs) = .ok cs :=
  Decoder.dict_object Claim.decode_encode cs

/-- What a repository keeps to in records: the id fits its column and the times their timestamps. -/
structure Repo.Recordable (r : Repo) : Prop where
  id : Urn.InRange r.id
  createdAt : ∀ t, r.createdAt = some t → t.Stamped
  updatedAt : ∀ t, r.updatedAt = some t → t.Stamped
  deletedAt : ∀ t, r.deletedAt = some t → t.Stamped

theorem Repo.decode_encode {r : Repo} (h : r.Recordable) : decode r.encode = .ok r := by
  have hid := Decoder.int32_int h.id
  have hcreated := timestampDecoder_ofOption h.createdAt
  have hupdated := timestampDecoder_ofOption h.updatedAt
  have hdeleted := timestampDecoder_ofOption h.deletedAt
  simp [decode, encode, encodeWith, fields, Members.ofValue, Field.of, Members.required,
    Members.optional, Members.get?, Spec.decode_encode, Claims.decode_encode, hid, hcreated,
    hupdated, hdeleted, bind, Except.bind, pure, Except.pure, Except.map]

theorem Repo.byName_decode : Decoder.ByName (fields.map (·.name)) decode := by
  apply Decoder.byName_of_build
  intro es ms hget
  simp only [fields, Field.of, List.forall_mem_cons] at hget
  simp only [Members.required, Members.optional, hget]
  rfl

/-- What a service keeps to in records; its configuration may be any value. -/
structure Service.Recordable (s : Service) : Prop where
  id : Urn.InRange s.id
  namespaceUserId : ∀ i, s.namespaceUserId = some i → Urn.InRange i
  lastSyncAt : ∀ t, s.lastSyncAt = some t → t.Stamped
  nextSyncAt : ∀ t, s.nextSyncAt = some t → t.Stamped
  createdAt : ∀ t, s.createdAt = some t → t.Stamped
  updatedAt : ∀ t, s.updatedAt = some t → t.Stamped
  deletedAt : ∀ t, s.deletedAt = some t → t.Stamped

theorem Service.decode_encode {s : Service} (h : s.Recordable) : decode s.encode = .ok s := by
  have hid := Decoder.int32_int h.id
  have huser := Decoder.nullable_int32 h.namespaceUserId
  have hlast := timestampDecoder_ofOption h.lastSyncAt
  have hnext := timestampDecoder_ofOption h.nextSyncAt
  have hcreated := timestampDecoder_ofOption h.createdAt
  have hupdated := timestampDecoder_ofOption h.updatedAt
  have hdeleted := timestampDecoder_ofOption h.deletedAt
  simp [decode, encode, encodeWith, fields, Members.ofValue, Field.of, Members.required,
    Members.optional, Members.get?, Kind.decode_recordName, hid, huser, hlast, hnext, hcreated,
    hupdated, hdeleted, bind, Except.bind, pure, Except.pure, Except.map]

theorem Service.byName_decode : Decoder.ByName (fields.map (·.name)) decode := by
  apply Decoder.byName_of_build
  intro es ms hget
  simp only [fields, Field.of, List.forall_mem_cons] at hget
  simp only [Members.required, Members.optional, hget]
  rfl

def SyncSettings.numbers (s : SyncSettings) : List Nat :=
  [s.userReposMaxPerUser, s.userReposMaxPerSite, s.minSyncInterval, s.enqueueInterval,
    s.channelCapacity]

def WorkerSettings.wideNumbers (w : WorkerSettings) : List Nat :=
  [w.concurrency, w.dequeueInterval, w.heartbeatInterval, w.stalledMaxAge, w.resetterInterval,
    w.cleanupInterval, w.jobRetention]

def WorkerSettings.narrowNumbers (w : WorkerSettings) : List Nat :=
  [w.maxNumResets, w.maxNumRetries]

/-- What settings keep to in records: no number is greater than its width allows. -/
structure Settings.Recordable (s : Settings) : Prop where
  wide : ∀ n ∈ s.dbAcquireTimeoutMs :: s.sync.numbers ++ s.worker.wideNumbers, n ≤ most64
  narrow : ∀ n ∈ s.dbMaxConnections :: s.worker.narrowNumbers, n ≤ most32

theorem SyncSettings.decode_encode {s : SyncSettings}
    (h : ∀ n ∈ s.numbers, n ≤ Settings.most64) : decode s.encode = .ok s := by
  simp only [numbers, List.forall_mem_cons] at h
  obtain ⟨hperUser, hperSite, hinterval, henqueue, hcapacity, -⟩ := h
  have hmode := UserMode.decode_name s.userMode
  simp [decode, encode, fields, Members.ofValue, Field.of, Members.withDefault, Members.get?,
    hmode, Decoder.nat64_nat, Decoder.natSize_nat, hperUser, hperSite, hinterval, henqueue,
    hcapacity, bind, Except.bind, pure, Except.pure, Except.map]

theorem WorkerSettings.decode_encode {w : WorkerSettings}
    (hwide : ∀ n ∈ w.wideNumbers, n ≤ Settings.most64)
    (hnarrow : ∀ n ∈ w.narrowNumbers, n ≤ Settings.most32) : decode w.encode = .ok w := by
  simp only [wideNumbers, narrowNumbers, List.forall_mem_cons] at hwide hnarrow
  simp [decode, encode, fields, Members.ofValue, Field.of, Members.withDefault, Members.get?,
    Decoder.nat64_nat, Decoder.natSize_nat, Decoder.nat32_nat, hwide, hnarrow, bind, Except.bind,
    pure, Except.pure, Except.map]

theorem Settings.decode_encode {s : Settings} (h : s.Recordable) : decode s.encode = .ok s := by
  have hsync := SyncSettings.decode_encode (s := s.sync) fun n hn => h.wide n (by simp [hn])
  have hworker := WorkerSettings.decode_encode (w := s.worker)
    (fun n hn => h.wide n (by simp [hn])) (fun n hn => h.narrow n (by simp [hn]))
  have htimeout := Decoder.nat64_nat (h.wide s.dbAcquireTimeoutMs (by simp))
  have hconnections := Decoder.nat32_nat (h.narrow s.dbMaxConnections (by simp))
  simp [decode, encode, fields, Members.ofValue, Field.of, Members.withDefault, Members.get?,
    hsync, hworker, htimeout, hconnections, bind, Except.bind, pure, Except.pure, Except.map]

theorem Settings.byName_decode : Decoder.ByName (fields.map (·.name)) decode := by
  apply Decoder.byName_of_build
  intro es ms hget
  simp only [fields, Field.of, List.forall_mem_cons] at hget
  simp only [Members.withDefault, hget]

/-- That a value is read as `a`, and every object that extends it too. -/
def Json.Decoder.Recovers {α : Type} (d : Decoder α) (v : Value) (a : α) : Prop :=
  d v = .ok a ∧ ∀ w, v.ExtendedBy w → d w = .ok a

/-- Repositories, services and settings are read back from what is written of them, whatever the
order of the members and whatever other members there are. -/
theorem records_recovered :
    (∀ r : Repo, r.Recordable → Decoder.Recovers Repo.decode r.encode r) ∧
    (∀ s : Service, s.Recordable → Decoder.Recovers Service.decode s.encode s) ∧
    (∀ s : Settings, s.Recordable → Decoder.Recovers Settings.decode s.encode s) := by
  refine ⟨fun r h => ?_, fun s h => ?_, fun s h => ?_⟩
  · exact ⟨Repo.decode_encode h, fun w hw =>
      Repo.byName_decode.extended rfl (by decide) (Repo.decode_encode h) hw⟩
  · exact ⟨Service.decode_encode h, fun w hw =>
      Service.byName_decode.extended rfl (by decide) (Service.decode_encode h) hw⟩
  · exact ⟨Settings.decode_encode h, fun w hw =>
      Settings.byName_decode.extended rfl (by decide) (Settings.decode_encode h) hw⟩

namespace Sample

/-- A repository with times of different precision, one of them before 1970. -/
def dated : Repo :=
  { Repo.blank with
    id := 7
    name := "hub/tool"
    spec := ⟨"github", "github.com", "1"⟩
    claims := Dict.ofList [("extsvc:other:9", ⟨"extsvc:other:9", "ssh://b"⟩),
      ("extsvc:github:1", ⟨"extsvc:github:1", "https://a"⟩)]
    createdAt := some ⟨-62167219200000000000⟩
    updatedAt := some ⟨1700000000120000000⟩
    deletedAt := some ⟨1700000000000000001⟩ }

def configured : Service :=
  { Service.fresh .bitbucketCloud "mirror" with
    id := -1
    config := .object [("url", .string "https://a"), ("repos", .array [.null, .int 3])]
    namespaceUserId := some 12
    lastSyncAt := some ⟨1700000000120000000⟩ }

/-- An object with its members in reverse and another one before them. -/
def jumbled : Value → Value
  | .object es => .object (("etag", .bool true) :: es.reverse)
  | v => v

theorem extendedBy_jumbled {es : List (String × Value)} (h : "etag" ∉ es.map (·.1)) :
    (Value.object es).ExtendedBy (jumbled (.object es)) := by
  refine ⟨es, ("etag", .bool true) :: es.reverse, [("etag", .bool true)], rfl, rfl, ?_, ?_⟩
  · exact ((es.reverse_perm.cons _).trans (List.perm_append_singleton _ es).symm)
  · intro o ho
    rw [List.mem_singleton.mp ho]
    exact h

end Sample

theorem records_recovered_jumbled :
    Repo.decode (Sample.jumbled Sample.dated.encode) = .ok Sample.dated ∧
    Service.decode (Sample.jumbled Sample.configured.encode) = .ok Sample.configured ∧
    Settings.decode (Sample.jumbled Settings.default.encode) = .ok Settings.default := by
  obtain ⟨hrepo, hservice, hsettings⟩ := records_recovered
  refine ⟨(hrepo Sample.dated ?_).2 _ (Sample.extendedBy_jumbled (by decide)),
    (hservice Sample.configured ?_).2 _ (Sample.extendedBy_jumbled (by decide)),
    (hsettings Settings.default ?_).2 _ (Sample.extendedBy_jumbled (by decide))⟩
  · constructor
    · exact ⟨by decide, by decide⟩
    all_goals
      rintro t ⟨⟩
      decide
  · constructor
    · exact ⟨by decide, by decide⟩
    · rintro i ⟨⟩
      exact ⟨by decide, by decide⟩
    · rintro t ⟨⟩
      decide
    all_goals
      rintro t ⟨⟩
  · constructor <;> decide

end RepoCatalog
