import RepoCatalog.Proofs.Ceilings
import RepoCatalog.Proofs.Overwritten

/-!
# Whose repositories are counted

What counts as added by users is read off the memberships, each of which bears a copy of the owner
of its service from when it was written. So the count is that of the repositories that users own as
long as all memberships are in step with their services.

Passes and calls keep them in step. A service that is written with another owner leaves behind the
memberships that it has, and a caller who brings a service of another owner than the stored one
writes down what is not so; nothing else puts a membership out of step.
-/
namespace RepoCatalog

open Step
open Time (Duration)

namespace Catalog

variable {c d e : Catalog} {users : List Int} {j : Int}

/-- Whether an owner is one of some users, or, if none are named, whether there is one. -/
def isAmong (owner : Option Int) (users : List Int) : Bool :=
  owner.any fun u => users.isEmpty || users.contains u

/-- The repositories that some users hold through their services, or, if none are named, that any
users hold. -/
def owned (c : Catalog) (users : List Int) : Finset Int :=
  ((c.members.entries.filter fun e => isAmong (c.ownerOf e.1.service) users).map
    (·.1.repo)).toFinset

/-- Every membership bears the owner of its service. -/
def InStep (c : Catalog) : Prop :=
  ∀ k m, c.members.get? k = some m → m.userId = c.ownerOf k.service

theorem mem_owned : j ∈ c.owned users ↔
    ∃ s m, c.members.get? ⟨j, s⟩ = some m ∧ isAmong (c.ownerOf s) users = true := by
  unfold owned
  simp only [List.mem_toFinset, List.mem_map, List.mem_filter, Prod.exists, Dict.get?_eq_some_iff]
  constructor
  · rintro ⟨⟨repo, s⟩, m, ⟨hmem, hamong⟩, rfl⟩
    exact ⟨s, m, hmem, hamong⟩
  · rintro ⟨s, m, hmem, hamong⟩
    exact ⟨⟨j, s⟩, m, ⟨hmem, hamong⟩, rfl⟩

theorem InStep.userAdded (h : c.InStep) (users : List Int) : c.userAdded users = c.owned users := by
  ext j
  rw [mem_userAdded, mem_owned]
  refine exists_congr fun s => exists_congr fun m => and_congr_right fun hm => ?_
  rw [← h _ m hm]
  rfl

theorem InStep.of_same (h : c.InStep) (hservices : d.services = c.services)
    (hmembers : d.members = c.members) : d.InStep := by
  intro k m hm
  rw [hmembers] at hm
  rw [h k m hm]
  unfold ownerOf
  rw [hservices]

theorem inStep_of_empty (h : c.members = ∅) : c.InStep := by
  intro k m hm
  rw [h] at hm
  cases hm

end Catalog

/-- The store counts what is owned, as long as all memberships are in step. -/
theorem Store.count_of_inStep {s : Store} (hs : s.catalog.Complete) (h : s.catalog.InStep)
    (users : List Int) :
    Store.countUserAdded users s = (.ok (s.catalog.owned users).card, s) := by
  rw [Store.run_countUserAdded hs, h.userAdded]

namespace Catalog

variable {c d : Catalog} {svc : Service} {id : Int}

/-- What the catalog `d` holds once a service was written into `c` under an id. -/
structure Upserted (c : Catalog) (svc : Service) (id : Int) (d : Catalog) : Prop where
  version : d.version = c.version
  members : d.members = c.members
  owners : ∀ s, d.ownerOf s = if s = id then svc.owner? else c.ownerOf s
  place : svc.id = id ∨ (svc.id = 0 ∧ c.services.get? id = none)

theorem ownerOf_of_row {row : ServiceRow} (h : c.services.get? id = some row) :
    c.ownerOf id = row.owner? := by
  unfold ownerOf
  rw [h, Option.bind_some]

theorem Holds.ownerOf (h : c.Holds svc) : c.ownerOf svc.id = svc.owner? := by
  obtain ⟨row, hrow, hload⟩ := h
  rw [ownerOf_of_row hrow]
  unfold ServiceRow.toService? at hload
  obtain ⟨kind, -, hsvc⟩ := Option.map_eq_some_iff.mp hload
  exact congrArg Service.owner? hsvc

theorem upserted_new (c : Catalog) (row : ServiceRow) (hid : svc.id = 0)
    (hrow : row.owner? = svc.owner?) {u : Int} (h : c.addService row = .ok (u, d)) :
    Upserted c svc u d := by
  unfold addService at h
  split at h
  · cases h
    refine ⟨rfl, rfl, fun s => ?_, .inr ⟨hid, Table.get?_nextId _⟩⟩
    unfold ownerOf
    simp only [Table.get?_append]
    split
    · rw [Option.bind_some, hrow]
    · rfl
  · cases h

theorem upserted_same (c : Catalog) (row : ServiceRow) (hrow : row.owner? = svc.owner?) {u : Unit}
    (h : c.changeService svc.id (fun _ => row) = .ok (u, d)) : Upserted c svc svc.id d := by
  unfold changeService at h
  split at h
  · cases h
  · rename_i old hold
    split at h
    · cases h
      refine ⟨rfl, rfl, fun s => ?_, .inl rfl⟩
      unfold ownerOf
      simp only [Table.get?_modify]
      split
      · rename_i hs
        rw [hs, hold, Option.map_some, Option.bind_some, hrow]
      · rfl
    · cases h

/-- Whether a service holds repositories that it would take along from one owner to another. -/
def Reowns (c : Catalog) (svc : Service) : Prop :=
  svc.owner? ≠ c.ownerOf svc.id ∧ ∃ j m, c.members.get? ⟨j, svc.id⟩ = some m

theorem Upserted.inStep_iff (h : Upserted c svc id d) (hs : c.Furnished) (hc : c.InStep) :
    d.InStep ↔ ¬c.Reowns svc := by
  constructor
  · rintro hd ⟨hne, j, m, hm⟩
    have hstored : svc.id = id := by
      refine h.place.resolve_right fun hnew => ?_
      obtain ⟨row, hrow⟩ := service_of_member hm
      exact absurd hnew.1 (Int.ne_of_gt (hs.ids _ row hrow).1)
    have hafter := hd ⟨j, svc.id⟩ m (h.members ▸ hm)
    rw [hc _ m hm, h.owners, if_pos hstored] at hafter
    exact hne hafter.symm
  · intro hnot k m hm
    rw [h.members] at hm
    rw [hc k m hm, h.owners]
    split
    · rename_i hk
      rcases h.place with hid | ⟨-, hnone⟩
      · rw [hk, ← hid]
        by_contra hne
        exact hnot ⟨Ne.symm hne, k.repo, m, hid ▸ hk ▸ hm⟩
      · obtain ⟨row, hrow⟩ := service_of_member hm
        cases (hk ▸ hnone).symm.trans hrow
    · rfl

theorem Upserted.ownerOf_eq (h : Upserted c svc id d) (hid : svc.id ≠ 0)
    (hown : c.ownerOf svc.id = svc.owner?) : d.ownerOf = c.ownerOf := by
  have hstored : svc.id = id := h.place.resolve_right fun hnew => hid hnew.1
  funext s
  rw [h.owners]
  split
  · rename_i hs
    rw [hs, ← hstored, hown]
  · rfl

theorem Upserted.complete (h : Upserted c svc id d) (hc : c.Complete) : d.Complete := by
  intro t
  have htable := hc t
  unfold hasTable at htable ⊢
  rw [h.version]
  exact htable

end Catalog

namespace Store

open Catalog

theorem putService_upserts {s t : Store} {svc : Service} {r : Except StoreError Service}
    (h : putService svc s = (r, t)) :
    (∃ svc', r = .ok svc' ∧ Upserted s.catalog svc svc'.id t.catalog) ∨
      (∃ e, r = .error e) ∧ t.catalog = s.catalog := by
  have howner : (svc.rowAt s.clock).owner? = svc.owner? := rfl
  rcases putService_cases h with hleft | ⟨svc', rfl, hput, -⟩
  · exact .inr hleft
  · refine .inl ⟨svc', rfl, ?_⟩
    cases hput with
    | added hid hadd => exact upserted_new s.catalog _ hid howner hadd
    | changed _ hsame hchange => exact hsame ▸ upserted_same s.catalog _ howner hchange

theorem count_putService {s t : Store} (hs : s.catalog.Complete) {svc : Service}
    {r : Except StoreError Service} (h : putService svc s = (r, t)) (users : List Int) :
    countUserAdded users t = (.ok (s.catalog.userAdded users).card, t) := by
  rcases putService_upserts h with ⟨svc', -, hput⟩ | ⟨-, hsame⟩
  · rw [run_countUserAdded (hput.complete hs), userAdded_of_members hput.members]
  · rw [run_countUserAdded (hsame ▸ hs), hsame]

end Store

namespace Catalog

variable {p q : MemberKey → Membership → Prop} {c d e : Catalog} {svc : Service} {x x' : Repo}
  {ids keep : List Int}

/-- All stays in place, services keep their owners, and memberships are written down as `p` says. -/
structure Signed (p : MemberKey → Membership → Prop) (c d : Catalog) : Prop where
  furnished : c.Furnished → d.Furnished
  owners : d.ownerOf = c.ownerOf
  members : ∀ k m, d.members.get? k = some m → c.members.get? k = some m ∨ p k m

theorem Signed.refl (c : Catalog) : Signed p c c :=
  ⟨id, rfl, fun _ _ hm => .inl hm⟩

theorem Signed.trans (h : Signed p c d) (h' : Signed p d e) : Signed p c e :=
  ⟨h'.furnished ∘ h.furnished, h'.owners.trans h.owners,
    fun k m hm => (h'.members k m hm).elim (h.members k m) .inr⟩

theorem Signed.mono (h : Signed p c d) (hpq : ∀ k m, p k m → q k m) : Signed q c d :=
  ⟨h.furnished, h.owners, fun k m hm => (h.members k m hm).imp_right (hpq k m)⟩

theorem Signed.of_sameSetting (h : SameSetting c d)
    (hmembers : ∀ k m, d.members.get? k = some m → c.members.get? k = some m ∨ p k m) :
    Signed p c d :=
  ⟨fun hs => hs.of_sameSetting h, ownerOf_of_sameSetting h, hmembers⟩

theorem Deleted.signed (h : Deleted c ids d) : Signed p c d :=
  .of_sameSetting h.setting fun _ _ hm => .inl (h.member_of_member hm)

theorem Swept.signed (h : Swept c svc keep ids d) : Signed p c d :=
  .of_sameSetting h.setting fun _ _ hm => .inl (h.member_of_member hm)

/-- What is written down for a service bears the owner that the service has in memory. -/
def Signs (svc : Service) (k : MemberKey) (m : Membership) : Prop :=
  k.service = svc.id ∧ m.userId = svc.owner?

theorem Joined.signed (h : Joined c svc x x' d) : Signed (Signs svc) c d := by
  refine .of_sameSetting h.setting fun k m hm => ?_
  by_cases hk : k = ⟨x'.id, svc.id⟩
  · obtain ⟨-, claim, -, hmembers⟩ := h
    rw [hmembers, hk, Dict.get?_insert, if_pos rfl] at hm
    cases hm
    exact .inr ⟨congrArg MemberKey.service hk, rfl⟩
  · rw [h.member_of_ne hk] at hm
    exact .inl hm

theorem Edited.signed {edits : MembershipEdits} (h : Edited c edits d) :
    Signed (fun k m => m.userId = c.ownerOf k.service) c d := by
  refine .of_sameSetting h.setting fun k m hm => ?_
  rw [h.members] at hm
  cases hput : (Dict.ofList (c.puts edits)).get? k with
  | some m' =>
      rw [hput, Option.some_or] at hm
      cases hm
      obtain ⟨claim, -, rfl⟩ := mem_puts.mp (Dict.mem_of_get?_ofList hput)
      exact .inr rfl
  | none =>
      rw [hput, Option.none_or] at hm
      split at hm
      · cases hm
      · exact .inl hm

/-- Where services have the owners `o` to begin with, they keep them, and every membership that is
written down bears the owner of its service. -/
def Faithful (o : Int → Option Int) (c d : Catalog) : Prop :=
  c.ownerOf = o → Signed (fun k m => m.userId = o k.service) c d

variable {o : Int → Option Int}

theorem Faithful.refl (o : Int → Option Int) (c : Catalog) : Faithful o c c :=
  fun _ => .refl c

-- Owners are looked up in the middle of a batch too, so each step hands on that they are still `o`.
theorem Faithful.trans (h : Faithful o c d) (h' : Faithful o d e) : Faithful o c e :=
  fun ho => (h ho).trans (h' ((h ho).owners.trans ho))

theorem Deleted.faithful (h : Deleted c ids d) : Faithful o c d :=
  fun _ => h.signed

theorem Edited.faithful {edits : MembershipEdits} (h : Edited c edits d) : Faithful o c d :=
  fun ho => ho ▸ h.signed

theorem SavedAll.faithful {rs rs' : List Repo} (h : SavedAll c rs rs' d) : Faithful o c d :=
  fun _ => .of_sameSetting h.setting fun _ _ hm => .inl (h.members ▸ hm)

/-- What is written down for a service is faithful if the owner in memory is the stored one. -/
theorem Signed.faithful (h : Signed (Signs svc) c d) (hown : o svc.id = svc.owner?) :
    Faithful o c d := by
  refine fun _ => h.mono fun k m hsigns => ?_
  rw [hsigns.1, hown, hsigns.2]

theorem Faithful.inStep (h : Faithful c.ownerOf c d) (hc : c.InStep) : d.InStep := by
  intro k m hm
  rw [(h rfl).owners]
  exact ((h rfl).members k m hm).elim (hc k m) id

end Catalog

namespace Syncer

open Effect Catalog

variable {y : Syncer} {svc : Service} {r : Repo} {d : Diff} {o : Int → Option Int} {w w' : World}
  {sourced : List Repo} {least : Duration}

theorem reconcile_signed (hs : w.store.catalog.Furnished) (h : y.reconcile svc r w = (.ok d, w')) :
    Signed (Signs svc) w.store.catalog w'.store.catalog := by
  obtain ⟨rival, existing, ds, d', v, v', -, hstore, hdisplace, -, hend⟩ :=
    reconcile_inv hs.tables h
  rw [← hstore] at hs ⊢
  obtain ⟨hdeleted, -⟩ := displace_deleted hs.tables hdisplace
  have hs' := hs.of_sameSetting hdeleted.setting
  refine hdeleted.signed.trans ?_
  rcases hend with ⟨x, -, hrefresh⟩ | ⟨-, u, -, hu, hintroduce⟩
  · rcases refresh_cases hs'.tables hrefresh with ⟨-, rfl, -⟩ | ⟨-, x', -, hjoined, -⟩
    · exact .refl _
    · exact hjoined.signed
  · rw [← hu] at hs' ⊢
    obtain ⟨added, hjoined, -⟩ := introduce_joined hs'.tables hintroduce
    exact hjoined.signed

theorem sync_signed (y : Syncer) (svc : Service) (r : Repo) :
    Within (OnFurnished (Signed (Signs svc))) (y.sync svc r) :=
  onFurnished_sync .refl fun _ _ _ hs hrun => reconcile_signed hs hrun

instance : Asks (OnFurnished (Faithful o)) where
  refl _ := .of_store (.refl o) rfl
  trans h h' hs ho :=
    (h hs).trans (h' ((h hs ho).furnished hs)) ho
  ask _ _ _ h := fun w => .of_store (.refl o) (still_store h w)

section
variable (y) (hown : o svc.id = svc.owner?)
include hown

theorem faithful_sync (r : Repo) : Within (OnFurnished (Faithful o)) (y.sync svc r) :=
  (sync_signed y svc r).mono fun _ _ h hs => (h hs).faithful hown

theorem faithful_insertIfNew (r : Repo) :
    Within (OnFurnished (Faithful o)) (y.insertIfNew svc r) := by
  refine Within.bind (onFurnished_transaction (.refl o) (saved_reconcileNew y svc r) ?_) fun d w =>
    OnFurnished.of_store (.refl o) (still_publishSome y d w)
  intro v d v' hs hrun
  rcases reconcileNew_cases hs hrun with hsame | ⟨added, hjoined⟩
  · rw [hsame]
    exact .refl o _
  · exact hjoined.signed.faithful hown

theorem faithful_putService (context : String) (hid : svc.id ≠ 0) :
    Within (OnFurnished (Faithful o)) (store context .putService (Store.putService svc)) := by
  intro v hs ho
  unfold store
  rw [snd_mapError]
  rcases call_store .putService (Store.putService svc) v with ⟨hstore, -⟩ | ⟨hstore, -⟩
  · rw [hstore]
    exact .refl _
  · rw [hstore]
    rcases Store.putService_upserts (Prod.eta (Store.putService svc v.store)).symm with
      ⟨svc', -, hput⟩ | ⟨-, hsame⟩
    · have hkept := hput.ownerOf_eq hid (ho ▸ hown)
      refine ⟨fun _ => ?_, hkept, fun k m hm => .inl (hput.members ▸ hm)⟩
      rcases Store.visited_of_putService hs hid with hvisited | hsame
      · exact hvisited.furnished
      · exact hsame ▸ hs
    · rw [hsame]
      exact .refl _

theorem faithful_recordVisit (hid : svc.id ≠ 0) (interval : Duration) :
    Within (OnFurnished (Faithful o)) (y.recordVisit svc interval) := by
  unfold recordVisit
  split
  · exact Within.throw _
  · exact Within.bind (faithful_putService (by exact hown) _ (by exact hid)) fun _ => Within.pure _

theorem faithful_applied (hid : svc.id ≠ 0) (sourced : List Repo) (least : Duration) :
    Within (OnFurnished (Faithful o)) (transaction .ofStore (y.applyBatch svc sourced least)) := by
  refine onFurnished_transaction (.refl o) (saved_applyBatch y svc sourced least) ?_
  intro v diff v' hs hrun
  obtain ⟨c₁, c₂, c₃, c₄, ms, as, u, interval, hstripped, hdeleted, hmodified, hadded, hjoined,
    hsetting, hvisit, -⟩ := applyBatch_inv hs.tables hrun
  have hwritten : Faithful o v.store.catalog u.store.catalog :=
    hstripped.faithful.trans (hdeleted.faithful.trans (hmodified.faithful.trans
      (hadded.faithful.trans hjoined.faithful)))
  have hs' := hs.of_sameSetting hsetting
  exact hwritten.trans ((faithful_recordVisit y hown hid interval).of_run hvisit hs')

theorem faithful_batch (hid : svc.id ≠ 0) (least : Duration) :
    Within (OnFurnished (Faithful o)) (y.batch svc least) := by
  rw [batch_eq]
  refine Within.bind (asks_reading fun _ _ r _ => faithful_insertIfNew y hown r) fun listing =>
    Within.bind (within_ofExcept _) fun judged => Within.bind (asks_allowsPrivate y svc) fun _ =>
      Within.bind (faithful_applied y hown hid _ least) fun diff => ?_
  refine Within.bind (fun w => .of_store (.refl o) (still_publish y diff w)) fun _ => ?_
  split
  · exact Within.throw _
  · exact Within.pure _

theorem faithful_stream (hid : svc.id ≠ 0) (least : Duration) :
    Within (OnFurnished (Faithful o)) (y.stream svc least) := by
  rw [stream_eq]
  refine Within.bind (asks_allowsPrivate y svc) fun allowed =>
    Within.bind (asks_itemsOf y svc) fun items =>
      Within.bind (within_readStream (fun r _ => faithful_sync y hown r) allowed) fun s =>
        Within.bind (onFurnished_sweepUnseen (.refl o) (fun _ h _ => h.signed) y s.seen) fun lost =>
          Within.bind (faithful_recordVisit y hown hid _) fun _ => within_ofExcept _

end

theorem faithful_found {β : Type} {ask : Pass Service} {f : Service → Pass β}
    (hask : Within SameStore ask)
    (hfound : ∀ w svc w', w.store.catalog.Furnished → ask w = (.ok svc, w') →
      w.store.catalog.Holds svc)
    (hf : ∀ svc, o svc.id = svc.owner? → svc.id ≠ 0 → Within (OnFurnished (Faithful o)) (f svc)) :
    Within (OnFurnished (Faithful o)) (ask >>= f) := by
  intro w hs ho
  rw [run_bind]
  have hstill := hask w
  cases hrun : ask w with
  | mk result v =>
      rw [hrun] at hstill
      cases result with
      | error e => exact OnFurnished.of_store (S := Faithful o) (.refl o) hstill hs ho
      | ok svc =>
          have hholds := hfound w svc v hs hrun
          have hsame : v.store = w.store := hstill
          have hafter := hf svc (ho ▸ hholds.ownerOf) (Int.ne_of_gt (hholds.range hs).1) v
          rw [← hsame] at hs ho ⊢
          exact hafter hs ho

theorem holds_of_cloudDefault (hs : w.store.catalog.Furnished) {serviceType : String}
    (h : cloudDefault serviceType w = (.ok svc, w')) : w.store.catalog.Holds svc := by
  unfold cloudDefault at h
  cases hkind : Kind.ofServiceType? serviceType with
  | none =>
      rw [hkind] at h
      cases h
  | some kind =>
      rw [hkind] at h
      obtain ⟨found, v, hlist, h⟩ := bind_ok_iff.mp h
      cases found with
      | nil => cases h
      | cons first rest =>
          cases h
          exact Store.holds_of_listServices hs (store_ok hlist) List.mem_cons_self

/-- A pass, or a call that looks up its service, writes down who owns the services. -/
theorem faithful_perform (y : Syncer) (task : Task) (htask : ∀ svc r, task ≠ .sync svc r) :
    Within (OnFurnished (Faithful o)) (y.perform task) := by
  cases task with
  | sync svc r => exact absurd rfl (htask svc r)
  | visit id least =>
      refine faithful_found (still_store (Store.still_getService id)) ?_ fun svc hown hid => ?_
      · exact fun w svc w' hs hrun => (Store.getService_ok hs (store_ok hrun)).1
      · split
        · exact asks_unopened y svc
        split
        · exact faithful_stream y hown hid least
        · exact faithful_batch y hown hid least
  | syncRepo r =>
      unfold perform syncRepo
      simp only []
      rw [bind_assoc]
      refine faithful_found (asks_cloudDefault r.spec.serviceType) ?_ fun svc hown _ => ?_
      · exact fun w svc w' hs hrun => holds_of_cloudDefault hs hrun
      · exact Within.bind (faithful_sync y hown r) fun _ => Within.pure _

end Syncer

/-- What is done to a catalog: a service is written, or a task is performed. -/
inductive Act where
  | upsert (svc : Service)
  | perform (y : Syncer) (task : Task)

namespace Act

open Catalog Effect Syncer

variable {w : World}

/-- Carries out the act, whatever comes of it. -/
def run (w : World) : Act → World
  | .upsert svc => { w with store := (Store.putService svc w.store).2 }
  | .perform y task => (y.perform task w).2

/-- Whether an act leaves a membership with a wrong owner: a service is written with another owner
while it holds repositories, or a caller who says another owner than the stored one has something
written down. -/
def Misleads (w : World) : Act → Prop
  | .upsert svc => (Store.putService svc w.store).1.isOk = true ∧ w.store.catalog.Reowns svc
  | .perform y (.sync svc r) => svc.owner? ≠ w.store.catalog.ownerOf svc.id ∧
      ∃ j m, (y.sync svc r w).2.store.catalog.members.get? ⟨j, svc.id⟩ = some m ∧
        w.store.catalog.members.get? ⟨j, svc.id⟩ ≠ some m
  | .perform .. => False

theorem faithful_run (hs : w.store.catalog.Furnished) (y : Syncer) (task : Task)
    (htask : ∀ svc r, task ≠ .sync svc r) : Faithful w.store.catalog.ownerOf w.store.catalog
      (run w (.perform y task)).store.catalog :=
  faithful_perform y task htask w hs

theorem furnished_perform (hs : w.store.catalog.Furnished) (y : Syncer) (task : Task) :
    (run w (.perform y task)).store.catalog.Furnished := by
  by_cases htask : ∃ svc r, task = .sync svc r
  · obtain ⟨svc, r, rfl⟩ := htask
    unfold run
    simp only []
    rw [snd_perform_sync]
    exact (sync_signed y svc r w hs).furnished hs
  · simp only [not_exists] at htask
    exact (faithful_run hs y task htask rfl).furnished hs

theorem inStep_upsert (hs : w.store.catalog.Furnished) (hc : w.store.catalog.InStep)
    (svc : Service) :
    (run w (.upsert svc)).store.catalog.InStep ↔ ¬Misleads w (.upsert svc) := by
  unfold run Misleads
  simp only []
  cases hrun : Store.putService svc w.store with
  | mk r t =>
      rcases Store.putService_upserts hrun with ⟨svc', rfl, hput⟩ | ⟨⟨e, rfl⟩, hsame⟩
      · rw [hput.inStep_iff hs hc]
        exact not_congr ⟨fun h => ⟨rfl, h⟩, And.right⟩
      · rw [hsame]
        exact ⟨fun _ hmisleads => (by cases hmisleads.1), fun _ => hc⟩

theorem inStep_sync (hs : w.store.catalog.Furnished) (hc : w.store.catalog.InStep) (y : Syncer)
    (svc : Service) (r : Repo) :
    (run w (.perform y (.sync svc r))).store.catalog.InStep ↔
      ¬Misleads w (.perform y (.sync svc r)) := by
  unfold run Misleads
  simp only []
  rw [snd_perform_sync]
  have hsigned := sync_signed y svc r w hs
  constructor
  · rintro hd ⟨hne, j, m, hm, hnew⟩
    have hsigns := (hsigned.members _ m hm).resolve_left hnew
    have hafter := hd _ m hm
    rw [hsigned.owners, hsigns.2] at hafter
    exact hne hafter
  · intro hnot k m hm
    rw [hsigned.owners]
    by_cases hold : w.store.catalog.members.get? k = some m
    · exact hc k m hold
    · obtain ⟨hk, howner⟩ := (hsigned.members k m hm).resolve_left hold
      have hkey : k = ⟨k.repo, svc.id⟩ := by rw [← hk]
      rw [hkey] at hm hold
      rw [howner, hk]
      by_contra hne
      exact hnot ⟨hne, k.repo, m, hm, hold⟩

theorem inStep_perform (hs : w.store.catalog.Furnished) (hc : w.store.catalog.InStep) (y : Syncer)
    (task : Task) (htask : ∀ svc r, task ≠ .sync svc r) :
    (run w (.perform y task)).store.catalog.InStep :=
  (faithful_run hs y task htask).inStep hc

/-- An act keeps all memberships in step unless it is one of those that mislead. -/
theorem inStep_iff (hs : w.store.catalog.Furnished) (hc : w.store.catalog.InStep) (a : Act) :
    (a.run w).store.catalog.InStep ↔ ¬a.Misleads w := by
  cases a with
  | upsert svc => exact inStep_upsert hs hc svc
  | perform y task =>
      cases task with
      | sync svc r => exact inStep_sync hs hc y svc r
      | visit id least =>
          have hafter := inStep_perform hs hc y (.visit id least) fun _ _ h => (by cases h)
          exact iff_of_true hafter not_false
      | syncRepo r =>
          have hafter := inStep_perform hs hc y (.syncRepo r) fun _ _ h => (by cases h)
          exact iff_of_true hafter not_false

end Act

namespace Catalog

/-- A catalog that acts reach, each of which is done as `p` says, from one in which nobody holds
anything. Repositories, users and jobs may change in between, and ids do not run out. -/
inductive Managed (p : World → Act → Prop) : Catalog → Prop where
  | start {c : Catalog} : c.members = ∅ → c.Furnished → Managed p c
  | elsewhere {c d : Catalog} :
      Managed p c → d.services = c.services → d.members = c.members → d.Furnished → Managed p d
  | upsert {w : World} (svc : Service) :
      Managed p w.store.catalog → p w (.upsert svc) →
        (Act.run w (.upsert svc)).store.catalog.Furnished →
          Managed p (Act.run w (.upsert svc)).store.catalog
  | perform {w : World} (y : Syncer) (task : Task) :
      Managed p w.store.catalog → p w (.perform y task) →
        Managed p (Act.run w (.perform y task)).store.catalog

theorem Managed.inStep {c : Catalog} (h : Managed (fun w a => ¬a.Misleads w) c) :
    c.Furnished ∧ c.InStep := by
  induction h with
  | start hmembers hc => exact ⟨hc, inStep_of_empty hmembers⟩
  | elsewhere _ hservices hmembers hd ih => exact ⟨hd, ih.2.of_same hservices hmembers⟩
  | upsert svc _ hp hd ih => exact ⟨hd, (Act.inStep_upsert ih.1 ih.2 svc).mpr hp⟩
  | perform y task _ hp ih =>
      exact ⟨Act.furnished_perform ih.1 y task, (Act.inStep_iff ih.1 ih.2 _).mpr hp⟩

end Catalog

namespace Sample

/-- The store of the user, and another user, who has the id 2. -/
def twoUsers : World :=
  { owned with store := (Store.addUser ⟨"neighbour", false⟩ owned.store).2 }

/-- The service once it is the other user's. -/
def ceded : Service :=
  { own with namespaceUserId := some 2 }

/-- The call that brings up what the service lists. -/
def gathering (svc : Service) : Act :=
  .perform (strict []) (.sync svc (ownEntry "1" "alpha"))

theorem furnished_twoUsers : twoUsers.store.catalog.Furnished := by
  refine Catalog.furnished_of_rows (fun t => by cases t <;> rfl) ?_
  unfold Urn.InRange
  decide

end Sample

namespace Catalog

/-- As long as no act misleads, the store counts for users what they own. The next act puts a
membership out of step if and only if it misleads; and a service that is written changes no count,
whoever owns the service then. -/
theorem owned_counted {c : Catalog} (h : Managed (fun w a => ¬a.Misleads w) c) :
    (∀ s : Store, s.catalog = c → ∀ users,
      Store.countUserAdded users s = (.ok (c.owned users).card, s)) ∧
    (∀ (a : Act) (w : World), w.store.catalog = c →
      ((a.run w).store.catalog.InStep ↔ ¬a.Misleads w)) ∧
    ∀ (svc : Service) (w : World), w.store.catalog = c → ∀ users,
      Store.countUserAdded users (Act.run w (.upsert svc)).store =
        (.ok (c.owned users).card, (Act.run w (.upsert svc)).store) := by
  obtain ⟨hc, hstep⟩ := h.inStep
  refine ⟨fun s hs users => ?_, fun a w hw => ?_, fun svc w hw users => ?_⟩
  · subst hs
    exact Store.count_of_inStep hc.tables hstep users
  · subst hw
    exact Act.inStep_iff hc hstep a
  · subst hw
    rw [← hstep.userAdded]
    exact Store.count_putService hc.tables (Prod.eta (Store.putService svc w.store)).symm users

/-- The service is ceded before it holds anything, and then the other user owns what it lists; to
give it back would mislead. -/
theorem owned_counted_ceded :
    let v := Act.run Sample.twoUsers (.upsert Sample.ceded)
    let w := (Sample.gathering Sample.ceded).run v
    Managed (fun w a => ¬a.Misleads w) w.store.catalog ∧
      Store.countUserAdded [2] w.store = (.ok 1, w.store) ∧ (w.store.catalog.owned [2]).card = 1 ∧
      ¬(Act.run w (.upsert Sample.own)).store.catalog.InStep := by
  intro v w
  have hceded : ¬(Act.upsert Sample.ceded).Misleads Sample.twoUsers := by
    rintro ⟨-, -, j, m, hm⟩
    cases hm
  have hv : Managed (fun w a => ¬a.Misleads w) v.store.catalog := by
    refine .upsert Sample.ceded (.start rfl Sample.furnished_twoUsers) hceded ?_
    refine furnished_of_rows (fun t => by cases t <;> rfl) ?_
    unfold Urn.InRange
    decide
  have hown : Sample.ceded.owner? = v.store.catalog.ownerOf Sample.ceded.id := by decide
  have hw : Managed (fun w a => ¬a.Misleads w) w.store.catalog :=
    .perform (Sample.strict []) _ hv fun hmisleads => hmisleads.1 hown
  have hcard : (w.store.catalog.owned [2]).card = 1 := by decide
  have hback : (Store.putService Sample.own w.store).1.isOk = true ∧
      Sample.own.owner? ≠ w.store.catalog.ownerOf Sample.own.id ∧
      (w.store.catalog.members.get? ⟨1, Sample.own.id⟩).isSome = true := by decide
  obtain ⟨hcounts, hstep, -⟩ := owned_counted hw
  refine ⟨hw, hcard ▸ hcounts w.store rfl [2], hcard, fun hkept => ?_⟩
  obtain ⟨m, hm⟩ := Option.isSome_iff_exists.mp hback.2.2
  exact (hstep (.upsert Sample.own) w rfl).mp hkept ⟨hback.1, hback.2.1, 1, m, hm⟩

/-- The service is ceded while it holds a repository, and the store still counts the repository for
the user who does not own it any more. -/
theorem count_lags_behind_owner :
    let w := Act.run ((Sample.gathering Sample.own).run Sample.twoUsers) (.upsert Sample.ceded)
    Managed (fun _ _ => True) w.store.catalog ∧
      Store.countUserAdded [1] w.store = (.ok 1, w.store) ∧ (w.store.catalog.owned [1]).card = 0 ∧
      Store.countUserAdded [2] w.store = (.ok 0, w.store) ∧
      (w.store.catalog.owned [2]).card = 1 := by
  intro w
  have hstart : Managed (fun _ _ => True) Sample.twoUsers.store.catalog :=
    .start rfl Sample.furnished_twoUsers
  have hgathered : Managed (fun _ _ => True) _ :=
    .perform (Sample.strict []) (.sync Sample.own (Sample.ownEntry "1" "alpha")) hstart trivial
  have hfurnished : w.store.catalog.Furnished := by
    refine furnished_of_rows ?_ ?_
    · intro t
      cases t <;> decide
    · unfold Urn.InRange
      decide
  have hcounted : (w.store.catalog.userAdded [1]).card = 1 ∧
      (w.store.catalog.userAdded [2]).card = 0 := by decide
  refine ⟨.upsert Sample.ceded hgathered trivial hfurnished, ?_, by decide, ?_,
    by decide⟩
  · rw [Store.run_countUserAdded hfurnished.tables, hcounted.1]
  · rw [Store.run_countUserAdded hfurnished.tables, hcounted.2]

end Catalog

end RepoCatalog
