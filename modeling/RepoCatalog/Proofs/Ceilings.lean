import RepoCatalog.Proofs.Revoked
import RepoCatalog.Proofs.UserAdded

/-!
# Ceilings on what users add

However streaming passes and calls for single repositories follow each other, no ceiling is passed
by adding repositories. What can pass one is to claim for a user a row that has been in the catalog
all along, live or not, while the ceiling has been reached: nobody asks for room then.

So first it is shown which changes of the catalog pass a ceiling, and then that the repositories
that a pass or a call brings up, one after the other, are all that needs to be looked at.
-/
namespace RepoCatalog

open Step
open Time (Duration)

namespace Catalog

variable {q : Quota} {svc : Service} {c d : Catalog} {users : List Int} {limit : Nat}

/-- No ceiling is passed. -/
def Keeps (q : Quota) (c : Catalog) : Prop :=
  ∀ users limit, q.Caps users limit → (c.userAdded users).card ≤ limit

/-- A row that was in the catalog `c` has come to count for some users, though as many as `limit`
others counted before and still do. -/
def Overclaims (users : List Int) (limit : Nat) (c d : Catalog) : Prop :=
  ∃ j row, c.repos.get? j = some row ∧ j ∉ c.userAdded users ∧ j ∈ d.userAdded users ∧
    limit ≤ (c.userAdded users ∩ d.userAdded users).card

/-- No row that was in the catalog is claimed past a ceiling. -/
def Modest (q : Quota) (c d : Catalog) : Prop :=
  ∀ users limit, q.Caps users limit → ¬Overclaims users limit c d

theorem Overclaims.passes (h : Overclaims users limit c d) : limit < (d.userAdded users).card := by
  obtain ⟨j, row, -, hold, hnew, hlimit⟩ := h
  refine Nat.lt_of_le_of_lt hlimit (Finset.card_lt_card ?_)
  refine Finset.ssubset_iff_of_subset Finset.inter_subset_right |>.mpr ⟨j, hnew, fun hboth => ?_⟩
  exact hold (Finset.mem_inter.mp hboth).1

theorem Adds.keeps_iff (h : Adds q svc c d) (hc : c.Keeps q) : d.Keeps q ↔ Modest q c d := by
  constructor
  · intro hd users limit hcaps hover
    exact Nat.not_le_of_lt hover.passes (hd users limit hcaps)
  intro hmodest users limit hcaps
  have hbefore := hc users limit hcaps
  by_cases hsub : d.userAdded users ⊆ c.userAdded users
  · exact (Finset.card_le_card hsub).trans hbefore
  obtain ⟨j, hnew, hold⟩ := Finset.not_subset.mp hsub
  have hone : d.userAdded users ⊆ insert j (c.userAdded users ∩ d.userAdded users) := by
    obtain ⟨i, hi⟩ := h.one
    intro k hk
    have hj : j = i := (Finset.mem_insert.mp (hi users hnew)).resolve_right hold
    rcases Finset.mem_insert.mp (hi users hk) with rfl | hkept
    · exact hj ▸ Finset.mem_insert_self _ _
    · exact Finset.mem_insert_of_mem (Finset.mem_inter.mpr ⟨hkept, hk⟩)
  have hroom : (c.userAdded users ∩ d.userAdded users).card < limit := by
    cases hrow : c.repos.get? j with
    | some row =>
        exact Nat.lt_of_not_le fun hlimit =>
          hmodest users limit hcaps ⟨j, row, hrow, hold, hnew, hlimit⟩
    | none =>
        exact (Finset.card_le_card Finset.inter_subset_left).trans_lt
          (h.room users limit hcaps j hnew hold hrow)
  calc (d.userAdded users).card
      ≤ (insert j (c.userAdded users ∩ d.userAdded users)).card := Finset.card_le_card hone
    _ ≤ (c.userAdded users ∩ d.userAdded users).card + 1 := Finset.card_insert_le _ _
    _ ≤ limit := hroom

theorem Modest.of_subset (q : Quota) (h : ∀ users, d.userAdded users ⊆ c.userAdded users) :
    Modest q c d :=
  fun users _ _ ⟨_, _, _, hold, hnew, _⟩ => hold (h users hnew)

theorem Modest.of_no_rows (q : Quota) (d : Catalog) (h : ∀ j, c.repos.get? j = none) :
    Modest q c d := by
  rintro users limit - ⟨j, row, hrow, -⟩
  rw [h j] at hrow
  cases hrow

structure Bounded (q : Quota) (c : Catalog) : Prop where
  furnished : c.Furnished
  keeps : c.Keeps q

end Catalog

def Store.Keeps (q : Quota) (s : Store) : Prop :=
  ∀ users limit, q.Caps users limit → ∃ n, Store.countUserAdded users s = (.ok n, s) ∧ n ≤ limit

theorem Store.keeps_iff {q : Quota} {s : Store} (hs : s.catalog.Complete) :
    s.Keeps q ↔ s.catalog.Keeps q := by
  refine forall_congr' fun users => forall_congr' fun limit => imp_congr_right fun _ => ?_
  rw [Store.run_countUserAdded hs]
  constructor
  · rintro ⟨n, hrun, hle⟩
    cases hrun
    exact hle
  · exact fun hle => ⟨_, rfl, hle⟩

/-- All stays in place, and nothing counts that did not count before. -/
structure Catalog.Dwindles (c d : Catalog) : Prop where
  furnished : c.Furnished → d.Furnished
  counted : ∀ users, d.userAdded users ⊆ c.userAdded users

namespace Catalog

variable {c d e : Catalog} {q : Quota}

theorem Dwindles.refl (c : Catalog) : Dwindles c c :=
  ⟨id, fun _ => Finset.Subset.refl _⟩

theorem Dwindles.trans (h : Dwindles c d) (h' : Dwindles d e) : Dwindles c e :=
  ⟨h'.furnished ∘ h.furnished, fun users => (h'.counted users).trans (h.counted users)⟩

theorem Dwindles.bounded (h : Dwindles c d) (hc : c.Bounded q) : d.Bounded q :=
  ⟨h.furnished hc.furnished, fun users limit hcaps =>
    (Finset.card_le_card (h.counted users)).trans (hc.keeps users limit hcaps)⟩

end Catalog

namespace Syncer

open Effect Catalog

variable {y : Syncer} {q : Quota} {svc : Service} {r : Repo} {items : List Item} {allowed : Bool}
  {w w' : World}

instance : Asks (OnFurnished Dwindles) :=
  asks_onFurnished .refl .trans fun hs h => h.furnished hs

theorem dwindles_closing (y : Syncer) {svc : Service} (hid : svc.id ≠ 0) (least : Duration)
    (s : Stream) : Within (OnFurnished Dwindles) (y.closing svc least s) :=
  onFurnished_closing .refl
    (fun _ hswept => ⟨fun hs => hs.of_sameSetting hswept.setting, hswept.userAdded_subset⟩)
    (fun hvisited => ⟨fun _ => hvisited.furnished,
      fun users => (userAdded_of_members hvisited.members users).subset⟩) y hid least s

/-- A repository that is brought up for a service, and the world in which it is. -/
structure Attempt where
  svc : Service
  repo : Repo
  world : World

namespace Attempt

def before (a : Attempt) : Catalog :=
  a.world.store.catalog

def after (a : Attempt) (y : Syncer) : Catalog :=
  (y.sync a.svc a.repo a.world).2.store.catalog

end Attempt

theorem sync_bounded (hw : w.store.catalog.Bounded q) (hq : y.quota = q)
    (hmodest : Modest q w.store.catalog (y.sync svc r w).2.store.catalog) :
    (y.sync svc r w).2.store.catalog.Bounded q := by
  refine ⟨?_, ?_⟩
  · exact hw.furnished.of_sameSetting
      (within_sync_givesNobodyElse y svc r w hw.furnished).setting
  · subst hq
    exact ((sync_adds hw.furnished y svc r).keeps_iff hw.keeps).mpr hmodest

/-- What one item of a stream brings up. -/
def offered (svc : Service) (allowed : Bool) (w : World) : Item → List Attempt
  | .ok r => if r.isPrivate && !allowed then [] else [⟨svc, r, w⟩]
  | .error _ => []

/-- What the items of a stream bring up one after the other, until it is stopped. -/
def streamed (y : Syncer) (svc : Service) (allowed : Bool) : Stream → List Item → List Attempt
  | _, [] => []
  | s, item :: items =>
    if s.world.isCancelled then []
    else
      let (t, goesOn) := y.takeItem svc allowed s item
      offered svc allowed s.world item ++ if goesOn then streamed y svc allowed t items else []

theorem takeItem_offered (y : Syncer) (svc : Service) (allowed : Bool) (s : Stream) (item : Item) :
    (offered svc allowed s.world item = [] ∧
        (y.takeItem svc allowed s item).1.world = s.world) ∨
      ∃ a, offered svc allowed s.world item = [a] ∧ a.world = s.world ∧
        (y.takeItem svc allowed s item).1.world.store.catalog = a.after y := by
  cases item with
  | error e =>
      refine .inl ⟨rfl, ?_⟩
      unfold takeItem
      simp only [world_refuse]
  | ok r =>
      unfold offered takeItem
      simp only []
      split
      · exact .inl ⟨rfl, rfl⟩
      · refine .inr ⟨⟨svc, r, s.world⟩, rfl, rfl, ?_⟩
        change (Stream.note { s with world := (y.sync svc r s.world).2 }
          (y.sync svc r s.world).1).1.world.store.catalog = _
        rw [world_note]
        rfl

theorem streamed_cons {s : Stream} (hgoing : s.world.isCancelled = false) (item : Item)
    (items : List Item) : y.streamed svc allowed s (item :: items) =
      offered svc allowed s.world item ++
        if (y.takeItem svc allowed s item).2 then
          y.streamed svc allowed (y.takeItem svc allowed s item).1 items else [] := by
  rw [streamed, hgoing]
  rfl

/-- Attempts that follow each other, from one catalog to another. -/
inductive Linked (y : Syncer) : Catalog → List Attempt → Catalog → Prop where
  | done (c : Catalog) : Linked y c [] c
  | next {a : Attempt} {as : List Attempt} {d : Catalog} :
      Linked y (a.after y) as d → Linked y a.before (a :: as) d

theorem Linked.take {earlier later : List Attempt} {a : Attempt} {c d : Catalog}
    (h : Linked y c (earlier ++ a :: later) d) : Linked y c earlier a.before := by
  induction earlier generalizing c with
  | nil =>
      cases h with
      | next _ => exact .done _
  | cons b earlier ih =>
      cases h with
      | next hrest => exact .next (ih hrest)

theorem Linked.bounded {as : List Attempt} {c d : Catalog} (h : Linked y c as d)
    (hc : c.Bounded q) (hq : y.quota = q) (hmodest : ∀ a ∈ as, Modest q a.before (a.after y)) :
    d.Bounded q := by
  induction h with
  | done c => exact hc
  | @next a as d _ ih =>
      exact ih (sync_bounded hc hq (hmodest a List.mem_cons_self))
        fun b hb => hmodest b (List.mem_cons_of_mem a hb)

/-- The catalog at the end of a stream comes of what its items brought up. -/
theorem streamed_linked (y : Syncer) (svc : Service) (allowed : Bool) (items : List Item)
    (s : Stream) : Linked y s.world.store.catalog (y.streamed svc allowed s items)
      ((y.streamReader svc allowed).readAll s items).1.world.store.catalog := by
  induction items generalizing s with
  | nil =>
      unfold Reader.readAll
      split <;> exact .done _
  | cons item items ih =>
      cases hc : s.world.isCancelled with
      | true =>
          rw [Reader.readAll_of_cancelled (by exact hc), streamed, if_pos hc]
          exact .done _
      | false =>
          let t := (y.takeItem svc allowed s item).1
          have hrest : ∀ goesOn : Bool, Linked y t.world.store.catalog
              (if goesOn then y.streamed svc allowed t items else [])
              (if goesOn then (y.streamReader svc allowed).readAll t items
                else (t, .stopped)).1.world.store.catalog := by
            intro goesOn
            cases goesOn with
            | true => exact ih t
            | false => exact .done _
          rw [Reader.readAll_cons (Bool.eq_false_iff.mp hc), streamed_cons hc]
          rcases takeItem_offered y svc allowed s item with ⟨hnone, hsame⟩ | ⟨a, ha, hworld, hafter⟩
          · rw [hnone, List.nil_append, ← hsame]
            exact hrest _
          · rw [ha, List.singleton_append, ← hworld]
            exact .next (hafter ▸ hrest _)

/-- What a streaming pass over a service asks before it reads: which service it is, whether it may
hold private repositories, and what its source sends. -/
def opening (y : Syncer) (id : Int) : Pass (Service × Bool × List Item) := do
  let svc ← Effect.store "fetching external service" .getService (Store.getService id)
  let allowed ← y.allowsPrivate svc
  let items ← y.itemsOf svc
  return (svc, allowed, items)

/-- What a task brings up, one repository after the other. -/
def attempts (y : Syncer) (w : World) : Task → List Attempt
  | .visit id _ =>
    if Relay.widest < y.settings.channelCapacity then []
    else match y.opening id w with
      | (.ok (svc, allowed, items), v) => y.streamed svc allowed (Stream.start v) items
      | (.error _, _) => []
  | .sync svc r => [⟨svc, r, w⟩]
  | .syncRepo r => match cloudDefault r.spec.serviceType w with
    | (.ok svc, v) => [⟨svc, r, v⟩]
    | (.error _, _) => []

/-- The passes that the syncer makes over services are streaming passes. -/
def Streams (y : Syncer) : Task → Prop
  | .visit _ _ => y.isStreaming = true
  | _ => True

theorem still_opening (y : Syncer) (id : Int) : Within SameStore (y.opening id) :=
  Within.bind (still_store (Store.still_getService id)) fun svc =>
    Within.bind (asks_allowsPrivate y svc) fun _ =>
      Within.bind (asks_itemsOf y svc) fun _ => Within.pure _

theorem opening_ok (hs : w.store.catalog.Furnished) {id : Int}
    (h : y.opening id w = (.ok (svc, allowed, items), w')) : svc.id ≠ 0 := by
  obtain ⟨svc', v, hget, h⟩ := bind_ok_iff.mp h
  obtain ⟨allowed', v', -, h⟩ := bind_ok_iff.mp h
  obtain ⟨items', v'', -, hend⟩ := bind_ok_iff.mp h
  cases hend
  obtain ⟨hsvc, -, -⟩ := Store.getService_ok hs (store_ok hget)
  exact Int.ne_of_gt (hsvc.range hs).1

theorem visit_eq (hstreaming : y.isStreaming = true)
    (hfits : ¬Relay.widest < y.settings.channelCapacity) (id : Int) (least : Duration) :
    y.perform (.visit id least) = (do
      let (svc, allowed, items) ← y.opening id
      let s ← y.readStream svc allowed items
      y.closing svc least s) := by
  unfold perform syncService opening
  simp only [hfits, if_false, hstreaming, if_true, stream_eq, bind_assoc, pure_bind]

theorem still_visit (hwide : Relay.widest < y.settings.channelCapacity) (id : Int)
    (least : Duration) : Within SameStore (y.perform (.visit id least)) := by
  unfold perform syncService
  simp only [hwide, if_true]
  exact Within.bind (still_store (Store.still_getService id)) fun svc => asks_unopened y svc

/-- The catalog at the end of a streaming pass or a call comes of what was brought up, but for what
the service has lost in the end. -/
theorem attempts_linked (hs : w.store.catalog.Furnished) {task : Task} (hstreams : y.Streams task) :
    ∃ v : World, Linked y w.store.catalog (y.attempts w task) v.store.catalog ∧
      OnFurnished Dwindles v (y.perform task w).2 := by
  cases task with
  | sync svc r =>
      refine ⟨(y.sync svc r w).2, .next (a := ⟨svc, r, w⟩) (.done _), ?_⟩
      rw [snd_perform_sync]
      exact .of_store .refl rfl
  | syncRepo r =>
      unfold attempts
      simp only []
      rcases syncRepo_cases y r w with ⟨e, v, hrun, hsame, hend⟩ | ⟨svc, v, hrun, hsame, hend⟩
      · rw [hrun, hend]
        exact ⟨w, .done _, .of_store .refl hsame⟩
      · rw [hrun, hend, ← congrArg Store.catalog hsame]
        exact ⟨(y.sync svc r v).2, .next (a := ⟨svc, r, v⟩) (.done _), .of_store .refl rfl⟩
  | visit id least =>
      unfold attempts
      simp only []
      by_cases hwide : Relay.widest < y.settings.channelCapacity
      · rw [if_pos hwide]
        exact ⟨w, .done _, .of_store .refl (still_visit hwide id least w)⟩
      rw [visit_eq hstreams hwide, if_neg hwide, run_bind]
      have hstill := still_opening y id w
      cases hrun : y.opening id w with
      | mk result v =>
          rw [hrun] at hstill
          cases result with
          | error e => exact ⟨w, .done _, .of_store .refl hstill⟩
          | ok found =>
              obtain ⟨svc, allowed, items⟩ := found
              have hcatalog : w.store.catalog = v.store.catalog :=
                congrArg Store.catalog (Eq.symm hstill)
              rw [hcatalog]
              refine ⟨_, streamed_linked y svc allowed items (Stream.start v), ?_⟩
              rw [← snd_readStream]
              simp only []
              rw [run_bind]
              cases y.readStream svc allowed items v with
              | mk outcome u =>
                  cases outcome with
                  | error e => exact .of_store .refl rfl
                  | ok s => exact dwindles_closing y (opening_ok hs hrun) least s u

end Syncer

namespace Catalog

open Effect Syncer

variable {q : Quota} {c : Catalog}

/-- A catalog that streaming passes and calls for single repositories reach from an empty one under
fixed ceilings, while each repository that is brought up changes the catalog as `p` says. Services,
users and jobs may change in between, and the catalog may be looked at in the middle of a pass. -/
inductive Ran (q : Quota) (p : Catalog → Catalog → Prop) : Catalog → Prop where
  | start {c : Catalog} : c.repos = .empty → c.members = ∅ → c.Furnished → Ran q p c
  | elsewhere {c d : Catalog} :
      Ran q p c → d.repos = c.repos → d.members = c.members → d.Furnished → Ran q p d
  | amid {w : World} {y : Syncer} {task : Task} {earlier later : List Attempt} {a : Attempt} :
      Ran q p w.store.catalog → y.quota = q → y.Streams task →
      y.attempts w task = earlier ++ a :: later → (∀ b ∈ earlier, p b.before (b.after y)) →
        Ran q p a.before
  | done {w : World} (y : Syncer) (task : Task) :
      Ran q p w.store.catalog → y.quota = q → y.Streams task →
      (∀ a ∈ y.attempts w task, p a.before (a.after y)) →
        Ran q p (y.perform task w).2.store.catalog

theorem Ran.bounded (h : Ran q (Modest q) c) : c.Bounded q := by
  induction h with
  | start _ hmembers hc =>
      refine ⟨hc, fun users limit _ => ?_⟩
      rw [userAdded_of_empty hmembers]
      exact Nat.zero_le limit
  | elsewhere _ _ hmembers hd ih =>
      refine ⟨hd, fun users limit hcaps => ?_⟩
      rw [userAdded_of_members hmembers]
      exact ih.keeps users limit hcaps
  | amid _ hq hstreams hsplit hmodest ih =>
      obtain ⟨v, hlinked, -⟩ := attempts_linked ih.furnished hstreams
      rw [hsplit] at hlinked
      exact hlinked.take.bounded ih hq hmodest
  | done y task _ hq hstreams hmodest ih =>
      obtain ⟨v, hlinked, hdwindles⟩ := attempts_linked ih.furnished hstreams
      have hv := hlinked.bounded ih hq hmodest
      exact (hdwindles hv.furnished).bounded hv

/-- Services of the site claim nothing past a ceiling, and services of users nothing for others. -/
theorem owner_of_overclaims {w : World} (hs : w.store.catalog.Furnished) {y : Syncer}
    {svc : Service} {r : Repo} {users : List Int} {limit : Nat}
    (h : Overclaims users limit w.store.catalog (y.sync svc r w).2.store.catalog) :
    ∃ u, svc.owner? = some u ∧ (users = [] ∨ u ∈ users) := by
  obtain ⟨j, row, -, hold, hnew, -⟩ := h
  exact (sync_adds hs y svc r).owner users j hnew hold

end Catalog

namespace Sample

/-- A service of the only user, who has the id 1. -/
def own : Service :=
  { Service.fresh .gitHub "own" with
    id := 2, namespaceUserId := some 1, createdAt := some ⟨0⟩, updatedAt := some ⟨0⟩ }

/-- A store that holds the host, the user and the service of the user. -/
def owned : World :=
  let s := (Store.addUser ⟨"user", false⟩ base.store).2
  let svc := { Service.fresh .gitHub "own" with namespaceUserId := some 1 }
  { base with store := (Store.putService svc s).2 }

def ownEntry (id name : String) : Repo :=
  { entry id name with claims := .solo own.urn name }

/-- Whoever makes streaming passes where each user may add one repository. -/
def strict (items : List Item) : Syncer :=
  { syncer items with
    settings := { (syncer items).settings with userReposMaxPerUser := 1 }, isStreaming := true }

def ownItems : List Item :=
  [.ok (ownEntry "1" "alpha"), .ok (ownEntry "2" "beta")]

/-- The store of the user once the host has listed the same repositories. -/
def hosted : World :=
  ((strict [.ok (entry "1" "alpha"), .ok (entry "2" "beta")]).perform (.visit 1 ⟨0⟩) owned).2

theorem furnished_owned : owned.store.catalog.Furnished := by
  refine Catalog.furnished_of_rows (fun t => by cases t <;> rfl) ?_
  unfold Urn.InRange
  decide +kernel

end Sample

namespace Catalog

open Effect Syncer

/-- As long as no row that was in the catalog is claimed past a ceiling, what the store counts
passes no ceiling, neither after a pass or a call nor in between; and the next repository that is
brought up passes one if and only if it is such a claim. -/
theorem ceilings_kept {q : Quota} {c : Catalog} (h : Ran q (Modest q) c) :
    (∀ s : Store, s.catalog = c → s.Keeps q) ∧
      ∀ (y : Syncer) (svc : Service) (r : Repo) (w : World), w.store.catalog = c → y.quota = q →
        ((y.sync svc r w).2.store.Keeps q ↔ Modest q c (y.sync svc r w).2.store.catalog) := by
  have hc := h.bounded
  refine ⟨fun s hs => ?_, fun y svc r w hw hq => ?_⟩
  · subst hs
    exact (Store.keeps_iff hc.furnished.tables).mpr hc.keeps
  · subst hw hq
    have hafter := hc.furnished.of_sameSetting
      (within_sync_givesNobodyElse y svc r w hc.furnished).setting
    rw [Store.keeps_iff hafter.tables]
    exact (sync_adds hc.furnished y svc r).keeps_iff hc.keeps

/-- Of two repositories that the service of the user lists, the second one is refused. -/
theorem ceilings_kept_refusing :
    let q : Quota := ⟨1, 10⟩
    let y := Sample.strict Sample.ownItems
    let s := (y.perform (.visit 2 ⟨0⟩) Sample.owned).2.store
    Ran q (Modest q) s.catalog ∧ (y.attempts Sample.owned (.visit 2 ⟨0⟩)).length = 2 ∧
      s.Keeps q ∧ Store.countUserAdded [1] s = (.ok 1, s) := by
  intro q y s
  have hran : Ran q (Modest q) s.catalog := by
    refine .done y _ (.start rfl rfl Sample.furnished_owned) rfl rfl fun a ha => ?_
    have hstep : ∀ a ∈ y.attempts Sample.owned (.visit 2 ⟨0⟩),
        a.before.repos.toList = [] ∨ (a.after y).members.entries = a.before.members.entries := by
      decide +kernel
    rcases hstep a ha with hempty | hsame
    · refine .of_no_rows _ _ fun j => Option.eq_none_iff_forall_ne_some.mpr fun row hrow => ?_
      have hmem := Table.get?_eq_some_iff.mp hrow
      rw [hempty] at hmem
      cases hmem
    · refine .of_subset _ fun users => ?_
      unfold userAdded
      rw [hsame]
  have hcount : (s.catalog.userAdded [1]).card = 1 := by decide +kernel
  refine ⟨hran, by decide +kernel, (ceilings_kept hran).1 s rfl, ?_⟩
  rw [Store.run_countUserAdded hran.bounded.furnished.tables, hcount]

/-- The host holds two repositories already when the user's service lists them: both are claimed,
and the user is past the ceiling. -/
theorem ceiling_passed_by_claims :
    let q : Quota := ⟨1, 10⟩
    let s := ((Sample.strict Sample.ownItems).perform (.visit 2 ⟨0⟩) Sample.hosted).2.store
    Ran q (fun _ _ => True) s.catalog ∧ Store.countUserAdded [1] s = (.ok 2, s) ∧ ¬s.Keeps q := by
  intro q s
  have hstart : Ran q (fun _ _ => True) Sample.owned.store.catalog :=
    .start rfl rfl Sample.furnished_owned
  have hhosted : Ran q (fun _ _ => True) Sample.hosted.store.catalog :=
    .done (Sample.strict _) _ hstart rfl rfl fun _ _ => trivial
  have hran : Ran q (fun _ _ => True) s.catalog :=
    .done (Sample.strict Sample.ownItems) _ hhosted rfl rfl fun _ _ => trivial
  have htables : s.catalog.Complete := by
    intro t
    cases t <;> decide +kernel
  have hcount : (s.catalog.userAdded [1]).card = 2 := by decide +kernel
  refine ⟨hran, ?_, fun hkeeps => ?_⟩
  · rw [Store.run_countUserAdded htables, hcount]
  · have hle := (Store.keeps_iff htables).mp hkeeps [1] q.perUser (.user 1)
    rw [hcount] at hle
    exact absurd hle (by decide)

end Catalog

end RepoCatalog
