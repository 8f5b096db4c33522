import RepoCatalog.Proofs.Dict
import RepoCatalog.Proofs.Urn
import RepoCatalog.Store.Repos

/-!
# Views of the catalog

What a catalog holds is seen through look-ups of rows by id and of memberships by repository and
service. Here is what every change of a catalog does to these look-ups, and how the claims on a
repository are read off the memberships.
-/
namespace RepoCatalog

open Time (Instant)

namespace Table

variable {α : Type}

theorem get?_empty (id : Int) : (empty : Table α).get? id = none := rfl

theorem get?_append (t : Table α) (row : α) (id : Int) :
    (t.append row).get? id = if id = t.nextId then some row else t.get? id :=
  Dict.get?_insert t.rows id t.nextId row

theorem get?_map (t : Table α) (f : Int → α → α) (id : Int) :
    (t.map f).get? id = (t.get? id).map (f id) :=
  Dict.get?_mapEntries f t.rows id

theorem get?_modify (t : Table α) (k id : Int) (f : α → α) :
    (t.modify k f).get? id = if id = k then (t.get? id).map f else t.get? id := by
  unfold modify
  rw [get?_map]
  by_cases h : id = k
  · simp only [h, if_true]
  · simp only [h, if_false, Option.map_id']

theorem get?_nextId (t : Table α) : t.get? t.nextId = none := by
  cases h : t.get? t.nextId with
  | none => rfl
  | some row => exact absurd rfl (ne_nextId (get?_eq_some_iff.mp h))

theorem get?_of_toList_nil {t : Table α} (h : t.toList = []) (id : Int) : t.get? id = none := by
  refine Option.eq_none_iff_forall_ne_some.mpr fun row hrow => ?_
  have hmem := get?_eq_some_iff.mp hrow
  rw [h] at hmem
  cases hmem

theorem contains_eq (t : Table α) (id : Int) : t.contains id = (t.get? id).isSome := rfl

end Table

namespace Catalog

theorem spec_inj {c : Catalog} {i j : Int} {a b : RepoRow} (ha : c.repos.get? i = some a)
    (hb : c.repos.get? j = some b) (h : a.spec = b.spec) : i = j :=
  c.sound.specs (i, a) (Table.get?_eq_some_iff.mp ha) (j, b) (Table.get?_eq_some_iff.mp hb) h

theorem nameKey_inj {c : Catalog} {i j : Int} {a b : RepoRow} (ha : c.repos.get? i = some a)
    (hb : c.repos.get? j = some b) (hla : a.isLive = true) (hlb : b.isLive = true)
    (h : a.nameKey = b.nameKey) : i = j :=
  c.sound.names (i, a) (Table.get?_eq_some_iff.mp ha) (j, b) (Table.get?_eq_some_iff.mp hb) hla hlb
    h

theorem ends_of_member {c : Catalog} {k : MemberKey} {m : Membership}
    (h : c.members.get? k = some m) : c.hasEnds k = true :=
  c.sound.ends (k, m) (Dict.get?_eq_some_iff.mp h)

theorem service_of_member {c : Catalog} {k : MemberKey} {m : Membership}
    (h : c.members.get? k = some m) : ∃ row, c.services.get? k.service = some row := by
  have hends := ends_of_member h
  unfold Tables.hasEnds at hends
  rw [Bool.and_eq_true, Table.contains_eq, Table.contains_eq] at hends
  exact Option.isSome_iff_exists.mp hends.1

theorem repo_of_member {c : Catalog} {k : MemberKey} {m : Membership}
    (h : c.members.get? k = some m) : ∃ row, c.repos.get? k.repo = some row := by
  have hends := ends_of_member h
  unfold Tables.hasEnds at hends
  rw [Bool.and_eq_true, Table.contains_eq, Table.contains_eq] at hends
  exact Option.isSome_iff_exists.mp hends.2

theorem isClaimed_iff {c : Catalog} {repo : Int} :
    c.isClaimed repo = true ↔ ∃ s m, c.members.get? ⟨repo, s⟩ = some m := by
  unfold isClaimed
  simp only [List.any_eq_true, beq_iff_eq, Prod.exists, Dict.get?_eq_some_iff]
  constructor
  · rintro ⟨⟨repo, s⟩, m, hmem, rfl⟩
    exact ⟨s, m, hmem⟩
  · rintro ⟨s, m, hmem⟩
    exact ⟨⟨repo, s⟩, m, hmem, rfl⟩

def Complete (c : Catalog) : Prop :=
  ∀ t, c.hasTable t = true

/-- All tables exist, the kind of every service is known, and services have ids that count up from
one and can be read back. -/
structure Furnished (c : Catalog) : Prop where
  tables : c.Complete
  kinds : ∀ id row, c.services.get? id = some row → (Kind.ofName? row.kindName).isSome = true
  ids : ∀ id row, c.services.get? id = some row → 0 < id ∧ Urn.InRange id

/-- The same tables exist, with the same users, services and jobs. -/
structure SameSetting (c d : Catalog) : Prop where
  version : d.version = c.version
  users : d.users = c.users
  services : d.services = c.services
  jobs : d.jobs = c.jobs

theorem SameSetting.refl (c : Catalog) : SameSetting c c :=
  ⟨rfl, rfl, rfl, rfl⟩

theorem SameSetting.trans {c d e : Catalog} (h : SameSetting c d) (h' : SameSetting d e) :
    SameSetting c e :=
  ⟨h'.version.trans h.version, h'.users.trans h.users, h'.services.trans h.services,
    h'.jobs.trans h.jobs⟩

theorem Complete.of_version {c d : Catalog} (hc : c.Complete) (h : d.version = c.version) :
    d.Complete := by
  intro t
  have htable := hc t
  unfold hasTable at htable ⊢
  rw [h]
  exact htable

theorem Furnished.of_sameSetting {c d : Catalog} (hc : c.Furnished) (h : SameSetting c d) :
    d.Furnished := by
  constructor
  · exact hc.tables.of_version h.version
  · intro id row hrow
    rw [h.services] at hrow
    exact hc.kinds id row hrow
  · intro id row hrow
    rw [h.services] at hrow
    exact hc.ids id row hrow

theorem repoFault?_eq_none_iff {c : Catalog} {id : Int} {row : RepoRow} :
    c.repoFault? id row = none ↔
      (∀ j other, c.repos.get? j = some other → other.spec = row.spec → j = id) ∧
        (row.isLive = true → ∀ j other, c.repos.get? j = some other → other.isLive = true →
          other.nameKey = row.nameKey → j = id) := by
  constructor
  · intro h
    obtain ⟨hspecs, hnames⟩ := repoFault?_eq_none h
    constructor
    · intro j other hother
      exact hspecs (j, other) (Table.get?_eq_some_iff.mp hother)
    · intro hlive j other hother
      exact hnames (j, other) (Table.get?_eq_some_iff.mp hother) hlive
  · rintro ⟨hspecs, hnames⟩
    have hname : ¬(row.isLive && c.nameIsTaken id row) = true := by
      intro h
      rw [Bool.and_eq_true] at h
      obtain ⟨hlive, htaken⟩ := h
      obtain ⟨e, he, hprops⟩ := List.any_eq_true.mp htaken
      simp only [Bool.and_eq_true, bne_iff_ne, beq_iff_eq] at hprops
      exact hprops.1.1 (hnames hlive e.1 e.2 (Table.get?_eq_some_iff.mpr he) hprops.1.2 hprops.2)
    have hspec : ¬c.specIsTaken id row = true := by
      intro htaken
      obtain ⟨e, he, hprops⟩ := List.any_eq_true.mp htaken
      simp only [Bool.and_eq_true, bne_iff_ne, beq_iff_eq] at hprops
      exact hprops.1 (hspecs e.1 e.2 (Table.get?_eq_some_iff.mpr he) hprops.2)
    unfold repoFault?
    rw [if_neg hname, if_neg hspec]

theorem addRepo_cases (c : Catalog) (row : RepoRow) :
    (∃ fault, c.repoFault? c.repos.nextId row = some fault ∧ c.addRepo row = refuse fault) ∨
      (c.repoFault? c.repos.nextId row = none ∧ ∃ d, c.addRepo row = .ok (c.repos.nextId, d) ∧
        SameSetting c d ∧ d.members = c.members ∧ d.repos = c.repos.append row) := by
  unfold addRepo
  split
  · rename_i fault h
    exact .inl ⟨fault, h, rfl⟩
  · rename_i h
    exact .inr ⟨h, _, rfl, ⟨rfl, rfl, rfl, rfl⟩, rfl, rfl⟩

theorem replaceRepo_cases {c : Catalog} {id : Int} (row : RepoRow)
    (hid : c.repos.contains id = true) :
    (∃ fault, c.repoFault? id row = some fault ∧ c.replaceRepo id row = refuse fault) ∨
      (c.repoFault? id row = none ∧ ∃ d, c.replaceRepo id row = .ok ((), d) ∧
        SameSetting c d ∧ d.members = c.members ∧ d.repos = c.repos.modify id fun _ => row) := by
  unfold replaceRepo
  rw [if_pos hid]
  split
  · rename_i fault h
    exact .inl ⟨fault, h, rfl⟩
  · rename_i h
    exact .inr ⟨h, _, rfl, ⟨rfl, rfl, rfl, rfl⟩, rfl, rfl⟩

/-- What the catalog `d` holds once a service in `c` was written again. -/
structure Visited (c d : Catalog) : Prop where
  furnished : d.Furnished
  repos : d.repos = c.repos
  members : d.members = c.members
  users : d.users = c.users
  jobs : d.jobs = c.jobs

theorem Visited.refl {c : Catalog} (hc : c.Furnished) : Visited c c :=
  ⟨hc, rfl, rfl, rfl, rfl⟩

theorem Visited.trans {c d e : Catalog} (h : Visited c d) (h' : Visited d e) : Visited c e :=
  ⟨h'.furnished, h'.repos.trans h.repos, h'.members.trans h.members, h'.users.trans h.users,
    h'.jobs.trans h.jobs⟩

theorem changeService_ok {c d : Catalog} (hc : c.Furnished) {id : Int}
    {f : ServiceRow → ServiceRow} {u : Unit} (h : c.changeService id f = .ok (u, d))
    (hkind : ∀ row, (Kind.ofName? (f row).kindName).isSome = true) : Visited c d := by
  unfold changeService at h
  split at h
  · cases h
  · rename_i row hrow
    split at h
    · cases h
      have hget : ∀ j new, (c.services.modify id fun _ => f row).get? j = some new →
          ∃ old, c.services.get? j = some old ∧ (new = old ∨ new = f row) := by
        intro j new hnew
        rw [Table.get?_modify] at hnew
        split at hnew
        · obtain ⟨old, hold, rfl⟩ := Option.map_eq_some_iff.mp hnew
          exact ⟨old, hold, .inr rfl⟩
        · exact ⟨new, hnew, .inl rfl⟩
      refine ⟨⟨hc.tables, ?_, ?_⟩, rfl, rfl, rfl, rfl⟩
      · intro j new hnew
        obtain ⟨old, hold, rfl | rfl⟩ := hget j new hnew
        · exact hc.kinds j new hold
        · exact hkind row
      · intro j new hnew
        obtain ⟨old, hold, -⟩ := hget j new hnew
        exact hc.ids j old hold
    · cases h

theorem putMember_of_ends {c : Catalog} {k : MemberKey} (m : Membership)
    (h : c.hasEnds k = true) :
    ∃ d, c.putMember k m = .ok ((), d) ∧ SameSetting c d ∧ d.repos = c.repos ∧
      d.members = c.members.insert k m := by
  unfold putMember
  rw [dif_pos h]
  exact ⟨_, rfl, ⟨rfl, rfl, rfl, rfl⟩, rfl, rfl⟩

theorem putMember_ok {c d : Catalog} {k : MemberKey} {m : Membership} {u : Unit}
    (h : c.putMember k m = .ok (u, d)) :
    SameSetting c d ∧ d.repos = c.repos ∧ d.members = c.members.insert k m := by
  unfold putMember at h
  split at h
  · cases h
    exact ⟨⟨rfl, rfl, rfl, rfl⟩, rfl, rfl⟩
  · cases h

theorem bury_bury (now now' : Instant) (row : RepoRow) :
    bury now (bury now' row) = bury now' row := by
  rw [bury, if_neg (Bool.eq_false_iff.mp (not_isLive_bury now' row))]

theorem get?_buryRepos (c : Catalog) (now : Instant) (p : Int → Bool) (id : Int) :
    (c.buryRepos now p).repos.get? id =
      (c.repos.get? id).map fun row => if p id then bury now row else row :=
  Table.get?_map c.repos _ id

theorem members_buryRepos (c : Catalog) (now : Instant) (p : Int → Bool) :
    (c.buryRepos now p).members = c.members := rfl

theorem sameSetting_buryRepos (c : Catalog) (now : Instant) (p : Int → Bool) :
    SameSetting c (c.buryRepos now p) := ⟨rfl, rfl, rfl, rfl⟩

theorem get?_dropMembers (c : Catalog) (p : MemberKey → Bool) (k : MemberKey) :
    (c.dropMembers p).members.get? k = if p k then none else c.members.get? k := by
  have h := Dict.get?_filterKeys c.members (fun k => !p k) k
  change (c.members.filterKeys fun k => !p k).get? k = _
  rw [h]
  cases p k <;> rfl

theorem repos_dropMembers (c : Catalog) (p : MemberKey → Bool) :
    (c.dropMembers p).repos = c.repos := rfl

theorem sameSetting_dropMembers (c : Catalog) (p : MemberKey → Bool) :
    SameSetting c (c.dropMembers p) := ⟨rfl, rfl, rfl, rfl⟩

/-- The kinds of the services, as far as they are known. -/
def kindOf? (c : Catalog) (service : Int) : Option Kind :=
  (c.services.get? service).bind fun row => Kind.ofName? row.kindName

theorem Furnished.kindOf?_isSome {c : Catalog} (hc : c.Furnished) {k : MemberKey} {m : Membership}
    (h : c.members.get? k = some m) : ∃ kind, c.kindOf? k.service = some kind := by
  obtain ⟨row, hrow⟩ := service_of_member h
  obtain ⟨kind, hkind⟩ := Option.isSome_iff_exists.mp (hc.kinds _ _ hrow)
  refine ⟨kind, ?_⟩
  unfold kindOf?
  rw [hrow, Option.bind_some, hkind]

/-- The kinds of all services that hold the repository are known. -/
def KindsKnown (c : Catalog) (repo : Int) : Prop :=
  ∀ s m, c.members.get? ⟨repo, s⟩ = some m → ∃ kind, c.kindOf? s = some kind

theorem Furnished.kindsKnown {c : Catalog} (hc : c.Furnished) (repo : Int) : c.KindsKnown repo :=
  fun _ _ h => hc.kindOf?_isSome h

/-- The claims on a repository: one for each of its memberships. -/
def claimsOn (c : Catalog) (repo : Int) : Claims :=
  .ofList ((c.members.entries.filter fun e => e.1.repo == repo).filterMap fun e =>
    (c.kindOf? e.1.service).map fun kind =>
      (Urn.format kind e.1.service, ⟨Urn.format kind e.1.service, e.2.cloneUrl⟩))

def view (c : Catalog) (e : Int × RepoRow) : Repo :=
  e.2.toRepo e.1 (c.claimsOn e.1)

theorem get?_claimsOn {c : Catalog} {repo : Int} {urn : String} {claim : Claim} :
    (c.claimsOn repo).get? urn = some claim ↔
      ∃ s m kind, c.members.get? ⟨repo, s⟩ = some m ∧ c.kindOf? s = some kind ∧
        urn = Urn.format kind s ∧ claim = ⟨urn, m.cloneUrl⟩ := by
  have hentry : ∀ urn claim, (urn, claim) ∈
      ((c.members.entries.filter fun e => e.1.repo == repo).filterMap fun e =>
        (c.kindOf? e.1.service).map fun kind =>
          (Urn.format kind e.1.service, (⟨Urn.format kind e.1.service, e.2.cloneUrl⟩ : Claim))) ↔
      ∃ s m kind, c.members.get? ⟨repo, s⟩ = some m ∧ c.kindOf? s = some kind ∧
        urn = Urn.format kind s ∧ claim = ⟨urn, m.cloneUrl⟩ := by
    intro urn claim
    simp only [List.mem_filterMap, List.mem_filter, beq_iff_eq, Option.map_eq_some_iff,
      Prod.mk.injEq, Prod.exists, Dict.get?_eq_some_iff]
    constructor
    · rintro ⟨⟨_, s⟩, m, ⟨hmem, rfl⟩, kind, hkind, rfl, rfl⟩
      exact ⟨s, m, kind, hmem, hkind, rfl, rfl⟩
    · rintro ⟨s, m, kind, hmem, hkind, rfl, rfl⟩
      exact ⟨⟨repo, s⟩, m, ⟨hmem, rfl⟩, kind, hkind, rfl, rfl⟩
  rw [← hentry]
  constructor
  · exact Dict.mem_of_get?_ofList
  · intro h
    refine Dict.get?_ofList_of_mem h fun other hother => ?_
    obtain ⟨s, m, kind, hmem, hkind, hurn, rfl⟩ := (hentry urn claim).mp h
    obtain ⟨s', m', kind', hmem', hkind', hurn', rfl⟩ := (hentry urn other).mp hother
    obtain rfl := Urn.format_id_inj (hurn.symm.trans hurn')
    rw [hmem] at hmem'
    cases hmem'
    rfl

end Catalog

end RepoCatalog
