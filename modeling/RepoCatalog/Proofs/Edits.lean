import RepoCatalog.Proofs.StoreRun

/-!
# Edits of memberships

What the edits of a difference list under an id, and what becomes of the memberships when edits are
carried out: a membership that is deleted goes, and the last claim that is stored under its key
counts.
-/
namespace RepoCatalog

namespace ClaimEdits

variable {old new : Claims} {claim : Claim}

theorem mem_added : claim ∈ (between old new).added ↔
    ∃ urn, new.get? urn = some claim ∧ old.get? urn = none := by
  unfold between
  simp only [List.mem_map, List.mem_filter, Prod.exists, Dict.get?_eq_some_iff, Dict.contains,
    Bool.not_eq_true', Option.isSome_eq_false_iff, Option.isNone_iff_eq_none]
  constructor
  · rintro ⟨urn, _, ⟨hnew, hold⟩, rfl⟩
    exact ⟨urn, hnew, hold⟩
  · rintro ⟨urn, hnew, hold⟩
    exact ⟨urn, claim, ⟨hnew, hold⟩, rfl⟩

theorem mem_modified : claim ∈ (between old new).modified ↔
    ∃ urn first, old.get? urn = some first ∧ new.get? urn = some claim ∧
      claim.cloneUrl ≠ first.cloneUrl := by
  unfold between
  simp only [List.mem_filterMap, Prod.exists, Dict.get?_eq_some_iff, Option.filter_eq_some_iff,
    bne_iff_ne]

theorem mem_deleted : claim ∈ (between old new).deleted ↔
    ∃ urn, old.get? urn = some claim ∧ new.get? urn = none := by
  unfold between
  simp only [List.mem_map, List.mem_filter, Prod.exists, Dict.get?_eq_some_iff, Dict.contains,
    Bool.not_eq_true', Option.isSome_eq_false_iff, Option.isNone_iff_eq_none]
  constructor
  · rintro ⟨urn, _, ⟨hold, hnew⟩, rfl⟩
    exact ⟨urn, hold, hnew⟩
  · rintro ⟨urn, hold, hnew⟩
    exact ⟨urn, claim, ⟨hold, hnew⟩, rfl⟩

/-- Whether a claim is new, or says a new address. -/
def Renews (old new : Claims) (claim : Claim) : Prop :=
  ∃ urn, new.get? urn = some claim ∧
    ∀ first, old.get? urn = some first → claim.cloneUrl ≠ first.cloneUrl

theorem renews_iff : Renews old new claim ↔
    claim ∈ (between old new).added ∨ claim ∈ (between old new).modified := by
  rw [mem_added, mem_modified]
  constructor
  · rintro ⟨urn, hnew, hurl⟩
    cases hold : old.get? urn with
    | none => exact .inl ⟨urn, hnew, hold⟩
    | some first => exact .inr ⟨urn, first, hold, hnew, hurl first hold⟩
  · rintro (⟨urn, hnew, hold⟩ | ⟨urn, first, hold, hnew, hurl⟩)
    · refine ⟨urn, hnew, fun first hfirst => ?_⟩
      rw [hold] at hfirst
      cases hfirst
    · refine ⟨urn, hnew, fun first' hfirst => ?_⟩
      cases hold.symm.trans hfirst
      exact hurl

end ClaimEdits

namespace MembershipEdits

/-- The claims that are listed under an id. -/
def claimsAt (d : ClaimsByRepo) (id : Int) : List Claim :=
  (d.get? id).getD []

theorem claimsAt_append (d : ClaimsByRepo) (id : Int) (cs : List Claim) (j : Int) :
    claimsAt (append d id cs) j = if j = id then claimsAt d id ++ cs else claimsAt d j := by
  unfold append claimsAt
  by_cases hcs : cs.isEmpty = true
  · rw [if_pos hcs, List.isEmpty_iff.mp hcs, List.append_nil]
    split
    · rename_i hj
      rw [hj]
    · rfl
  · rw [if_neg hcs]
    unfold Dict.alter
    rw [Dict.get?_insert]
    split
    · rfl
    · rfl

/-- One of the three kinds of edits. -/
structure Aspect where
  part : ClaimEdits → List Claim
  listed : MembershipEdits → ClaimsByRepo
  listed_empty : listed empty = ∅
  listed_record : ∀ m id e, listed (m.record id e) = append (listed m) id (part e)

namespace Aspect

def additions : Aspect :=
  ⟨ClaimEdits.added, MembershipEdits.added, rfl, fun _ _ _ => rfl⟩

def changes : Aspect :=
  ⟨ClaimEdits.modified, MembershipEdits.modified, rfl, fun _ _ _ => rfl⟩

def deletions : Aspect :=
  ⟨ClaimEdits.deleted, MembershipEdits.deleted, rfl, fun _ _ _ => rfl⟩

end Aspect

theorem claimsAt_foldl_record (k : Aspect) (f : Repo → Option ClaimEdits) (rs : List Repo)
    (m : MembershipEdits) (id : Int) :
    claimsAt (k.listed (rs.foldl (fun m r => (f r).elim m (m.record r.id)) m)) id =
      claimsAt (k.listed m) id ++
        (rs.filter fun r => r.id == id).flatMap fun r => (f r).elim [] k.part := by
  induction rs generalizing m with
  | nil => simp
  | cons r rs ih =>
      rw [List.foldl_cons, ih]
      cases hf : f r with
      | none =>
          by_cases hid : r.id = id
          · simp [hid, hf]
          · simp [hid]
      | some e =>
          rw [Option.elim_some, k.listed_record, claimsAt_append]
          by_cases hid : r.id = id
          · simp [hid, hf]
          · simp [hid, Ne.symm hid]

/-- The last stored state with an id. -/
def known (previous : List Repo) : Dict Int Repo :=
  .ofList ((previous.filter (·.id != 0)).map fun r => (r.id, r))

theorem ofDiff_eq (d : Diff) (previous : List Repo) : ofDiff d previous =
    ((d.modified ++ d.deleted).filter (·.id != 0)).foldl
      (fun m r => (((known previous).get? r.id).map fun old =>
        ClaimEdits.between old.claims r.claims).elim m (m.record r.id))
      ((d.added.filter (·.id != 0)).foldl
        (fun m r => (some (ClaimEdits.between (((known previous).get? r.id).elim ∅ (·.claims))
          r.claims)).elim m (m.record r.id)) empty) := by
  refine congrArg (fun f => List.foldl f _ _) (funext fun m => funext fun r => ?_)
  unfold known
  cases (Dict.ofList ((previous.filter (·.id != 0)).map fun r => (r.id, r))).get? r.id with
  | none => rfl
  | some old => rfl

theorem claimsAt_ofDiff_filtered (k : Aspect) (d : Diff) (previous : List Repo) (id : Int) :
    claimsAt (k.listed (ofDiff d previous)) id =
      ((d.added.filter (·.id != 0)).filter fun r => r.id == id).flatMap (fun r =>
          k.part (.between (((known previous).get? id).elim ∅ (·.claims)) r.claims)) ++
        (((d.modified ++ d.deleted).filter (·.id != 0)).filter fun r => r.id == id).flatMap fun r =>
          ((known previous).get? id).elim [] fun old => k.part (.between old.claims r.claims) := by
  have hat : ∀ rs : List Repo, ∀ f : Repo → List Claim, ∀ g : Repo → List Claim,
      (∀ r, r.id = id → f r = g r) →
      (rs.filter fun r => r.id == id).flatMap f = (rs.filter fun r => r.id == id).flatMap g := by
    intro rs f g hfg
    refine List.flatMap_congr fun r hr => hfg r ?_
    simpa using (List.mem_filter.mp hr).2
  rw [ofDiff_eq, claimsAt_foldl_record, claimsAt_foldl_record, k.listed_empty]
  congr 1
  · refine hat _ _ _ fun r hr => ?_
    rw [hr]
    rfl
  · refine hat _ _ _ fun r hr => ?_
    rw [hr]
    cases (known previous).get? id with
    | none => rfl
    | some old => rfl

theorem claimsAt_ofDiff (k : Aspect) (d : Diff) (previous : List Repo) {id : Int} (hid : id ≠ 0) :
    claimsAt (k.listed (ofDiff d previous)) id =
      (d.added.filter fun r => r.id == id).flatMap (fun r =>
          k.part (.between (((known previous).get? id).elim ∅ (·.claims)) r.claims)) ++
        ((d.modified ++ d.deleted).filter fun r => r.id == id).flatMap fun r =>
          ((known previous).get? id).elim [] fun old => k.part (.between old.claims r.claims) := by
  have hfilter : ∀ rs : List Repo,
      ((rs.filter (·.id != 0)).filter fun r => r.id == id) = rs.filter fun r => r.id == id := by
    intro rs
    rw [List.filter_filter]
    refine List.filter_congr fun r _ => ?_
    by_cases h : r.id = id
    · simp [h, hid]
    · simp [h]
  rw [claimsAt_ofDiff_filtered, hfilter, hfilter]

theorem claimsAt_ofDiff_zero (k : Aspect) (d : Diff) (previous : List Repo) :
    claimsAt (k.listed (ofDiff d previous)) 0 = [] := by
  have hnil : ∀ rs : List Repo, ((rs.filter (·.id != 0)).filter fun r => r.id == 0) = [] := by
    intro rs
    rw [List.filter_filter, List.filter_eq_nil_iff]
    intro r _
    by_cases h : r.id = 0
    · simp [h]
    · simp [h]
  rw [claimsAt_ofDiff_filtered, hnil, hnil]
  rfl

theorem get?_known {previous : List Repo} {id : Int} {old : Repo} (hid : id ≠ 0)
    (hinj : ∀ a ∈ previous, ∀ b ∈ previous, a.id = b.id → a = b) :
    (known previous).get? id = some old ↔ old ∈ previous ∧ old.id = id := by
  unfold known
  constructor
  · intro h
    have hmem := Dict.mem_of_get?_ofList h
    simp only [List.mem_map, List.mem_filter, Prod.mk.injEq] at hmem
    obtain ⟨r, ⟨hr, -⟩, hrid, rfl⟩ := hmem
    exact ⟨hr, hrid⟩
  · rintro ⟨hold, rfl⟩
    refine Dict.get?_ofList_of_mem ?_ fun b hb => ?_
    · exact List.mem_map.mpr ⟨old, List.mem_filter.mpr ⟨hold, by simpa using hid⟩, rfl⟩
    · simp only [List.mem_map, List.mem_filter, Prod.mk.injEq] at hb
      obtain ⟨r, ⟨hr, -⟩, hrid, rfl⟩ := hb
      exact hinj r hr old hold hrid

/-- A claim is listed for an added repository as against nothing, unless there is a stored state,
and for any other as against its stored state. -/
theorem mem_claimsAt_ofDiff (k : Aspect) {d : Diff} {previous : List Repo}
    (hinj : ∀ a ∈ previous, ∀ b ∈ previous, a.id = b.id → a = b) {id : Int} (hid : id ≠ 0)
    {claim : Claim} : claim ∈ claimsAt (k.listed (ofDiff d previous)) id ↔
      (∃ x ∈ d.added, x.id = id ∧
        claim ∈ k.part (.between (((known previous).get? id).elim ∅ (·.claims)) x.claims)) ∨
      ∃ x ∈ d.modified ++ d.deleted, x.id = id ∧ ∃ old ∈ previous, old.id = id ∧
        claim ∈ k.part (.between old.claims x.claims) := by
  rw [claimsAt_ofDiff k d previous hid, List.mem_append, List.mem_flatMap, List.mem_flatMap]
  simp only [List.mem_filter, beq_iff_eq, and_assoc]
  refine or_congr Iff.rfl (exists_congr fun x => ?_)
  refine and_congr_right fun _ => and_congr_right fun _ => ?_
  cases hget : (known previous).get? id with
  | none =>
      constructor
      · intro h
        cases h
      · rintro ⟨old, hold, hoid, -⟩
        rw [(get?_known hid hinj).mpr ⟨hold, hoid⟩] at hget
        cases hget
  | some old =>
      obtain ⟨hold, hoid⟩ := (get?_known hid hinj).mp hget
      constructor
      · intro h
        exact ⟨old, hold, hoid, h⟩
      · rintro ⟨old', hold', hoid', h⟩
        rw [hinj old hold old' hold' (hoid.trans hoid'.symm)]
        exact h

theorem mem_stored_ofDiff {d : Diff} {previous : List Repo}
    (hinj : ∀ a ∈ previous, ∀ b ∈ previous, a.id = b.id → a = b) {id : Int} (hid : id ≠ 0)
    {claim : Claim} : (claim ∈ claimsAt (ofDiff d previous).added id ∨
        claim ∈ claimsAt (ofDiff d previous).modified id) ↔
      (∃ x ∈ d.added, x.id = id ∧
        ClaimEdits.Renews (((known previous).get? id).elim ∅ (·.claims)) x.claims claim) ∨
      ∃ x ∈ d.modified ++ d.deleted, x.id = id ∧ ∃ old ∈ previous, old.id = id ∧
        ClaimEdits.Renews old.claims x.claims claim := by
  simp only [ClaimEdits.renews_iff]
  constructor
  · rintro (h | h)
    · rcases (mem_claimsAt_ofDiff .additions hinj hid).mp h with
        ⟨x, hx, hxid, h⟩ | ⟨x, hx, hxid, old, hold, hoid, h⟩
      · exact .inl ⟨x, hx, hxid, .inl h⟩
      · exact .inr ⟨x, hx, hxid, old, hold, hoid, .inl h⟩
    · rcases (mem_claimsAt_ofDiff .changes hinj hid).mp h with
        ⟨x, hx, hxid, h⟩ | ⟨x, hx, hxid, old, hold, hoid, h⟩
      · exact .inl ⟨x, hx, hxid, .inr h⟩
      · exact .inr ⟨x, hx, hxid, old, hold, hoid, .inr h⟩
  · rintro (⟨x, hx, hxid, h | h⟩ | ⟨x, hx, hxid, old, hold, hoid, h | h⟩)
    · exact .inl ((mem_claimsAt_ofDiff .additions hinj hid).mpr (.inl ⟨x, hx, hxid, h⟩))
    · exact .inr ((mem_claimsAt_ofDiff .changes hinj hid).mpr (.inl ⟨x, hx, hxid, h⟩))
    · exact .inl ((mem_claimsAt_ofDiff .additions hinj hid).mpr
        (.inr ⟨x, hx, hxid, old, hold, hoid, h⟩))
    · exact .inr ((mem_claimsAt_ofDiff .changes hinj hid).mpr
        (.inr ⟨x, hx, hxid, old, hold, hoid, h⟩))

/-- Whether a membership is among those to be deleted. -/
def drops (e : MembershipEdits) (k : MemberKey) : Bool :=
  (Store.serviceIds (claimsAt e.deleted k.repo)).contains k.service

/-- The claims to be stored, each with the id of its repository. -/
def stored (e : MembershipEdits) : List (Int × List Claim) :=
  e.added.entries ++ e.modified.entries

def claims (e : MembershipEdits) : List (Int × Claim) :=
  e.stored.flatMap fun x => x.2.map fun claim => (x.1, claim)

theorem mem_claimsAt {d : ClaimsByRepo} {id : Int} {claim : Claim} :
    claim ∈ claimsAt d id ↔ ∃ claims, (id, claims) ∈ d.entries ∧ claim ∈ claims := by
  unfold claimsAt
  constructor
  · intro h
    cases hget : d.get? id with
    | none =>
        rw [hget] at h
        cases h
    | some claims =>
        rw [hget] at h
        exact ⟨claims, Dict.get?_eq_some_iff.mp hget, h⟩
  · rintro ⟨claims, hmem, h⟩
    rw [Dict.get?_eq_some_iff.mpr hmem]
    exact h

theorem mem_claims {e : MembershipEdits} {id : Int} {claim : Claim} :
    (id, claim) ∈ e.claims ↔ claim ∈ claimsAt e.added id ∨ claim ∈ claimsAt e.modified id := by
  unfold claims stored
  simp only [mem_claimsAt, List.mem_flatMap, List.mem_append, List.mem_map, Prod.mk.injEq]
  constructor
  · rintro ⟨⟨id, claims⟩, hx, claim, hclaim, rfl, rfl⟩
    exact hx.imp (fun h => ⟨claims, h, hclaim⟩) fun h => ⟨claims, h, hclaim⟩
  · rintro (⟨claims, hx, hclaim⟩ | ⟨claims, hx, hclaim⟩)
    · exact ⟨(id, claims), .inl hx, claim, hclaim, rfl, rfl⟩
    · exact ⟨(id, claims), .inr hx, claim, hclaim, rfl, rfl⟩

end MembershipEdits

def Claim.unread (claim : Claim) : StoreError :=
  .invalid s!"malformed source id {Text.quoted claim.urn}"

namespace Catalog

def ownerOf (c : Catalog) (service : Int) : Option Int :=
  (c.services.get? service).bind (·.owner?)

def memberOf (c : Catalog) (repo : Int) (claim : Claim) : Option (MemberKey × Membership) :=
  claim.serviceId?.map fun s => (⟨repo, s⟩, ⟨claim.cloneUrl, c.ownerOf s⟩)

theorem ownerOf_of_sameSetting {c d : Catalog} (h : SameSetting c d) : d.ownerOf = c.ownerOf := by
  funext service
  unfold ownerOf
  rw [h.services]

theorem memberOf_of_sameSetting {c d : Catalog} (h : SameSetting c d) :
    d.memberOf = c.memberOf := by
  funext repo claim
  unfold memberOf
  rw [ownerOf_of_sameSetting h]

theorem hasEnds_of_sameSetting {c d : Catalog} (h : SameSetting c d) (hrepos : d.repos = c.repos)
    (k : MemberKey) : d.hasEnds k = c.hasEnds k := by
  unfold Tables.hasEnds
  rw [h.services, hrepos]

/-- What hinders a claim on a repository from being stored, if anything does. -/
def hindrance? (c : Catalog) (x : Int × Claim) : Option StoreError :=
  match x.2.serviceId? with
  | none => some x.2.unread
  | some service =>
    if c.hasEnds ⟨x.1, service⟩ then none else some (.database (.refusedWrite .danglingReference))

theorem hindrance?_of_sameSetting {c d : Catalog} (h : SameSetting c d) (hrepos : d.repos = c.repos) :
    d.hindrance? = c.hindrance? := by
  funext x
  unfold hindrance?
  simp only [hasEnds_of_sameSetting h hrepos]

/-- The memberships that edits store, in order. -/
def puts (c : Catalog) (e : MembershipEdits) : List (MemberKey × Membership) :=
  e.stored.flatMap fun x => x.2.filterMap (c.memberOf x.1)

/-- What the catalog `d` holds once edits were carried out on `c`. -/
structure Edited (c : Catalog) (e : MembershipEdits) (d : Catalog) : Prop where
  setting : SameSetting c d
  repos : d.repos = c.repos
  members : ∀ k, d.members.get? k =
    ((Dict.ofList (c.puts e)).get? k).or (if e.drops k then none else c.members.get? k)

end Catalog

/-- Whether edits store a claim under a key. -/
def MembershipEdits.Stores (e : MembershipEdits) (k : MemberKey) (claim : Claim) : Prop :=
  (claim ∈ claimsAt e.added k.repo ∨ claim ∈ claimsAt e.modified k.repo) ∧
    claim.serviceId? = some k.service

namespace Catalog

open MembershipEdits

theorem puts_eq (c : Catalog) (e : MembershipEdits) :
    c.puts e = e.claims.filterMap fun x => c.memberOf x.1 x.2 := by
  unfold puts claims
  rw [List.filterMap_flatMap]
  refine List.flatMap_congr fun x _ => ?_
  rw [List.filterMap_map]
  rfl

theorem mem_puts {c : Catalog} {e : MembershipEdits} {k : MemberKey} {m : Membership} :
    (k, m) ∈ c.puts e ↔ ∃ claim, e.Stores k claim ∧ m = ⟨claim.cloneUrl, c.ownerOf k.service⟩ := by
  rw [puts_eq]
  unfold MembershipEdits.Stores memberOf
  simp only [← mem_claims, List.mem_filterMap, Option.map_eq_some_iff, Prod.mk.injEq]
  constructor
  · rintro ⟨x, hx, service, hservice, rfl, rfl⟩
    exact ⟨x.2, ⟨hx, hservice⟩, rfl⟩
  · rintro ⟨claim, ⟨hclaim, hservice⟩, rfl⟩
    exact ⟨(k.repo, claim), hclaim, k.service, hservice, rfl, rfl⟩

theorem Edited.get?_of_stores {c d : Catalog} {e : MembershipEdits} (h : Edited c e d)
    {k : MemberKey} {claim : Claim} (hclaim : e.Stores k claim) :
    ∃ claim', e.Stores k claim' ∧
      d.members.get? k = some ⟨claim'.cloneUrl, c.ownerOf k.service⟩ := by
  rw [h.members]
  cases hget : (Dict.ofList (c.puts e)).get? k with
  | none =>
      rw [Dict.get?_ofList_eq_none_iff] at hget
      exact absurd rfl (hget _ (mem_puts.mpr ⟨claim, hclaim, rfl⟩))
  | some m =>
      obtain ⟨claim', hclaim', rfl⟩ := mem_puts.mp (Dict.mem_of_get?_ofList hget)
      exact ⟨claim', hclaim', rfl⟩

theorem Edited.get?_of_not_stores {c d : Catalog} {e : MembershipEdits} (h : Edited c e d)
    {k : MemberKey} (hnone : ∀ claim, ¬e.Stores k claim) :
    d.members.get? k = if e.drops k then none else c.members.get? k := by
  have hget : (Dict.ofList (c.puts e)).get? k = none := by
    rw [Dict.get?_ofList_eq_none_iff]
    rintro ⟨k', m⟩ hmem rfl
    obtain ⟨claim, hclaim, -⟩ := mem_puts.mp hmem
    exact hnone claim hclaim
  rw [h.members, hget, Option.none_or]

end Catalog

namespace Store

open Step Catalog MembershipEdits

variable {s t : Store}

def dropClaims (x : Int × List Claim) : StoreM Unit := do
  let services := serviceIds x.2
  if services.isEmpty then return
  update [.members] fun c => c.dropMembers fun k => k.repo == x.1 && services.contains k.service

theorem run_dropClaims (hs : s.catalog.Complete) (x : Int × List Claim) :
    ∃ d, dropClaims x s = (.ok (), { s with catalog := d }) ∧ SameSetting s.catalog d ∧
      d.repos = s.catalog.repos ∧ ∀ k, d.members.get? k =
        if x.1 = k.repo ∧ k.service ∈ serviceIds x.2 then none else s.catalog.members.get? k := by
  unfold dropClaims
  by_cases hempty : (serviceIds x.2).isEmpty = true
  · refine ⟨s.catalog, ?_, .refl _, rfl, fun k => ?_⟩
    · simp only [hempty, if_true]
      rfl
    · rw [if_neg]
      simp [List.isEmpty_iff.mp hempty]
  · let p : MemberKey → Bool := fun k => k.repo == x.1 && (serviceIds x.2).contains k.service
    refine ⟨s.catalog.dropMembers p, ?_, sameSetting_dropMembers _ _, rfl, fun k => ?_⟩
    · simp only [hempty]
      exact run_update hs _ _
    · rw [get?_dropMembers]
      refine if_congr ?_ rfl rfl
      simp only [p, Bool.and_eq_true, beq_iff_eq, List.contains_iff_mem]
      exact and_congr_left' eq_comm

theorem run_forM_dropClaims (hs : s.catalog.Complete) (listed : List (Int × List Claim)) :
    ∃ d, listed.forM dropClaims s = (.ok (), { s with catalog := d }) ∧ SameSetting s.catalog d ∧
      d.repos = s.catalog.repos ∧ ∀ k, d.members.get? k =
        if ∃ x ∈ listed, x.1 = k.repo ∧ k.service ∈ serviceIds x.2 then none
        else s.catalog.members.get? k := by
  induction listed generalizing s with
  | nil =>
      refine ⟨s.catalog, rfl, .refl _, rfl, fun k => ?_⟩
      simp
  | cons x listed ih =>
      obtain ⟨c, hrun, hsetting, hrepos, hmembers⟩ := run_dropClaims hs x
      obtain ⟨d, hrun', hsetting', hrepos', hmembers'⟩ := ih (s := { s with catalog := c })
        (hs.of_version hsetting.version)
      refine ⟨d, (forM_of_ok hrun).trans hrun', hsetting.trans hsetting', hrepos'.trans hrepos, ?_⟩
      intro k
      rw [hmembers', hmembers]
      simp only [List.exists_mem_cons_iff]
      by_cases h : x.1 = k.repo ∧ k.service ∈ serviceIds x.2
      · simp only [h, true_or, if_true, ite_self, and_self]
      · simp only [h, false_or, if_false]

theorem run_putMember (hs : s.catalog.Complete) {service repo : Int} (cloneUrl : String)
    (userId : Option Int) (hends : s.catalog.hasEnds ⟨repo, service⟩ = true) :
    ∃ d, putMember service repo cloneUrl userId s = (.ok (), { s with catalog := d }) ∧
      SameSetting s.catalog d ∧ d.repos = s.catalog.repos ∧
      d.members = s.catalog.members.insert ⟨repo, service⟩ ⟨cloneUrl, userId⟩ := by
  obtain ⟨d, hput, hd⟩ := putMember_of_ends ⟨cloneUrl, userId⟩ hends
  exact ⟨d, run_write_of_ok hs hput, hd⟩

theorem putMember_ok {service repo : Int} {cloneUrl : String} {userId : Option Int} {u : Unit}
    (h : putMember service repo cloneUrl userId s = (.ok u, t)) :
    SameSetting s.catalog t.catalog ∧ t.catalog.repos = s.catalog.repos ∧
      t.catalog.members = s.catalog.members.insert ⟨repo, service⟩ ⟨cloneUrl, userId⟩ ∧
      t.saved = s.saved := by
  obtain ⟨d, hput, rfl⟩ := write_ok h
  obtain ⟨hsetting, hrepos, hmembers⟩ := Catalog.putMember_ok hput
  exact ⟨hsetting, hrepos, hmembers, rfl⟩

def putClaim (owners : Dict Int (Option Int)) (x : Int × Claim) : StoreM Unit :=
  match x.2.serviceId? with
  | none => invalid s!"malformed source id {Text.quoted x.2.urn}"
  | some service => putMember service x.1 x.2.cloneUrl ((owners.get? service).getD none)

theorem putClaims_eq (owners : Dict Int (Option Int)) (repo : Int) (claims : List Claim) :
    putClaims owners repo claims =
      (claims.map fun claim => (repo, claim)).forM (putClaim owners) := by
  induction claims with
  | nil => rfl
  | cons c cs ih =>
      rw [List.forM_eq_forM] at ih ⊢
      rw [List.map_cons, List.forM_cons, ← ih, putClaims, putClaim]
      cases c.serviceId? with
      | none => rfl
      | some service => rfl

theorem forM_putClaims (owners : Dict Int (Option Int)) (e : MembershipEdits) :
    e.stored.forM (fun x => putClaims owners x.1 x.2) = e.claims.forM (putClaim owners) := by
  unfold claims
  induction e.stored with
  | nil => rfl
  | cons x stored ih =>
      rw [List.forM_eq_forM] at ih ⊢
      rw [List.forM_cons, ih, putClaims_eq, List.flatMap_cons, List.forM_eq_forM,
        ← List.forM_append]

theorem putClaim_ok {owners : Dict Int (Option Int)} {x : Int × Claim} {u : Unit}
    (h : putClaim owners x s = (.ok u, t))
    (howners : ∀ service, x.2.serviceId? = some service →
      (owners.get? service).getD none = s.catalog.ownerOf service) :
    SameSetting s.catalog t.catalog ∧ t.catalog.repos = s.catalog.repos ∧ t.saved = s.saved ∧
      ∃ y, s.catalog.memberOf x.1 x.2 = some y ∧
        t.catalog.members = s.catalog.members.insert y.1 y.2 := by
  unfold putClaim at h
  cases hid : x.2.serviceId? with
  | none =>
      rw [hid] at h
      cases h
  | some service =>
      rw [hid] at h
      obtain ⟨hsetting, hrepos, hmembers, hsaved⟩ := putMember_ok h
      rw [howners service hid] at hmembers
      refine ⟨hsetting, hrepos, hsaved, (⟨x.1, service⟩, ⟨x.2.cloneUrl, _⟩), ?_, hmembers⟩
      rw [memberOf, hid, Option.map_some]

theorem forM_putClaim_ok {owners : Dict Int (Option Int)} {claims : List (Int × Claim)} {u : Unit}
    (h : claims.forM (putClaim owners) s = (.ok u, t))
    (howners : ∀ x ∈ claims, ∀ service, x.2.serviceId? = some service →
      (owners.get? service).getD none = s.catalog.ownerOf service) :
    SameSetting s.catalog t.catalog ∧ t.catalog.repos = s.catalog.repos ∧ t.saved = s.saved ∧
      t.catalog.members = (claims.filterMap fun x => s.catalog.memberOf x.1 x.2).foldl
        (fun d e => d.insert e.1 e.2) s.catalog.members := by
  induction claims generalizing s with
  | nil =>
      cases h
      exact ⟨.refl _, rfl, rfl, rfl⟩
  | cons x claims ih =>
      obtain ⟨v, hput, hrest⟩ := forM_cons_ok_iff.mp h
      obtain ⟨hsetting, hrepos, hsaved, y, hy, hmembers⟩ :=
        putClaim_ok hput (howners x List.mem_cons_self)
      have howners' := fun z hz => howners z (List.mem_cons_of_mem x hz)
      rw [← ownerOf_of_sameSetting hsetting] at howners'
      obtain ⟨hsetting', hrepos', hsaved', hmembers'⟩ := ih hrest howners'
      refine ⟨hsetting.trans hsetting', hrepos'.trans hrepos, hsaved'.trans hsaved, ?_⟩
      rw [hmembers', hmembers, memberOf_of_sameSetting hsetting, List.filterMap_cons, hy]
      rfl

theorem run_putClaim (hs : s.catalog.Complete) (owners : Dict Int (Option Int))
    (x : Int × Claim) :
    (s.catalog.hindrance? x = none ∧ ∃ d, putClaim owners x s = (.ok (), { s with catalog := d }) ∧
        SameSetting s.catalog d ∧ d.repos = s.catalog.repos) ∨
      ∃ error, s.catalog.hindrance? x = some error ∧ putClaim owners x s = (.error error, s) := by
  unfold hindrance? putClaim
  cases hid : x.2.serviceId? with
  | none => exact .inr ⟨_, rfl, rfl⟩
  | some service =>
      simp only []
      by_cases hends : s.catalog.hasEnds ⟨x.1, service⟩ = true
      · obtain ⟨d, hrun, hsetting, hrepos, -⟩ := run_putMember hs x.2.cloneUrl
          ((owners.get? service).getD none) hends
        exact .inl ⟨if_pos hends, d, hrun, hsetting, hrepos⟩
      · refine .inr ⟨_, if_neg hends, ?_⟩
        unfold putMember
        rw [run_write hs]
        unfold Catalog.putMember
        rw [dif_neg hends]
        rfl

/-- Claims are stored up to the first one that something hinders. -/
theorem outcome_forM_putClaim (hs : s.catalog.Complete) (owners : Dict Int (Option Int))
    (claims : List (Int × Claim)) : (claims.forM (putClaim owners) s).1 =
      (claims.findSome? s.catalog.hindrance?).elim (.ok ()) .error := by
  induction claims generalizing s with
  | nil => rfl
  | cons x claims ih =>
      rcases run_putClaim hs owners x with ⟨hnone, d, hrun, hsetting, hrepos⟩ | ⟨error, hsome, hrun⟩
      · rw [forM_of_ok hrun, ih (s := { s with catalog := d }) (hs.of_version hsetting.version),
          hindrance?_of_sameSetting hsetting hrepos, List.findSome?_cons, hnone]
      · rw [List.forM_eq_forM, List.forM_cons, bind_of_error hrun, List.findSome?_cons, hsome]
        rfl

theorem run_ownersOf (hs : s.catalog.Complete) (ids : List Int) :
    ∃ owners, ownersOf ids s = (.ok owners, s) ∧
      ∀ service ∈ ids, (owners.get? service).getD none = s.catalog.ownerOf service := by
  refine ⟨_, run_read hs _ _, fun service hservice => ?_⟩
  unfold Catalog.ownerOf
  cases hrow : s.catalog.services.get? service with
  | none =>
      rw [Dict.get?_ofList_eq_none_iff.mpr]
      · rfl
      · intro e he
        obtain ⟨x, hx, rfl⟩ := List.mem_map.mp he
        rintro rfl
        have hx' := Table.get?_eq_some_iff.mpr (List.mem_filter.mp hx).1
        rw [hrow] at hx'
        cases hx'
  | some row =>
      rw [Dict.get?_ofList_of_mem (a := row.owner?)]
      · rfl
      · refine List.mem_map.mpr ⟨(service, row), List.mem_filter.mpr ⟨?_, ?_⟩, rfl⟩
        · exact Table.get?_eq_some_iff.mp hrow
        · simpa using hservice
      · intro b hb
        obtain ⟨x, hx, heq⟩ := List.mem_map.mp hb
        cases heq
        have hx' := Table.get?_eq_some_iff.mpr (List.mem_filter.mp hx).1
        rw [hrow] at hx'
        cases hx'
        rfl

theorem editMembers_eq (e : MembershipEdits) : editMembers e = (do
    e.deleted.entries.forM dropClaims
    let services := serviceIds (e.stored.flatMap (·.2))
    if services.isEmpty then return
    let owners ← ownersOf services
    e.stored.forM fun x => putClaims owners x.1 x.2) := rfl

theorem drops_iff (e : MembershipEdits) (k : MemberKey) :
    (∃ x ∈ e.deleted.entries, x.1 = k.repo ∧ k.service ∈ serviceIds x.2) ↔ e.drops k = true := by
  unfold drops claimsAt
  rw [List.contains_iff_mem]
  constructor
  · rintro ⟨x, hx, hrepo, hservice⟩
    rw [← hrepo, Dict.get?_eq_some_iff.mpr (hx : (x.1, x.2) ∈ e.deleted.entries)]
    exact hservice
  · intro hservice
    cases hget : e.deleted.get? k.repo with
    | none =>
        rw [hget] at hservice
        cases hservice
    | some claims =>
        rw [hget] at hservice
        exact ⟨(k.repo, claims), Dict.get?_eq_some_iff.mp hget, rfl, hservice⟩

theorem mem_serviceIds_of_claims {e : MembershipEdits} {x : Int × Claim} (hx : x ∈ e.claims)
    {service : Int} (h : x.2.serviceId? = some service) :
    service ∈ serviceIds (e.stored.flatMap (·.2)) := by
  obtain ⟨y, hy, hx⟩ := List.mem_flatMap.mp hx
  obtain ⟨claim, hclaim, rfl⟩ := List.mem_map.mp hx
  exact List.mem_filterMap.mpr ⟨claim, List.mem_flatMap.mpr ⟨y, hy, hclaim⟩, h⟩

theorem serviceIds_eq_nil_iff {e : MembershipEdits} :
    serviceIds (e.stored.flatMap (·.2)) = [] ↔ ∀ x ∈ e.claims, x.2.serviceId? = none := by
  unfold serviceIds MembershipEdits.claims
  rw [List.filterMap_eq_nil_iff]
  constructor
  · intro h x hx
    obtain ⟨y, hy, hx⟩ := List.mem_flatMap.mp hx
    obtain ⟨claim, hclaim, rfl⟩ := List.mem_map.mp hx
    exact h claim (List.mem_flatMap.mpr ⟨y, hy, hclaim⟩)
  · intro h claim hclaim
    obtain ⟨y, hy, hclaim⟩ := List.mem_flatMap.mp hclaim
    exact h (y.1, claim) (List.mem_flatMap.mpr ⟨y, hy, List.mem_map.mpr ⟨claim, hclaim, rfl⟩⟩)

theorem puts_eq_nil {c : Catalog} {e : MembershipEdits}
    (h : ∀ x ∈ e.claims, x.2.serviceId? = none) : c.puts e = [] := by
  rw [puts_eq, List.filterMap_eq_nil_iff]
  intro x hx
  rw [memberOf, h x hx, Option.map_none]

theorem editMembers_ok (hs : s.catalog.Complete) {e : MembershipEdits} {u : Unit}
    (h : editMembers e s = (.ok u, t)) :
    Edited s.catalog e t.catalog ∧ t.saved = s.saved := by
  rw [editMembers_eq] at h
  obtain ⟨c, hrun, hsetting, hrepos, hmembers⟩ := run_forM_dropClaims hs e.deleted.entries
  simp only [drops_iff] at hmembers
  rw [bind_of_ok hrun] at h
  by_cases hempty : (serviceIds (e.stored.flatMap (·.2))).isEmpty = true
  · simp only [hempty, if_true] at h
    cases h
    refine ⟨⟨hsetting, hrepos, fun k => ?_⟩, rfl⟩
    rw [puts_eq_nil (serviceIds_eq_nil_iff.mp (List.isEmpty_iff.mp hempty)), Dict.ofList_nil,
      Dict.get?_empty, Option.none_or]
    exact hmembers k
  · simp only [hempty] at h
    obtain ⟨owners, howned, howners⟩ := run_ownersOf (s := { s with catalog := c })
      (hs.of_version hsetting.version) (serviceIds (e.stored.flatMap (·.2)))
    rw [if_neg (by decide), bind_of_ok howned, forM_putClaims] at h
    obtain ⟨hsetting', hrepos', hsaved, hmembers'⟩ := forM_putClaim_ok h
      fun x hx service hservice => howners service (mem_serviceIds_of_claims hx hservice)
    refine ⟨⟨hsetting.trans hsetting', hrepos'.trans hrepos, fun k => ?_⟩, hsaved⟩
    rw [hmembers', Dict.get?_foldl_insert, memberOf_of_sameSetting hsetting, ← puts_eq]
    simp only [hmembers]

/-- How edits end: at the first claim that something hinders, unless none of them names a service. -/
theorem outcome_editMembers (hs : s.catalog.Complete) (e : MembershipEdits) :
    (editMembers e s).1 = if ∀ x ∈ e.claims, x.2.serviceId? = none then .ok ()
      else (e.claims.findSome? s.catalog.hindrance?).elim (.ok ()) .error := by
  rw [editMembers_eq]
  obtain ⟨c, hrun, hsetting, hrepos, -⟩ := run_forM_dropClaims hs e.deleted.entries
  rw [bind_of_ok hrun]
  by_cases hempty : serviceIds (e.stored.flatMap (·.2)) = []
  · rw [if_pos (serviceIds_eq_nil_iff.mp hempty)]
    simp only [hempty, List.isEmpty_nil, if_true]
    rfl
  · rw [if_neg (mt serviceIds_eq_nil_iff.mpr hempty)]
    obtain ⟨owners, howned, -⟩ := run_ownersOf (s := { s with catalog := c })
      (hs.of_version hsetting.version) (serviceIds (e.stored.flatMap (·.2)))
    simp only [List.isEmpty_iff, hempty, if_false]
    rw [bind_of_ok howned, forM_putClaims,
      outcome_forM_putClaim (s := { s with catalog := c }) (hs.of_version hsetting.version),
      hindrance?_of_sameSetting hsetting hrepos]

theorem editMembers_total (hs : s.catalog.Complete) {e : MembershipEdits}
    (h : ∀ x ∈ e.stored, ∀ c ∈ x.2, ∃ service, c.serviceId? = some service ∧
      s.catalog.hasEnds ⟨x.1, service⟩ = true) :
    ∃ t, editMembers e s = (.ok (), t) := by
  have hnone : e.claims.findSome? s.catalog.hindrance? = none := by
    rw [List.findSome?_eq_none_iff]
    intro x hx
    obtain ⟨y, hy, hx⟩ := List.mem_flatMap.mp hx
    obtain ⟨claim, hclaim, rfl⟩ := List.mem_map.mp hx
    obtain ⟨service, hid, hends⟩ := h y hy claim hclaim
    simp only [hindrance?, hid, hends, if_true]
  have hok : (editMembers e s).1 = .ok () := by
    rw [outcome_editMembers hs, hnone, Option.elim_none, ite_self]
  exact ⟨_, Prod.ext hok rfl⟩

end Store

end RepoCatalog
