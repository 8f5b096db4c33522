import RepoCatalog.Proofs.Batch

/-!
# What a batch comes to

What is written is live and held by the service. Every other row stays what it was, unless it was
deleted.
-/
namespace RepoCatalog

open Time (Instant)

namespace Catalog

open MembershipEdits Syncer

variable {c c₂ c₃ c₄ c₅ d₁ d₂ e : Catalog} {svc : Service} {previous : List Repo} {d : Diff}
variable {ms as : List Repo} {now : Instant}

/-- Where a repository of a difference was written: where its live form is placed. -/
def Landed (c : Catalog) (x w : Repo) : Prop :=
  c.Placed { x with deletedAt := none } w

theorem Landed.spec {x w : Repo} (h : c.Landed x w) : w.spec = x.spec := by
  rw [Placed.same h]

theorem Landed.claims {x w : Repo} (h : c.Landed x w) : w.claims = x.claims := by
  rw [Placed.same h]

theorem landed_of_placed {x w : Repo} {created updated : Option Instant}
    (h : c.Placed { x with createdAt := created, updatedAt := updated, deletedAt := none } w) :
    c.Landed x w :=
  ⟨h.same, h.kept, h.ownSpec, h.home, h.fresh⟩

/-- The state in which the rows are after both rounds of writes. -/
structure Penned (c c₂ : Catalog) (d : Diff) (ms as : List Repo) (c₄ : Catalog) : Prop where
  modified : List.Forall₂ c.Landed d.modified ms
  added : List.Forall₂ c.Landed d.added as
  repos : ∀ j row, c₄.repos.get? j = some row ↔ (∃ w ∈ ms ++ as, w.id = j ∧ w.row = row) ∨
    (c₂.repos.get? j = some row ∧ ∀ x ∈ d.modified ++ d.added, x.spec ≠ row.spec)

theorem fits_modified (hd : Feasible c svc previous d)
    (hspecs : ∀ j spec, (∃ row, c₂.repos.get? j = some row ∧ row.spec = spec) ↔
      ∃ row, c.repos.get? j = some row ∧ row.spec = spec) :
    ∀ r ∈ (stamp now d).modified, c₂.Fits r := by
  intro r hr
  obtain ⟨x, hx, rfl⟩ := List.mem_map.mp hr
  obtain ⟨old, hold, hid, hspec, -⟩ := hd.modified x hx
  obtain ⟨row, hrow, -, hview⟩ := hd.shown old hold
  have hrowspec : row.spec = x.spec := by
    rw [hspec, hview]
    rfl
  right
  exact (hspecs _ _).mpr ⟨row, by rw [← hrow]; exact congrArg _ hid, hrowspec⟩

theorem fits_added (hd : Feasible c svc previous d) : ∀ r ∈ (stamp now d).added, c₂.Fits r := by
  intro r hr
  obtain ⟨x, hx, rfl⟩ := List.mem_map.mp hr
  exact .inl (hd.added x hx).1

theorem pairwise_stamped (now : Instant) (hd : Feasible c svc previous d) :
    ((stamp now d).modified ++ (stamp now d).added).Pairwise fun a b => a.spec ≠ b.spec := by
  have hwritten := hd.written
  rw [List.pairwise_append] at hwritten ⊢
  obtain ⟨hm, ha, hcross⟩ := hwritten
  refine ⟨List.pairwise_map.mpr hm, List.pairwise_map.mpr ha, fun a ha b hb => ?_⟩
  obtain ⟨x, hx, rfl⟩ := List.mem_map.mp ha
  obtain ⟨z, hz, rfl⟩ := List.mem_map.mp hb
  exact hcross x hx z hz

theorem penned (hd : Feasible c svc previous d)
    (hspecs : ∀ j spec, (∃ row, c₂.repos.get? j = some row ∧ row.spec = spec) ↔
      ∃ row, c.repos.get? j = some row ∧ row.spec = spec)
    (hlast : c₂.repos.lastId = c.repos.lastId)
    (hmodified : SavedAll c₂ (stamp now d).modified ms c₃)
    (hadded : SavedAll c₃ (stamp now d).added as c₄) : Penned c c₂ d ms as c₄ := by
  have hms : ∀ r ∈ (stamp now d).modified, c₂.Fits r := fits_modified hd hspecs
  have happart : ((stamp now d).modified ++ (stamp now d).added).Pairwise _ :=
    pairwise_stamped now hd
  obtain ⟨hpm, hpa, hcross⟩ := List.pairwise_append.mp happart
  constructor
  · have hplaced := hmodified.placed hms hpm
    refine (List.forall₂_map_left_iff.mp hplaced).imp fun x w hx => ?_
    exact landed_of_placed (hx.of_specs hspecs hlast)
  · have hplaced := (List.forall₂_and_left _ _).mpr
      ⟨fun r hr => (hr : r ∈ (stamp now d).added), hadded.placed (fits_added hd) hpa⟩
    refine (List.forall₂_map_left_iff.mp hplaced).imp fun x w hx => ?_
    have hbefore := hmodified.placed_before hms hpm (fun r hr => hcross r hr _ hx.1) hx.2
    exact landed_of_placed (hbefore.of_specs hspecs hlast)
  · intro j row
    rw [(hmodified.append hadded).get?_iff ?_ happart]
    · refine or_congr_right (and_congr_right fun _ => ?_)
      unfold stamp
      simp only [List.forall_mem_append, List.forall_mem_map]
    · intro r hr
      exact (List.mem_append.mp hr).elim (hms r) (fits_added hd r)

theorem Landed.isLive {x w : Repo} (h : c.Landed x w) : w.row.isLive = true := by
  have hdate : w.deletedAt = none := by rw [Placed.same h]
  unfold Repo.row RepoRow.ofRepo RepoRow.isLive
  rw [hdate]
  rfl

theorem Landed.pos {x w : Repo} (hc : c.Rooted) (h : c.Landed x w) : 0 < w.id := by
  cases hrow : c.repos.get? w.id with
  | none => exact Int.lt_of_le_of_lt hc.lastId (Placed.fresh h hrow)
  | some row => exact hc.ids _ _ hrow

namespace Penned

theorem pairs (h : Penned c c₂ d ms as c₄) :
    List.Forall₂ c.Landed (d.modified ++ d.added) (ms ++ as) :=
  List.rel_append h.modified h.added

theorem row (h : Penned c c₂ d ms as c₄) {w : Repo} (hw : w ∈ ms ++ as) :
    c₄.repos.get? w.id = some w.row :=
  (h.repos _ _).mpr (.inl ⟨w, hw, rfl, rfl⟩)

theorem origin (h : Penned c c₂ d ms as c₄)
    (hwritten : (d.modified ++ d.added).Pairwise fun a b => a.spec ≠ b.spec) {x w w' : Repo}
    (hx : x ∈ d.modified ++ d.added) (hw : w ∈ ms ++ as) (hw' : w' ∈ ms ++ as)
    (hland : c.Landed x w) (hid : w'.id = w.id) : c.Landed x w' := by
  obtain ⟨x', hx', hland'⟩ := exists_of_mem_right h.pairs hw'
  have hrow := h.row hw
  rw [← hid, h.row hw'] at hrow
  have hspec : w'.spec = w.spec := congrArg RepoRow.spec (Option.some.inj hrow)
  rw [hland.spec, hland'.spec] at hspec
  rw [eq_of_pairwise_spec hwritten hx hx' hspec.symm]
  exact hland'

end Penned

theorem get?_written (hsvc : c.Holds svc) (hd : Feasible c svc previous d) {x : Repo}
    (hx : x ∈ d.modified ++ d.added) {urn : String} {claim : Claim} {s : Int}
    (hclaim : x.claims.get? urn = some claim) (hs : claim.serviceId? = some s) :
    (s = svc.id ∧ urn = svc.urn) ∨
      (s ≠ svc.id ∧ ∃ old ∈ previous, x.id = old.id ∧ old.claims.get? urn = some claim) := by
  have hown : ∀ url, claim = ⟨svc.urn, url⟩ → s = svc.id := by
    rintro url rfl
    exact Urn.eq_of_serviceId?_format hs
  rcases List.mem_append.mp hx with hx | hx
  · obtain ⟨old, hold, hid, -, url, hclaims⟩ := hd.modified x hx
    rw [hclaims, Dict.get?_union, Claims.get?_solo] at hclaim
    by_cases hurn : urn = svc.urn
    · rw [if_pos hurn, Option.some_or, Option.some.injEq] at hclaim
      exact .inl ⟨hown url hclaim.symm, hurn⟩
    · rw [if_neg hurn, Option.none_or] at hclaim
      refine .inr ⟨?_, old, hold, hid, hclaim⟩
      rintro rfl
      obtain ⟨s, m, kind, -, hkind, hname, rfl⟩ := (hd.shown old hold).get?_claims.mp hclaim
      rw [hname] at hs
      rw [← Urn.eq_of_serviceId?_format hs] at hkind hname
      cases hkind.symm.trans hsvc.kindOf?
      exact hurn hname
  · obtain ⟨-, -, url, hclaims⟩ := hd.added x hx
    rw [hclaims, Claims.get?_solo] at hclaim
    by_cases hurn : urn = svc.urn
    · rw [if_pos hurn, Option.some.injEq] at hclaim
      exact .inl ⟨hown url hclaim.symm, hurn⟩
    · rw [if_neg hurn] at hclaim
      cases hclaim

def freshEdits (now : Instant) (d : Diff) (ms as previous : List Repo) : MembershipEdits :=
  { ofDiff { stamp now d with modified := ms, added := as } previous with deleted := ∅ }

theorem not_renews_deleted (hd : Releases c svc previous d) {x old : Repo}
    (hx : x ∈ (stamp now d).deleted) (hold : old ∈ previous) (hid : old.id = x.id) {claim : Claim} :
    ¬ClaimEdits.Renews old.claims x.claims claim := by
  rintro ⟨urn, hclaim, hurl⟩
  obtain ⟨z, hz, rfl⟩ := List.mem_map.mp hx
  obtain ⟨old', hold', hid', -, hclaims⟩ := hd.deleted z hz
  have hsame : (if isOrphaned z then { z with deletedAt := some now } else z).claims = z.claims ∧
      (if isOrphaned z then { z with deletedAt := some now } else z).id = z.id := by
    split <;> exact ⟨rfl, rfl⟩
  rw [hsame.2] at hid
  rw [hsame.1] at hclaim
  rw [(hd.shown old' hold').eq_of_id (hd.shown old hold) (hid'.symm.trans hid.symm)] at hclaims
  rcases hclaims with hclaims | hclaims
  · rw [hclaims, Dict.get?_empty] at hclaim
    cases hclaim
  · rw [hclaims, Dict.get?_erase] at hclaim
    split at hclaim
    · cases hclaim
    · exact hurl claim hclaim rfl

theorem stores_fresh (hc : c.Rooted) (hd : Feasible c svc previous d)
    (hp : Penned c c₂ d ms as c₄) {x w : Repo} (hx : x ∈ d.modified ++ d.added) (hw : w ∈ ms ++ as)
    (hland : c.Landed x w) {s : Int} {claim : Claim} :
    (freshEdits now d ms as previous).Stores ⟨w.id, s⟩ claim ↔ claim.serviceId? = some s ∧
      ∃ urn, x.claims.get? urn = some claim ∧ ∀ old ∈ previous, old.id = w.id →
        ∀ first, old.claims.get? urn = some first → claim.cloneUrl ≠ first.cloneUrl := by
  have hid : w.id ≠ 0 := Int.ne_of_gt (hland.pos hc)
  have hinj := shown_inj hd
  have hclaims : ∀ w' ∈ ms ++ as, w'.id = w.id → w'.claims = x.claims := fun w' hw' hid' =>
    (hp.origin hd.written hx hw hw' hland hid').claims
  unfold MembershipEdits.Stores freshEdits
  simp only []
  rw [and_comm, mem_stored_ofDiff hinj hid]
  refine and_congr_right fun _ => ?_
  constructor
  · rintro (⟨w', hw', hid', urn, hclaim, hurl⟩ | ⟨w', hw', hid', old, hold, hoid, h⟩)
    · rw [hclaims w' (List.mem_append_right _ hw') hid'] at hclaim
      refine ⟨urn, hclaim, fun old hold hoid first hfirst => hurl first ?_⟩
      rw [(get?_known hid hinj).mpr ⟨hold, hoid⟩]
      exact hfirst
    · rcases List.mem_append.mp hw' with hw' | hw'
      · obtain ⟨urn, hclaim, hurl⟩ := h
        rw [hclaims w' (List.mem_append_left _ hw') hid'] at hclaim
        refine ⟨urn, hclaim, fun old' hold' hoid' first hfirst => hurl first ?_⟩
        rw [hinj old hold old' hold' (hoid.trans hoid'.symm)]
        exact hfirst
      · exact absurd h (not_renews_deleted hd.toReleases hw' hold (hoid.trans hid'.symm))
  · rintro ⟨urn, hclaim, hurl⟩
    rw [← hclaims w hw rfl] at hclaim
    rcases List.mem_append.mp hw with hw' | hw'
    · right
      obtain ⟨z, hz, hland'⟩ := exists_of_mem_right hp.modified hw'
      obtain ⟨old, hold, hzid, -⟩ := hd.modified z hz
      obtain ⟨row, hrow, -⟩ := hd.shown old hold
      have hoid : old.id = w.id := by
        rw [← hzid]
        refine (Placed.kept hland' ?_).symm
        exact hzid ▸ Int.ne_of_gt (hc.ids _ _ hrow)
      exact ⟨w, List.mem_append_left _ hw', rfl, old, hold, hoid, urn, hclaim, hurl old hold hoid⟩
    · left
      refine ⟨w, hw', rfl, urn, hclaim, fun first hfirst => ?_⟩
      cases hknown : (known previous).get? w.id with
      | none =>
          rw [hknown] at hfirst
          cases hfirst
      | some old =>
          rw [hknown] at hfirst
          obtain ⟨hold, hoid⟩ := (get?_known hid hinj).mp hknown
          exact hurl old hold hoid first hfirst

/-- What a written repository has come to: a live row that the service holds. -/
structure Brought (c e : Catalog) (svc : Service) (x w : Repo) : Prop where
  landed : c.Landed x w
  row : e.repos.get? w.id = some w.row
  claim : ∃ claim m, x.claims.get? svc.urn = some claim ∧
    e.members.get? ⟨w.id, svc.id⟩ = some m ∧ m.cloneUrl = claim.cloneUrl
  others : ∀ s, s ≠ svc.id → e.members.get? ⟨w.id, s⟩ = c.members.get? ⟨w.id, s⟩

/-- Whether a row becomes a tombstone. -/
def Orphans (d : Diff) (j : Int) : Prop :=
  ∃ x ∈ d.deleted, x.id = j ∧ x.claims.isEmpty = true

/-- What the catalog `e` holds once a batch has carried out a difference on `c`. -/
structure Batched (c : Catalog) (svc : Service) (d : Diff) (e : Catalog) : Prop where
  furnished : e.Furnished
  lastId : c.repos.lastId ≤ e.repos.lastId
  written : ∀ x ∈ d.modified ++ d.added, ∃ w, Brought c e svc x w
  origin : ∀ j row, e.repos.get? j = some row →
    (∃ x ∈ d.modified ++ d.added, ∃ w, Brought c e svc x w ∧ w.id = j) ∨
      ∃ old, c.repos.get? j = some old ∧ ∀ x ∈ d.modified ++ d.added, x.spec ≠ old.spec
  orphaned : ∀ j old, c.repos.get? j = some old → Orphans d j →
    (∃ row, e.repos.get? j = some row ∧ row.isLive = false ∧ row.spec = old.spec) ∧
      ∀ s, e.members.get? ⟨j, s⟩ = none
  standing : ∀ j old, c.repos.get? j = some old → (∀ x ∈ d.modified ++ d.added, x.spec ≠ old.spec) →
    ¬Orphans d j → e.repos.get? j = some old ∧ ∀ s,
      (Goes svc d ⟨j, s⟩ → e.members.get? ⟨j, s⟩ = none) ∧
      (¬Goes svc d ⟨j, s⟩ → e.members.get? ⟨j, s⟩ = c.members.get? ⟨j, s⟩)

theorem spec_of_deleted (hd : Feasible c svc previous d) {x : Repo} (hx : x ∈ d.deleted)
    {old : RepoRow} (hold : c.repos.get? x.id = some old) :
    ∀ z ∈ d.modified ++ d.added, z.spec ≠ old.spec := by
  intro z hz hspec
  obtain ⟨shown, hshown, hid, hsame, -⟩ := hd.deleted x hx
  obtain ⟨row, hrow, -, hview⟩ := hd.shown shown hshown
  rw [← hid, hold] at hrow
  cases hrow
  refine hd.apart x hx z hz ?_
  rw [hsame, hspec, hview]
  rfl

theorem not_goes_landed (hd : Feasible c svc previous d) {x w : Repo}
    (hx : x ∈ d.modified ++ d.added) (hland : c.Landed x w) (s : Int) : ¬Goes svc d ⟨w.id, s⟩ := by
  rintro ⟨z, hz, hid, -⟩
  obtain ⟨shown, hshown, hsid, -⟩ := hd.deleted z hz
  obtain ⟨row, hrow, -⟩ := hd.shown shown hshown
  rw [← hsid] at hrow
  refine spec_of_deleted hd hz hrow x hx (Eq.symm ?_)
  rw [hid] at hrow
  exact Placed.home hland row hrow

theorem member_of_not_stores (hc : c.Rooted) (hsvc : c.Holds svc) (hd : Feasible c svc previous d)
    (hjoined : Edited c₄ (freshEdits now d ms as previous) c₅)
    (hkept : c₄.members = d₂.members)
    (hstripped : Edited c { MembershipEdits.empty with deleted := (ofDiff d previous).deleted } d₁)
    (hdeleted : Deleted d₁ ((d.deleted.filter isOrphaned).map (·.id)) d₂) {k : MemberKey}
    (hnone : ∀ claim, ¬(freshEdits now d ms as previous).Stores k claim) :
    (Goes svc d k → c₅.members.get? k = none) ∧
      (¬Goes svc d k → c₅.members.get? k = c.members.get? k) := by
  have hdrops : (freshEdits now d ms as previous).drops k = false := rfl
  have hsame : c₅.members.get? k = d₂.members.get? k := by
    rw [hjoined.get?_of_not_stores hnone, hdrops, if_neg Bool.false_ne_true, hkept]
  rw [hsame]
  exact members_deleted hc hsvc hd hstripped hdeleted k

/-- What is written is held by the service, at the listed address. -/
theorem member_of_written (hc : c.Rooted) (hsvc : c.Holds svc) (hd : Feasible c svc previous d)
    (hp : Penned c c₂ d ms as c₄) (hjoined : Edited c₄ (freshEdits now d ms as previous) c₅)
    (hstays : ∀ k, (∀ claim, ¬(freshEdits now d ms as previous).Stores k claim) →
      ¬Goes svc d k → c₅.members.get? k = c.members.get? k)
    {x w : Repo} (hx : x ∈ d.modified ++ d.added) (hw : w ∈ ms ++ as) (hland : c.Landed x w) :
    (∃ claim m, x.claims.get? svc.urn = some claim ∧ c₅.members.get? ⟨w.id, svc.id⟩ = some m ∧
        m.cloneUrl = claim.cloneUrl) ∧
      ∀ s, s ≠ svc.id → c₅.members.get? ⟨w.id, s⟩ = c.members.get? ⟨w.id, s⟩ := by
  have hnot := not_goes_landed hd hx hland
  constructor
  · obtain ⟨url, hown⟩ : ∃ url, x.claims.get? svc.urn = some ⟨svc.urn, url⟩ := by
      rcases List.mem_append.mp hx with hx | hx
      · obtain ⟨old, -, -, -, url, hclaims⟩ := hd.modified x hx
        refine ⟨url, ?_⟩
        rw [hclaims, Dict.get?_union, Claims.get?_solo, if_pos rfl, Option.some_or]
      · obtain ⟨-, -, url, hclaims⟩ := hd.added x hx
        refine ⟨url, ?_⟩
        rw [hclaims, Claims.get?_solo, if_pos rfl]
    have hsid : (⟨svc.urn, url⟩ : Claim).serviceId? = some svc.id :=
      Urn.serviceId?_format_of_inRange svc.kind (hsvc.range hc.furnished).2
    by_cases hstored : ∃ claim, (freshEdits now d ms as previous).Stores ⟨w.id, svc.id⟩ claim
    · obtain ⟨claim, hclaim⟩ := hstored
      obtain ⟨claim', hclaim', hget⟩ := hjoined.get?_of_stores hclaim
      obtain ⟨hservice, urn, hhas, -⟩ := (stores_fresh hc hd hp hx hw hland).mp hclaim'
      rcases get?_written hsvc hd hx hhas hservice with ⟨-, rfl⟩ | ⟨hne, -⟩
      · exact ⟨claim', _, hhas, hget, rfl⟩
      · exact absurd rfl hne
    · rw [not_exists] at hstored
      have hold : ∃ old ∈ previous, old.id = w.id ∧ ∃ first,
          old.claims.get? svc.urn = some first ∧ url = first.cloneUrl := by
        by_contra hno
        refine hstored _ ((stores_fresh hc hd hp hx hw hland).mpr ⟨hsid, svc.urn, hown, ?_⟩)
        intro old hold hid first hfirst heq
        exact hno ⟨old, hold, hid, first, hfirst, heq⟩
      obtain ⟨old, hold, hid, first, hfirst, heq⟩ := hold
      obtain ⟨m, hm, rfl⟩ := ((hd.shown old hold).get?_own hsvc).mp hfirst
      rw [hid] at hm
      exact ⟨_, m, hown, (hstays _ hstored (hnot _)).trans hm, heq.symm⟩
  · intro s hs
    refine hstays ⟨w.id, s⟩ (fun claim hclaim => ?_) (hnot s)
    obtain ⟨hservice, urn, hhas, hurl⟩ := (stores_fresh hc hd hp hx hw hland).mp hclaim
    rcases get?_written hsvc hd hx hhas hservice with ⟨heq, -⟩ | ⟨-, old, hold, hid, hhad⟩
    · exact hs heq
    · obtain ⟨row, hrow, -⟩ := hd.shown old hold
      have hne : x.id ≠ 0 := hid ▸ Int.ne_of_gt (hc.ids _ _ hrow)
      exact hurl old hold (hid.symm.trans (Placed.kept hland hne).symm) claim hhad rfl

theorem not_stores_unwritten (hd : Releases c svc previous d) {j : Int} (hj : j ≠ 0)
    (hunwritten : ∀ w ∈ ms ++ as, w.id ≠ j) (s : Int) (claim : Claim) :
    ¬(freshEdits now d ms as previous).Stores ⟨j, s⟩ claim := by
  rintro ⟨hclaim, -⟩
  have hinj : ∀ a ∈ previous, ∀ b ∈ previous, a.id = b.id → a = b :=
    fun a ha b hb => (hd.shown a ha).eq_of_id (hd.shown b hb)
  rcases (mem_stored_ofDiff hinj hj).mp hclaim with
    ⟨w, hw, hid, -⟩ | ⟨w, hw, hid, before, hbefore, hbid, hnews⟩
  · exact hunwritten w (List.mem_append_right _ hw) hid
  · rcases List.mem_append.mp hw with hw | hw
    · exact hunwritten w (List.mem_append_left _ hw) hid
    · exact not_renews_deleted hd hw hbefore (hbid.trans hid.symm) hnews

theorem not_stores_standing (hd : Feasible c svc previous d)
    (hp : Penned c c₂ d ms as c₄) {j : Int} (hj : 0 < j) {old : RepoRow}
    (hold : c.repos.get? j = some old) (hother : ∀ x ∈ d.modified ++ d.added, x.spec ≠ old.spec)
    (s : Int) (claim : Claim) : ¬(freshEdits now d ms as previous).Stores ⟨j, s⟩ claim := by
  refine not_stores_unwritten hd.toReleases (Int.ne_of_gt hj) ?_ s claim
  rintro w hw rfl
  obtain ⟨x, hx, hland⟩ := exists_of_mem_right hp.pairs hw
  exact hother x hx (Placed.home hland old hold).symm

theorem batched (hc : c.Rooted) (hsvc : c.Holds svc) (hd : Feasible c svc previous d)
    (h : Carried c previous d e) : Batched c svc d e := by
  obtain @⟨c₁, c₂, c₃, c₄, c₅, ms, as, now, hstripped, hdeleted, hmodified, hadded, hjoined,
    hvisited⟩ := h
  have hspecs : ∀ j spec, (∃ row, c₂.repos.get? j = some row ∧ row.spec = spec) ↔ _ :=
    fun j spec => spec_deleted hc hd hstripped hdeleted
  have hlast : c₂.repos.lastId = c.repos.lastId :=
    hdeleted.lastId.trans (congrArg Table.lastId hstripped.repos)
  have hp := penned hd hspecs hlast hmodified hadded
  have hkept := hadded.members.trans hmodified.members
  have hstays : ∀ k, (∀ claim, ¬(freshEdits now d ms as previous).Stores k claim) → _ :=
    fun k => member_of_not_stores hc hsvc hd hjoined hkept hstripped hdeleted
  have hbrought : ∀ x ∈ d.modified ++ d.added, ∀ w ∈ ms ++ as, c.Landed x w →
      Brought c e svc x w := by
    intro x hx w hw hland
    obtain ⟨hclaim, hothers⟩ :=
      member_of_written hc hsvc hd hp hjoined (fun k hnone => (hstays k hnone).2) hx hw hland
    rw [← hvisited.members] at hclaim hothers
    refine ⟨hland, ?_, hclaim, hothers⟩
    rw [hvisited.repos, hjoined.repos]
    exact hp.row hw
  constructor
  · exact hvisited.furnished
  · rw [hvisited.repos, hjoined.repos, ← hlast]
    exact Int.le_trans hmodified.lastId hadded.lastId
  · intro x hx
    obtain ⟨w, hw, hland⟩ := exists_of_mem_left hp.pairs hx
    exact ⟨w, hbrought x hx w hw hland⟩
  · intro j row hrow
    rw [hvisited.repos, hjoined.repos] at hrow
    rcases (hp.repos j row).mp hrow with ⟨w, hw, hid, -⟩ | ⟨hrow, hother⟩
    · obtain ⟨x, hx, hland⟩ := exists_of_mem_right hp.pairs hw
      exact .inl ⟨x, hx, w, hbrought x hx w hw hland, hid⟩
    · obtain ⟨old, hold, hspec⟩ := (hspecs j row.spec).mp ⟨row, hrow, rfl⟩
      exact .inr ⟨old, hold, hspec ▸ hother⟩
  · intro j old hold horphan
    obtain ⟨row, hrow, hdead, hspec⟩ :=
      (rows_deleted hc hd hstripped hdeleted j).1 horphan old hold
    obtain ⟨x, hx, hid, hempty⟩ := horphan
    have hother := spec_of_deleted hd hx (hid ▸ hold)
    refine ⟨⟨row, ?_, hdead, hspec⟩, fun s => ?_⟩
    · rw [hvisited.repos, hjoined.repos]
      exact (hp.repos j row).mpr (.inr ⟨hrow, hspec ▸ hother⟩)
    · rw [hvisited.members]
      exact (hstays ⟨j, s⟩ (not_stores_standing hd hp (hc.ids j old hold) hold hother s)).1
        ⟨x, hx, hid, .inl hempty⟩
  · intro j old hold hother hstanding
    refine ⟨?_, fun s => ?_⟩
    · rw [hvisited.repos, hjoined.repos]
      refine (hp.repos j old).mpr (.inr ⟨?_, hother⟩)
      rw [(rows_deleted hc hd hstripped hdeleted j).2 hstanding, hold]
    · rw [hvisited.members]
      exact hstays ⟨j, s⟩ (not_stores_standing hd hp (hc.ids j old hold) hold hother s)

end Catalog

end RepoCatalog
