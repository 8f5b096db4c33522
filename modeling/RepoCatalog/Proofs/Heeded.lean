import RepoCatalog.Proofs.Bystanders

/-!
# Edits that leave nothing out

Edits of memberships that go through leave nothing out of what names a service. A claim that names
none is refused, and with it what comes after, unless something else is refused before; but where no
claim names a service, all of them are passed over and the edits go through.
-/
namespace RepoCatalog

open MembershipEdits

/-- Which claim comes last among those that edits store under a key. -/
def MembershipEdits.Last (e : MembershipEdits) (k : MemberKey) (claim : Claim) : Prop :=
  ∃ before after, e.claims = before ++ (k.repo, claim) :: after ∧
    claim.serviceId? = some k.service ∧
    ∀ x ∈ after, x.1 = k.repo → x.2.serviceId? ≠ some k.service

namespace Catalog

variable {c d : Catalog} {e : MembershipEdits}

/-- What the catalog `d` holds if edits of `c` left out no claim that names a service. -/
structure Heeded (c : Catalog) (e : MembershipEdits) (d : Catalog) : Prop where
  put : ∀ k claim, e.Stores k claim → ∃ last, e.Last k last ∧
    d.members.get? k = some ⟨last.cloneUrl, c.ownerOf k.service⟩
  gone : ∀ k, e.drops k = true → (∀ claim, ¬e.Stores k claim) → d.members.get? k = none
  stays : ∀ k, e.drops k = false → (∀ claim, ¬e.Stores k claim) →
    d.members.get? k = c.members.get? k
  repos : d.repos = c.repos
  setting : SameSetting c d

theorem memberOf_eq_some_iff {repo : Int} {claim : Claim} {k : MemberKey} {m : Membership} :
    c.memberOf repo claim = some (k, m) ↔ repo = k.repo ∧ claim.serviceId? = some k.service ∧
      m = ⟨claim.cloneUrl, c.ownerOf k.service⟩ := by
  unfold memberOf
  rw [Option.map_eq_some_iff]
  constructor
  · rintro ⟨service, hservice, heq⟩
    cases heq
    exact ⟨rfl, hservice, rfl⟩
  · rintro ⟨rfl, hservice, rfl⟩
    exact ⟨k.service, hservice, rfl⟩

theorem last_of_get?_puts {k : MemberKey} {m : Membership}
    (h : (Dict.ofList (c.puts e)).get? k = some m) :
    ∃ last, e.Last k last ∧ m = ⟨last.cloneUrl, c.ownerOf k.service⟩ := by
  obtain ⟨before, after, hputs, hafter⟩ := Dict.last_of_get?_ofList h
  rw [puts_eq] at hputs
  obtain ⟨first, rest, hclaims, -, hrest⟩ := List.filterMap_eq_append_iff.mp hputs
  obtain ⟨skipped, ⟨repo, claim⟩, later, rfl, -, hlast, rfl⟩ := List.filterMap_eq_cons_iff.mp hrest
  obtain ⟨rfl, hservice, rfl⟩ := memberOf_eq_some_iff.mp hlast
  refine ⟨claim, ⟨first ++ skipped, later, by rw [hclaims, List.append_assoc], hservice, ?_⟩, rfl⟩
  intro x hx hrepo hsame
  have hstored : c.memberOf x.1 x.2 = some (k, ⟨x.2.cloneUrl, c.ownerOf k.service⟩) :=
    memberOf_eq_some_iff.mpr ⟨hrepo, hsame, rfl⟩
  exact hafter _ (List.mem_filterMap.mpr ⟨x, hx, hstored⟩) rfl

theorem Edited.heeded (h : Edited c e d) : Heeded c e d where
  put k claim hclaim := by
    cases hget : (Dict.ofList (c.puts e)).get? k with
    | none =>
        rw [Dict.get?_ofList_eq_none_iff] at hget
        exact absurd rfl (hget _ (mem_puts.mpr ⟨claim, hclaim, rfl⟩))
    | some m =>
        obtain ⟨last, hlast, rfl⟩ := last_of_get?_puts hget
        exact ⟨last, hlast, by rw [h.members, hget, Option.some_or]⟩
  gone k hdrops hnone := by rw [h.get?_of_not_stores hnone, if_pos hdrops]
  stays k hdrops hnone := by rw [h.get?_of_not_stores hnone, hdrops, if_neg Bool.false_ne_true]
  repos := h.repos
  setting := h.setting

/-- A claim that names no service comes before all that could be refused for another reason. -/
def Notices (c : Catalog) (claims : List (Int × Claim)) : Prop :=
  ∃ before x after, claims = before ++ x :: after ∧ x.2.serviceId? = none ∧
    ∀ y ∈ before, ∃ service, y.2.serviceId? = some service ∧ c.hasEnds ⟨y.1, service⟩ = true

theorem hindrance?_eq_none_iff {x : Int × Claim} : c.hindrance? x = none ↔
    ∃ service, x.2.serviceId? = some service ∧ c.hasEnds ⟨x.1, service⟩ = true := by
  unfold hindrance?
  cases x.2.serviceId? with
  | none => simp
  | some service => simp

theorem hindrance?_eq_unread_iff {x : Int × Claim} {claim : Claim} :
    c.hindrance? x = some claim.unread ↔ x.2.serviceId? = none ∧ x.2.unread = claim.unread := by
  unfold hindrance?
  cases x.2.serviceId? with
  | none => simp
  | some service =>
      by_cases hends : c.hasEnds ⟨x.1, service⟩ = true
      · simp [hends]
      · simp [hends, Claim.unread]

theorem notices_iff {claims : List (Int × Claim)} : c.Notices claims ↔
    ∃ x ∈ claims, x.2.serviceId? = none ∧ claims.findSome? c.hindrance? = some x.2.unread := by
  simp only [List.findSome?_eq_some_iff, hindrance?_eq_unread_iff, hindrance?_eq_none_iff]
  constructor
  · rintro ⟨before, x, after, rfl, hx, hbefore⟩
    exact ⟨x, List.mem_append_right before List.mem_cons_self, hx, before, x, after, rfl, ⟨hx, rfl⟩,
      hbefore⟩
  · rintro ⟨-, -, -, before, x, after, rfl, ⟨hx, -⟩, hbefore⟩
    exact ⟨before, x, after, rfl, hx, hbefore⟩

end Catalog

namespace Store

open Catalog

variable {s : Store}

/-- Edits are refused for a claim that names no service. -/
def Refuses (s : Store) (e : MembershipEdits) : Prop :=
  ∃ x ∈ e.claims, x.2.serviceId? = none ∧ (editMembers e s).1 = .error x.2.unread

theorem refuses_iff (hs : s.catalog.Complete) {e : MembershipEdits} : s.Refuses e ↔
    (∃ x ∈ e.claims, x.2.serviceId? ≠ none) ∧ s.catalog.Notices e.claims := by
  unfold Refuses
  rw [outcome_editMembers hs, notices_iff]
  by_cases hunread : ∀ x ∈ e.claims, x.2.serviceId? = none
  · simp only [if_pos hunread, reduceCtorEq, and_false, exists_false, false_iff]
    rintro ⟨⟨x, hx, hsome⟩, -⟩
    exact hsome (hunread x hx)
  · have hnamed : ∃ x ∈ e.claims, x.2.serviceId? ≠ none := by
      simpa only [not_forall, exists_prop] using hunread
    simp only [if_neg hunread, hnamed, true_and]
    refine exists_congr fun x => and_congr_right fun _ => and_congr_right fun _ => ?_
    cases e.claims.findSome? s.catalog.hindrance? with
    | none => simp
    | some error => simp

/-- Edits that go through leave out no claim that names a service. One that names none makes them
fail for it exactly if another one names a service and nothing else is refused before. If no claim
names a service, the edits go through. -/
theorem editMembers_heeds (hs : s.catalog.Complete) (e : MembershipEdits) :
    (∀ t, editMembers e s = (.ok (), t) → s.catalog.Heeded e t.catalog) ∧
      ((∀ x ∈ e.claims, x.2.serviceId? = none → s.Refuses e) ↔
        (∀ x ∈ e.claims, x.2.serviceId? ≠ none) ∨
          (∃ x ∈ e.claims, x.2.serviceId? ≠ none) ∧ s.catalog.Notices e.claims) ∧
      ((∀ x ∈ e.claims, x.2.serviceId? = none) → (editMembers e s).1 = .ok ()) := by
  refine ⟨fun t hrun => (editMembers_ok hs hrun).1.heeded, ⟨fun h => ?_, ?_⟩, fun hunread => ?_⟩
  · by_cases hread : ∀ x ∈ e.claims, x.2.serviceId? ≠ none
    · exact .inl hread
    · simp only [not_forall, exists_prop, ne_eq, not_not] at hread
      obtain ⟨x, hx, hnone⟩ := hread
      exact .inr ((refuses_iff hs).mp (h x hx hnone))
  · rintro (hread | hnoticed) x hx hnone
    · exact absurd hnone (hread x hx)
    · exact (refuses_iff hs).mpr hnoticed
  · rw [outcome_editMembers hs, if_pos hunread]

namespace Sample

open RepoCatalog.Sample (hub mirror entry mirrored)

/-- The host holds a repository that its mirror does not hold yet. -/
def lone : Store :=
  (createMember hub (entry "1" "alpha") mirrored.store).2

/-- The mirror takes the repository over from the host, and says another address at once. -/
def takeover : MembershipEdits :=
  { MembershipEdits.empty with
    added := .ofList [(1, [⟨mirror.urn, "first"⟩, ⟨mirror.urn, "second"⟩])]
    deleted := .ofList [(1, [⟨hub.urn, "alpha"⟩])] }

/-- The second claim names no service. -/
def spoilt : MembershipEdits :=
  { MembershipEdits.empty with added := .ofList [(1, [⟨mirror.urn, "copy"⟩, ⟨"mirror", "lost"⟩])] }

/-- The only claim names no service. -/
def nameless : MembershipEdits :=
  { MembershipEdits.empty with added := .ofList [(1, [⟨"mirror", "lost"⟩])] }

theorem complete_lone : lone.catalog.Complete := by
  intro table
  cases table <;> decide +kernel

end Sample

/-- The takeover goes through with the second address, and the spoilt edits are refused. -/
theorem editMembers_heeds_takeover :
    Sample.lone.catalog.Complete ∧
      (∃ t, editMembers Sample.takeover Sample.lone = (.ok (), t) ∧
        Sample.lone.catalog.Heeded Sample.takeover t.catalog ∧
        t.catalog.members.get? ⟨1, 1⟩ = none ∧
        t.catalog.members.get? ⟨1, 2⟩ = some ⟨"second", none⟩) ∧
      Sample.lone.Refuses Sample.spoilt := by
  obtain ⟨hheeded, -, -⟩ := editMembers_heeds Sample.complete_lone Sample.takeover
  obtain ⟨-, hrefused, -⟩ := editMembers_heeds Sample.complete_lone Sample.spoilt
  refine ⟨Sample.complete_lone, ?_, ?_⟩
  · have hok : (editMembers Sample.takeover Sample.lone).1.isOk = true := by decide +kernel
    have hleft : (editMembers Sample.takeover Sample.lone).2.catalog.members.get? ⟨1, 1⟩ = none ∧
        (editMembers Sample.takeover Sample.lone).2.catalog.members.get? ⟨1, 2⟩ =
          some ⟨"second", none⟩ := by
      decide +kernel
    obtain ⟨⟨⟩, hrun⟩ := Step.exists_of_isOk hok
    exact ⟨_, hrun, hheeded _ hrun, hleft⟩
  · have hnotices : Sample.lone.catalog.Notices Sample.spoilt.claims := by
      refine ⟨[(1, ⟨RepoCatalog.Sample.mirror.urn, "copy"⟩)], (1, ⟨"mirror", "lost"⟩), [], ?_, ?_, ?_⟩
      · decide +kernel
      · decide +kernel
      · rintro y hy
        rw [List.mem_singleton.mp hy]
        exact ⟨2, by decide +kernel, by decide +kernel⟩
    exact hrefused.mpr (.inr ⟨by decide +kernel, hnotices⟩) (1, ⟨"mirror", "lost"⟩)
      (by decide +kernel) (by decide +kernel)

/-- The nameless edits go through without a trace. -/
theorem nameless_passed_over :
    (1, ⟨"mirror", "lost"⟩) ∈ Sample.nameless.claims ∧ Claim.serviceId? ⟨"mirror", "lost"⟩ = none ∧
      ¬Sample.lone.Refuses Sample.nameless ∧
      (editMembers Sample.nameless Sample.lone).1 = .ok () ∧
      (editMembers Sample.nameless Sample.lone).2.catalog.members =
        Sample.lone.catalog.members := by
  have hok : (editMembers Sample.nameless Sample.lone).1 = .ok () := by decide +kernel
  refine ⟨by decide +kernel, by decide +kernel, ?_, hok, by decide +kernel⟩
  rintro ⟨x, -, -, herror⟩
  cases hok.symm.trans herror

end Store

end RepoCatalog
