import RepoCatalog.Proofs.Outcome

/-!
# Writes that keep the catalog tidy

Each write of a pass keeps it so that a row is live if and only if some service holds it.
-/
namespace RepoCatalog.Catalog

variable {c d : Catalog} {svc : Service}

theorem held_elsewhere (hsvc : c.Holds svc) {previous : List Repo} {diff : Diff}
    (hd : Syncer.Feasible c svc previous diff) {j : Int} (hstays : ¬Orphans diff j) {s : Int}
    (hgoes : Goes svc diff ⟨j, s⟩) :
    ∃ s' m, c.members.get? ⟨j, s'⟩ = some m ∧ ¬Goes svc diff ⟨j, s'⟩ := by
  obtain ⟨x, hx, hid, hlost⟩ := hgoes
  have hkept : x.claims.isEmpty ≠ true := fun hempty => hstays ⟨x, hx, hid, hempty⟩
  obtain ⟨old, hold, hoid, -, hclaims⟩ := hd.deleted x hx
  have herase : x.claims = old.claims.erase svc.urn := by
    refine hclaims.resolve_left fun hempty => hkept ?_
    rw [hempty]
    rfl
  obtain ⟨urn, hurn⟩ : ∃ urn, x.claims.get? urn ≠ none := by
    by_contra hnone
    refine hkept (Dict.isEmpty_iff.mpr fun urn => ?_)
    by_contra hurn
    exact hnone ⟨urn, hurn⟩
  obtain ⟨claim, hclaim⟩ := Option.ne_none_iff_exists'.mp hurn
  rw [herase, Dict.get?_erase] at hclaim
  by_cases hown : urn = svc.urn
  · rw [if_pos hown] at hclaim
    cases hclaim
  · rw [if_neg hown] at hclaim
    obtain ⟨s', m, kind, hm, hkind, hname, -⟩ := (hd.shown old hold).get?_claims.mp hclaim
    have hne : s' ≠ svc.id := by
      rintro rfl
      cases hkind.symm.trans hsvc.kindOf?
      exact hown hname
    have hsame : old.id = j := hoid.symm.trans hid
    rw [hsame] at hm
    refine ⟨s', m, hm, ?_⟩
    rintro ⟨z, hz, hzid, hempty | hs⟩
    · exact hstays ⟨z, hz, hzid, hempty⟩
    · exact hne hs

theorem Tidy.batched (hc : c.Tidy) (hsvc : c.Holds svc) {previous : List Repo} {diff : Diff}
    (hd : Syncer.Feasible c svc previous diff) (h : Batched c svc diff d) : d.Tidy := by
  refine ⟨⟨h.furnished, Int.le_trans hc.lastId h.lastId, ?_⟩, ?_⟩
  · intro j row hrow
    rcases h.origin j row hrow with ⟨x, -, w, hw, rfl⟩ | ⟨old, hold, -⟩
    · exact hw.landed.pos hc.toRooted
    · exact hc.ids j old hold
  · intro j row hrow
    rcases h.origin j row hrow with ⟨x, -, w, hw, rfl⟩ | ⟨old, hold, hother⟩
    · obtain ⟨claim, m, -, hm, -⟩ := hw.claim
      rw [hw.row] at hrow
      cases hrow
      exact ⟨fun _ => ⟨svc.id, m, hm⟩, fun _ => hw.landed.isLive⟩
    · by_cases horphan : Orphans diff j
      · obtain ⟨⟨row', hrow', hdead, -⟩, hnone⟩ := h.orphaned j old hold horphan
        cases hrow.symm.trans hrow'
        constructor
        · intro hlive
          rw [hdead] at hlive
          cases hlive
        · rintro ⟨s, m, hm⟩
          rw [hnone s] at hm
          cases hm
      · obtain ⟨hrow', hmembers⟩ := h.standing j old hold hother horphan
        cases hrow.symm.trans hrow'
        rw [hc.claimed j row hold]
        constructor
        · rintro ⟨s, m, hm⟩
          by_cases hgoes : Goes svc diff ⟨j, s⟩
          · obtain ⟨s', m', hm', hstays⟩ := held_elsewhere hsvc hd horphan hgoes
            exact ⟨s', m', ((hmembers s').2 hstays).trans hm'⟩
          · exact ⟨s, m, ((hmembers s).2 hgoes).trans hm⟩
        · rintro ⟨s, m, hm⟩
          by_cases hgoes : Goes svc diff ⟨j, s⟩
          · rw [(hmembers s).1 hgoes] at hm
            cases hm
          · exact ⟨s, m, ((hmembers s).2 hgoes).symm.trans hm⟩

theorem Tidy.joined (hc : c.Tidy) {r r' : Repo} (h : Joined c svc r r' d)
    (hlive : r.deletedAt = none) (hid : 0 ≤ r.id) : d.Tidy := by
  obtain ⟨⟨e, hsaved, hsetting, hrepos⟩, claim, -, hmembers⟩ := h
  have hpos : 0 < r'.id := by
    rw [hsaved.target]
    rcases Int.lt_or_eq_of_le hid with hpos | hzero
    · rw [targetOf_of_id (Int.ne_of_gt hpos)]
      exact hpos
    · rcases targetOf_cases c hzero.symm with hnew | ⟨row, hrow, -⟩
      · rw [hnew]
        exact Int.lt_add_one_of_le hc.lastId
      · exact hc.ids _ row hrow
  have hrow : ∀ j, d.repos.get? j = if j = r'.id then some r'.row else c.repos.get? j := by
    rw [hrepos]
    exact hsaved.repos
  have hmember : ∀ k, d.members.get? k =
      if k = ⟨r'.id, svc.id⟩ then some ⟨claim.cloneUrl, svc.owner?⟩ else c.members.get? k := by
    intro k
    rw [hmembers, Dict.get?_insert]
  refine ⟨⟨hc.furnished.of_sameSetting (hsaved.setting.trans hsetting), ?_, ?_⟩, ?_⟩
  · rw [hrepos]
    exact Int.le_trans hc.lastId hsaved.lastId
  · intro j row hj
    rw [hrow] at hj
    by_cases heq : j = r'.id
    · rw [heq]
      exact hpos
    · rw [if_neg heq] at hj
      exact hc.ids j row hj
  · intro j row hj
    rw [hrow] at hj
    by_cases heq : j = r'.id
    · subst heq
      rw [if_pos rfl] at hj
      cases hj
      constructor
      · intro _
        exact ⟨svc.id, _, (hmember _).trans (if_pos rfl)⟩
      · intro _
        have hdate : r'.deletedAt = none := by rw [hsaved.same, hlive]
        unfold Repo.row RepoRow.ofRepo RepoRow.isLive
        rw [hdate]
        rfl
    · rw [if_neg heq] at hj
      rw [hc.claimed j row hj]
      refine exists_congr fun s => exists_congr fun m => ?_
      rw [hmember, if_neg fun hk => heq (congrArg MemberKey.repo hk)]

/-- Where rows are only rewritten in place, they keep their ids. -/
theorem Rooted.rewritten (hc : c.Rooted) {f : Int → RepoRow → RepoRow} (hsetting : SameSetting c d)
    (hlast : d.repos.lastId = c.repos.lastId)
    (hrepos : ∀ j, d.repos.get? j = (c.repos.get? j).map (f j)) : d.Rooted := by
  refine ⟨hc.furnished.of_sameSetting hsetting, hlast ▸ hc.lastId, fun j row hj => ?_⟩
  rw [hrepos, Option.map_eq_some_iff] at hj
  obtain ⟨old, hold, -⟩ := hj
  exact hc.ids j old hold

theorem Tidy.deleted (hc : c.Tidy) {ids : List Int} (h : Deleted c ids d) : d.Tidy := by
  obtain ⟨now, hrepos⟩ := h.repos
  refine ⟨hc.toRooted.rewritten h.setting h.lastId hrepos, fun j row hj => ?_⟩
  rw [hrepos, Option.map_eq_some_iff] at hj
  obtain ⟨old, hold, rfl⟩ := hj
  simp only [h.members]
  by_cases hmem : j ∈ ids
  · simp only [if_pos hmem, not_isLive_bury]
    simp
  · simp only [if_neg hmem]
    exact hc.claimed j old hold

theorem Tidy.swept (hc : c.Tidy) {keep ids : List Int} (h : Swept c svc keep ids d) : d.Tidy := by
  obtain ⟨now, hrepos⟩ := h.repos
  refine ⟨hc.toRooted.rewritten h.setting h.lastId hrepos, fun j row hj => ?_⟩
  rw [hrepos, Option.map_eq_some_iff] at hj
  obtain ⟨old, hold, rfl⟩ := hj
  rw [← isClaimed_iff]
  by_cases hmem : j ∈ ids
  · have hlive : old.isLive = true := by
      obtain ⟨⟨m, hm⟩, -⟩ := (h.taken j).mp hmem
      exact (hc.claimed j old hold).mpr ⟨svc.id, m, hm⟩
    by_cases hclaimed : d.isClaimed j = true
    · simp only [hmem, hclaimed, hlive, true_and, Bool.true_eq_false, if_false]
    · rw [Bool.not_eq_true] at hclaimed
      simp only [hmem, hclaimed, and_self, if_true, not_isLive_bury]
  · have hsame : d.isClaimed j = true ↔ ∃ s m, c.members.get? ⟨j, s⟩ = some m := by
      rw [isClaimed_iff]
      refine exists_congr fun s => exists_congr fun m => ?_
      rw [h.members, if_neg fun hk => hmem hk.2]
    simp only [hmem, false_and, if_false, hsame]
    exact hc.claimed j old hold

theorem Tidy.visited (hc : c.Tidy) (h : Visited c d) : d.Tidy := by
  refine ⟨⟨h.furnished, ?_, ?_⟩, ?_⟩
  · rw [h.repos]
    exact hc.lastId
  · rw [h.repos]
    exact hc.ids
  · rw [h.repos, h.members]
    exact hc.claimed

end RepoCatalog.Catalog
