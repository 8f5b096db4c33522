import RepoCatalog.Proofs.Bystanders

/-!
# What others come to hold

A service that brings up a repository gives other services nothing to hold, with one exception: if
a row that has the name is taken over for an identity that no row has yet, whoever held the row
holds the new identity from then on.
-/
namespace RepoCatalog

open Step

namespace Catalog

open Effect Syncer

variable {c d : Catalog} {svc : Service} {r : Repo} {s : Int} {spec : Spec}

/-- The service holds a live row of this identity. -/
def HoldsSpec (c : Catalog) (s : Int) (spec : Spec) : Prop :=
  ∃ j row m, c.repos.get? j = some row ∧ row.isLive = true ∧
    c.members.get? ⟨j, s⟩ = some m ∧ row.spec = spec

/-- A live row that the service holds has the name of the repository, and no row has its
identity. -/
def TakenOver (c : Catalog) (s : Int) (r : Repo) : Prop :=
  (∃ j row m, c.repos.get? j = some row ∧ row.isLive = true ∧ row.nameKey = r.lowerName ∧
    c.members.get? ⟨j, s⟩ = some m) ∧
    ∀ j row, c.repos.get? j = some row → row.spec ≠ r.spec

theorem Told.taken_over {rival existing : Option Repo} (h : Told c r rival existing) {i : Int}
    {row : RepoRow} (hrow : c.repos.get? i = some row) (hlive : row.isLive = true)
    (hkey : row.nameKey = r.lowerName) (hnew : ∀ j row, c.repos.get? j = some row →
      row.spec ≠ r.spec) : (∃ x, existing = some x ∧ x.id = i) ∧ rival = none := by
  have hfirst : ∀ e, existing = some e → e.id = i := by
    intro e he
    obtain ⟨own, hown, hmeets, -⟩ := h.own e he
    obtain ⟨hownLive, hownKey⟩ := (meets_iff.mp hmeets).resolve_right (hnew e.id own hown)
    exact nameKey_inj hown hrow hownLive hlive (hownKey.trans hkey.symm)
  have hnone : rival = none := by
    rw [Option.eq_none_iff_forall_ne_some]
    intro x hx
    obtain ⟨⟨own, hown, hownLive, hownKey, -⟩, e, he, hne⟩ := h.other x hx
    refine hne ((hfirst e he).trans ?_)
    exact nameKey_inj hrow hown hlive hownLive (hkey.trans hownKey.symm)
  refine ⟨(h.all i row hrow (meets_iff.mpr (.inl ⟨hlive, hkey⟩))).resolve_right ?_, hnone⟩
  rintro ⟨x, hx, -⟩
  rw [hnone] at hx
  cases hx

section
variable {j : Int} {out : List Int}

theorem Seated.holdsSpec_or (h : Seated c svc r j out d) (hother : s ≠ svc.id)
    (hafter : d.HoldsSpec s spec) :
    c.HoldsSpec s spec ∨ spec = r.spec ∧ ∃ m, c.members.get? ⟨j, s⟩ = some m := by
  obtain ⟨i, row, m, hrow, hlive, hm, hspec⟩ := hafter
  by_cases hout : i ∈ out
  · obtain ⟨⟨dead, hdead, hgone⟩, -⟩ := h.gone i hout
    cases hrow.symm.trans hdead
    cases hgone.symm.trans hlive
  have hbefore : c.members.get? ⟨i, s⟩ = some m := by
    rw [← h.members ⟨i, s⟩ (fun hk => hother (congrArg MemberKey.service hk)) hout]
    exact hm
  by_cases hi : i = j
  · subst hi
    obtain ⟨row', hrow', -, -, hown⟩ := h.stands.row
    cases hrow.symm.trans hrow'
    exact .inr ⟨hspec.symm.trans hown, m, hbefore⟩
  · exact .inl ⟨i, row, m, (h.rows i hi hout).symm.trans hrow, hlive, hbefore, hspec⟩

theorem Seated.spec_eq (h : Seated c svc r j out d) {k : Int} {row : RepoRow}
    (hrow : c.repos.get? k = some row) (hspec : row.spec = r.spec) : k = j := by
  by_contra hk
  by_cases hout : k ∈ out
  · obtain ⟨-, old, hold, -, -, hdiffers⟩ := h.room k hout
    cases hrow.symm.trans hold
    exact hdiffers hspec
  · obtain ⟨row', hrow', -, -, hown⟩ := h.stands.row
    exact hk (spec_inj ((h.rows k hk hout).trans hrow) hrow' (hspec.trans hown.symm))

theorem Seated.holdsSpec (h : Seated c svc r j out d) (hc : c.Tidy) (hother : s ≠ svc.id)
    (hnone : ¬c.TakenOver s r) (hafter : d.HoldsSpec s spec) : c.HoldsSpec s spec := by
  rcases h.holdsSpec_or hother hafter with hbefore | ⟨rfl, m, hm⟩
  · exact hbefore
  obtain ⟨old, hold⟩ := repo_of_member hm
  have hlive : old.isLive = true := (hc.claimed j old hold).mpr ⟨s, m, hm⟩
  refine ⟨j, old, m, hold, hlive, hm, ?_⟩
  by_contra hchanged
  obtain ⟨-, hkey⟩ := (meets_iff.mp (h.origin old hold)).resolve_right hchanged
  refine hnone ⟨⟨j, old, m, hold, hlive, hkey, hm⟩, fun k row hrow hspec => hchanged ?_⟩
  rw [h.spec_eq hrow hspec, hold] at hrow
  cases hrow
  exact hspec

end

/-- What other services come to hold by the sync of a repository is its identity at most, and
nothing at all unless a row that they hold is taken over for it. -/
theorem sync_gives_others_nothing_iff {y : Syncer} {w w' : World} {diff : Diff}
    (hc : Reachable Repo.ListedBy w.store.catalog) (hr : r.ListedBy svc)
    (hspec : r.spec.isEmpty = false) (hrun : y.sync svc r w = (.ok diff, w')) (hother : s ≠ svc.id) :
    (∀ spec, w'.store.catalog.HoldsSpec s spec → w.store.catalog.HoldsSpec s spec ∨ spec = r.spec) ∧
    ((∀ spec, w'.store.catalog.HoldsSpec s spec → w.store.catalog.HoldsSpec s spec) ↔
      ¬w.store.catalog.TakenOver s r) := by
  obtain ⟨url, hclaims⟩ := hr.claims
  have hclaim : r.claims.get? svc.urn = some ⟨svc.urn, url⟩ := by
    rw [hclaims, Claims.get?_solo, if_pos rfl]
  obtain ⟨rival, existing, j, htold, hown, hseated, -⟩ :=
    sync_told hc.tidy.furnished hr.live hspec hclaim hrun
  refine ⟨fun spec hafter => (hseated.holdsSpec_or hother hafter).imp_right And.left,
    fun hall htaken => ?_, fun hnone spec => hseated.holdsSpec hc.tidy hother hnone⟩
  obtain ⟨⟨i, row, m, hrow, hlive, hkey, hm⟩, hnew⟩ := htaken
  obtain ⟨⟨x, hx, hid⟩, hrival⟩ := htold.taken_over hrow hlive hkey hnew
  have hij : i = j := hid.symm.trans (hown x hx)
  obtain ⟨now, hnow, hnowLive, -, hnowSpec⟩ := hseated.stands.row
  have hkept : w'.store.catalog.members.get? ⟨j, s⟩ = some m := by
    rw [hseated.members ⟨j, s⟩ (fun hk => hother (congrArg MemberKey.service hk)) (by simp [hrival]),
      ← hij]
    exact hm
  obtain ⟨k, old, -, hold, -, -, hsame⟩ := hall r.spec ⟨j, now, m, hnow, hnowLive, hkept, hnowSpec⟩
  exact hnew k old hold hsame

end Catalog

namespace Sample

/-- The host and its mirror, once the mirror has brought up its copy of a repository. -/
def copied : World :=
  ((syncer []).perform (.sync mirror (copy "1" "alpha")) mirrored).2

theorem copied_reachable : Catalog.Reachable Repo.ListedBy copied.store.catalog :=
  .pass _ _ (.start rfl rfl furnished_mirrored) ⟨rfl, rfl, "alpha", rfl⟩

theorem copied_rows : ∀ j row, copied.store.catalog.repos.get? j = some row →
    row.spec = (copy "1" "alpha").spec := by
  have hall : copied.store.catalog.repos.toList.all
      (fun e => e.2.spec == (copy "1" "alpha").spec) = true := by decide
  intro j row hrow
  exact beq_iff_eq.mp (List.all_eq_true.mp hall _ (Table.get?_eq_some_iff.mp hrow))

end Sample

namespace Catalog

open Effect Syncer

/-- The host joins the mirror in what it holds and takes nothing over. -/
theorem sync_gives_others_nothing_shared :
    let r := Sample.entry "1" "alpha"
    Reachable Repo.ListedBy Sample.copied.store.catalog ∧ r.ListedBy Sample.hub ∧
      r.spec.isEmpty = false ∧ Sample.mirror.id ≠ Sample.hub.id ∧
      ∃ d w', (Sample.syncer []).sync Sample.hub r Sample.copied = (.ok d, w') ∧
        ∀ spec, w'.store.catalog.HoldsSpec Sample.mirror.id spec →
          Sample.copied.store.catalog.HoldsSpec Sample.mirror.id spec := by
  intro r
  have hlisted : r.ListedBy Sample.hub := Sample.entry_listedBy "1" "alpha"
  have hok : ((Sample.syncer []).sync Sample.hub r Sample.copied).1.isOk = true := by decide
  have hrow : (Sample.copied.store.catalog.repos.get? 1).isSome = true := by decide
  obtain ⟨row, hrow⟩ := Option.isSome_iff_exists.mp hrow
  refine ⟨Sample.copied_reachable, hlisted, rfl, by decide, ?_⟩
  cases hrun : (Sample.syncer []).sync Sample.hub r Sample.copied with
  | mk outcome w' =>
      rw [hrun] at hok
      cases outcome with
      | error e => cases hok
      | ok d =>
          refine ⟨d, w', rfl, (sync_gives_others_nothing_iff (s := Sample.mirror.id)
            Sample.copied_reachable hlisted rfl hrun (by decide)).2.mpr ?_⟩
          rintro ⟨-, hnew⟩
          exact hnew 1 row hrow (Sample.copied_rows 1 row hrow)

/-- The mirror comes to hold an identity that it never listed, when the host lists it under the name
of the copy. -/
theorem sync_gives_mirror_identity :
    let r := Sample.entry "2" "alpha"
    Reachable Repo.ListedBy Sample.copied.store.catalog ∧ r.ListedBy Sample.hub ∧
      r.spec.isEmpty = false ∧ Sample.mirror.id ≠ Sample.hub.id ∧
      ∃ d w', (Sample.syncer []).sync Sample.hub r Sample.copied = (.ok d, w') ∧
        w'.store.catalog.HoldsSpec Sample.mirror.id r.spec ∧
        ¬Sample.copied.store.catalog.HoldsSpec Sample.mirror.id r.spec := by
  intro r
  have hok : ((Sample.syncer []).sync Sample.hub r Sample.copied).1.isOk = true := by decide
  have hafter : ((((Sample.syncer []).sync Sample.hub r Sample.copied).2.store.catalog.repos.get?
        1).map fun row => (row.isLive, row.spec)) = some (true, r.spec) ∧
      (((Sample.syncer []).sync Sample.hub r Sample.copied).2.store.catalog.members.get?
        ⟨1, Sample.mirror.id⟩).isSome = true := by decide
  refine ⟨Sample.copied_reachable, Sample.entry_listedBy "2" "alpha", rfl, by decide, ?_⟩
  cases hrun : (Sample.syncer []).sync Sample.hub r Sample.copied with
  | mk outcome w' =>
      rw [hrun] at hok hafter
      obtain ⟨hrow, hmember⟩ := hafter
      obtain ⟨row, hrow, hsame⟩ := Option.map_eq_some_iff.mp hrow
      obtain ⟨hlive, hspec⟩ := Prod.mk.inj hsame
      obtain ⟨m, hm⟩ := Option.isSome_iff_exists.mp hmember
      cases outcome with
      | error e => cases hok
      | ok d =>
          refine ⟨d, w', rfl, ⟨1, row, m, hrow, hlive, hm, hspec⟩, ?_⟩
          rintro ⟨j, old, -, hold, -, -, hsame⟩
          have hid : "1" = "2" := congrArg Spec.id ((Sample.copied_rows j old hold).symm.trans hsame)
          exact absurd hid (by decide)

end Catalog

end RepoCatalog
