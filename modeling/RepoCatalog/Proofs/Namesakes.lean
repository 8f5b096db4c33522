import RepoCatalog.Proofs.Unhindered

/-!
# Live repositories of one name

The catalog tells names apart by the case of basic letters, and a listed repository looks for its
name in full lower case. Where the two notions of case disagree on a name, its holder is not found,
and a second live row comes to have the name. Where they agree, no two live rows ever do.
-/
namespace RepoCatalog

open Step

namespace Catalog

open Syncer

/-- No two live rows have names that differ in nothing but case. -/
def NamesApart (c : Catalog) : Prop :=
  ∀ i j a b, c.repos.get? i = some a → c.repos.get? j = some b → a.isLive = true →
    b.isLive = true → Text.lowerCase a.name = Text.lowerCase b.name → i = j

theorem get?_entry (id name : String) : (Sample.entry id name).claims.get? Sample.hub.urn =
    some ⟨Sample.hub.urn, name⟩ :=
  (Claims.get?_solo _ _ _).trans (if_pos rfl)

/-- What a catalog holds that holds one row only. -/
structure Sole (c : Catalog) (i : Int) (a : RepoRow) : Prop where
  row : c.repos.get? i = some a
  live : a.isLive = true
  only : ∀ j row, c.repos.get? j = some row → row = a

theorem exists_sole (s : String) : ∃ (v : World) (i : Int) (a : RepoRow), v.Calm ∧
    Reachable (fun svc r => r.ListedBy svc ∧ r.name = s) v.store.catalog ∧
    SameSetting Sample.base.store.catalog v.store.catalog ∧ Sole v.store.catalog i a ∧
    a.name = s ∧ a.spec = (Sample.entry "1" s).spec := by
  let y := Sample.syncer []
  have hempty : ∀ j row, Sample.base.store.catalog.repos.get? j ≠ some row := by
    intro j row hrow
    cases hrow
  have hstart : Reachable Repo.ListedBy Sample.base.store.catalog :=
    .start rfl rfl Sample.furnished_base
  obtain ⟨d, v, hsync, hv⟩ := sync_goes (r := Sample.entry "1" s) (w := Sample.base) ⟨rfl, rfl⟩
    hstart.rooted rfl rfl (by rw [get?_entry]; rfl) (fun j row hrow => absurd hrow (hempty j row)) y
  obtain ⟨i, out, hseated, -⟩ := sync_seated Sample.furnished_base rfl rfl (get?_entry _ _) hsync
  obtain ⟨a, ha, hlive, hname, hspec⟩ := hseated.stands.row
  refine ⟨v, i, a, hv, ?_, hseated.setting, ⟨ha, hlive, fun j row hrow => ?_⟩, hname, hspec⟩
  · have hafter : (y.perform (.sync Sample.hub (Sample.entry "1" s)) Sample.base).2 = v := by
      rw [snd_perform_sync, hsync]
    rw [← hafter]
    exact .pass y _ (.start rfl rfl Sample.furnished_base) ⟨Sample.entry_listedBy _ _, rfl⟩
  · by_cases hj : j = i
    · rw [hj, ha] at hrow
      exact (Option.some.inj hrow).symm
    · have hstays : j ∉ out := by
        intro hout
        obtain ⟨-, old, hold, -⟩ := hseated.room j hout
        exact hempty j old hold
      rw [hseated.rows j hj hstays] at hrow
      exact absurd hrow (hempty j row)

/-- Of two names that differ in nothing but case, the one that is not found under its key lets the
other one in beside it. -/
theorem exists_namesakes {s t : String} (hcase : Text.lowerCase s = Text.lowerCase t)
    (hlost : Text.Ascii.lower s ≠ Text.lowerCase t)
    (hfold : Text.Ascii.lower s ≠ Text.Ascii.lower t) :
    ∃ c, Reachable (fun svc r => r.ListedBy svc ∧ (r.name = s ∨ r.name = t)) c ∧
      ¬c.NamesApart := by
  obtain ⟨v, i, a, hv, hreach, hsetting, hsole, haname, haspec⟩ := exists_sole s
  let y := Sample.syncer []
  let r := Sample.entry "2" t
  have hs := Sample.furnished_base.of_sameSetting hsetting
  have hkey : a.nameKey = Text.Ascii.lower s := congrArg Text.Ascii.lower haname
  have hmissed : ∀ j row, v.store.catalog.repos.get? j = some row → meets r row = false := by
    intro j row hrow
    rw [hsole.only j row hrow]
    refine meets_eq_false (hkey ▸ hlost) ?_
    rw [haspec]
    intro h
    have hid : "1" = "2" := congrArg Spec.id h
    exact absurd hid (by decide)
  have hheld : v.store.catalog.services.contains Sample.hub.id = true := by
    rw [hsetting.services]
    rfl
  have hfinds : v.store.catalog.Finds r := by
    intro j row hrow _ hname
    rw [hsole.only j row hrow, hkey] at hname
    exact (hfold hname).elim
  obtain ⟨d, u, hsync, -⟩ :=
    sync_goes (r := r) hv hreach.rooted hheld rfl (by rw [get?_entry]; rfl) hfinds y
  obtain ⟨j, out, hseated, -⟩ := sync_seated hs rfl rfl (get?_entry _ _) hsync
  obtain ⟨b, hb, hblive, hbname, -⟩ := hseated.stands.row
  have hne : i ≠ j := by
    rintro rfl
    have hmeets := hseated.origin a hsole.row
    rw [hmissed _ a hsole.row] at hmeets
    cases hmeets
  have hstays : i ∉ out := by
    intro hout
    obtain ⟨-, old, hold, hlive, hname, -⟩ := hseated.room i hout
    have hmeets : meets r old = true := meets_iff.mpr (.inl ⟨hlive, hname⟩)
    rw [hmissed _ old hold] at hmeets
    cases hmeets
  refine ⟨u.store.catalog, ?_, fun hapart => hne ?_⟩
  · have hafter : (y.perform (.sync Sample.hub r) v).2 = u := by
      rw [snd_perform_sync, hsync]
    rw [← hafter]
    exact .pass y _ (hreach.mono fun _ _ h => ⟨h.1, .inl h.2⟩) ⟨Sample.entry_listedBy _ _, .inr rfl⟩
  · refine hapart i j a b ((hseated.rows i hne hstays).trans hsole.row) hb hsole.live hblive ?_
    rw [haname, hbname]
    exact hcase

/-- Whatever is listed, no two live rows ever have names that differ in nothing but case, if and
only if the full lower case of names that are listed tells no less apart than the case folding of
the catalog does. -/
theorem namesApart_iff {p : String → Prop} :
    (∀ c, Reachable (fun _ r => p r.name) c → c.NamesApart) ↔
      ∀ s t, p s → p t → Text.lowerCase s = Text.lowerCase t →
        Text.Ascii.lower s = Text.Ascii.lower t := by
  constructor
  · intro hall s t hs ht hcase
    by_contra hfold
    have hnone : ∀ s t, p s → p t → Text.lowerCase s = Text.lowerCase t →
        Text.Ascii.lower s ≠ Text.Ascii.lower t → Text.Ascii.lower s = Text.lowerCase t := by
      intro s t hs ht hcase hfold
      by_contra hlost
      obtain ⟨c, hreach, hclash⟩ := exists_namesakes hcase hlost hfold
      refine hclash (hall c (hreach.mono ?_))
      rintro svc r ⟨-, rfl | rfl⟩
      · exact hs
      · exact ht
    have hone := hnone s t hs ht hcase hfold
    have hother := hnone t s ht hs hcase.symm (Ne.symm hfold)
    exact hfold (hone.trans (hcase.symm.trans hother.symm))
  · intro hfold c hreach i j a b ha hb hla hlb hcase
    have hnamed := hreach.named
    exact nameKey_inj ha hb hla hlb (hfold _ _ (hnamed.names i a ha) (hnamed.names j b hb) hcase)

end Catalog

namespace Sample

/-- The site once the host has brought up a name with an accented letter, first in upper case. -/
def accented : World :=
  ((syncer []).perform (.sync hub (entry "2" "é"))
    ((syncer []).perform (.sync hub (entry "1" "É")) base).2).2

end Sample

namespace Catalog

/-- The second of two names that differ in nothing but the case of an accented letter is let in
beside the first. -/
theorem live_namesakes : Reachable Repo.ListedBy Sample.accented.store.catalog ∧
    ¬Sample.accented.store.catalog.NamesApart := by
  have hreach : Reachable Repo.ListedBy Sample.accented.store.catalog :=
    .pass _ _ (.pass _ _ (.start rfl rfl Sample.furnished_base) (Sample.entry_listedBy "1" "É"))
      (Sample.entry_listedBy "2" "é")
  have hrows : ((Sample.accented.store.catalog.repos.get? 1).map fun row => (row.name, row.isLive)) =
        some ("É", true) ∧
      ((Sample.accented.store.catalog.repos.get? 2).map fun row => (row.name, row.isLive)) =
        some ("é", true) ∧ Text.lowerCase "É" = Text.lowerCase "é" := by decide
  obtain ⟨hfirst, hsecond, hcase⟩ := hrows
  obtain ⟨a, ha, haname⟩ := Option.map_eq_some_iff.mp hfirst
  obtain ⟨b, hb, hbname⟩ := Option.map_eq_some_iff.mp hsecond
  obtain ⟨hna, hla⟩ := Prod.mk.inj haname
  obtain ⟨hnb, hlb⟩ := Prod.mk.inj hbname
  refine ⟨hreach, fun hapart => absurd (hapart 1 2 a b ha hb hla hlb ?_) (by decide)⟩
  rw [hna, hnb]
  exact hcase

end Catalog

end RepoCatalog
