import RepoCatalog.Proofs.Early
import RepoCatalog.Proofs.Followed
import RepoCatalog.Proofs.Standing
import RepoCatalog.Proofs.Success

/-!
# What early insertion comes to

A catalog that is ahead of another one has some rows more, each of which stands for an entry that
met nobody before. Winners and obstacles are the same in both, and a batch leaves the same live
repositories with the same holders.
-/
namespace RepoCatalog

open Step
open Time (Duration Instant)

namespace Catalog

variable {c d e : Catalog} {svc : Service} {sourced rs : List Repo}

/-- The catalog `d` is ahead of `c` with some of the entries of a listing. -/
structure Ahead (c : Catalog) (svc : Service) (rs : List Repo) (d : Catalog) : Prop where
  kept : ∀ j row, c.repos.get? j = some row → row.isLive = true →
    d.repos.get? j = some row ∧ d.members.get? ⟨j, svc.id⟩ = c.members.get? ⟨j, svc.id⟩
  others : ∀ k, k.service ≠ svc.id → d.members.get? k = c.members.get? k
  origin : ∀ j row, d.repos.get? j = some row → row.isLive = true →
    c.repos.get? j = some row ∨
      ∃ r ∈ rs, (∀ k old, c.repos.get? k = some old → old.isLive = true → meets r old = false) ∧
        d.Stands svc r j

theorem Ahead.refl (c : Catalog) (svc : Service) (rs : List Repo) : c.Ahead svc rs c :=
  ⟨fun _ _ hrow _ => ⟨hrow, rfl⟩, fun _ _ => rfl, fun _ _ hrow _ => .inl hrow⟩

theorem Ahead.mono (h : c.Ahead svc rs d) (hsub : ∀ r ∈ rs, r ∈ sourced) :
    c.Ahead svc sourced d :=
  ⟨h.kept, h.others, fun j row hrow hlive => (h.origin j row hrow hlive).imp_right
    fun ⟨r, hr, hnew⟩ => ⟨r, hsub r hr, hnew⟩⟩

theorem Ahead.stands {j : Int} {r : Repo} (h : c.Ahead svc rs d) (hstands : c.Stands svc r j) :
    d.Stands svc r j := by
  obtain ⟨row, m, hrow, hlive, hm, hface⟩ := hstands
  obtain ⟨hrow', hm'⟩ := h.kept j row hrow hlive
  exact ⟨row, m, hrow', hlive, hm'.trans hm, hface⟩

theorem Ahead.trans (h : c.Ahead svc rs d) (h' : d.Ahead svc rs e) : c.Ahead svc rs e := by
  refine ⟨fun j row hrow hlive => ?_, fun k hk => (h'.others k hk).trans (h.others k hk),
    fun j row hrow hlive => ?_⟩
  · obtain ⟨hrow', hm⟩ := h.kept j row hrow hlive
    obtain ⟨hrow'', hm'⟩ := h'.kept j row hrow' hlive
    exact ⟨hrow'', hm'.trans hm⟩
  · rcases h'.origin j row hrow hlive with hrow' | ⟨r, hr, hnew, hstands⟩
    · exact (h.origin j row hrow' hlive).imp_right fun ⟨r, hr, hnew, hstands⟩ =>
        ⟨r, hr, hnew, h'.stands hstands⟩
    · exact .inr ⟨r, hr, fun k old hold hlive' => hnew k old (h.kept k old hold hlive').1 hlive',
        hstands⟩

theorem Joined.ahead {y : Syncer} {r x : Repo}
    (h : Joined c svc { y.asNew r with deletedAt := none } x d) (hwelcome : c.Welcomes r)
    (hr : r ∈ rs) : c.Ahead svc rs d := by
  refine ⟨fun j row hrow hlive => ?_, fun k hk => h.member_of_ne ?_, fun j row hrow hlive => ?_⟩
  · obtain ⟨hrow', hmembers⟩ := h.kept hwelcome hrow hlive
    exact ⟨hrow', hmembers svc.id⟩
  · rintro rfl
    exact hk rfl
  · by_cases hj : j = x.id
    · exact .inr ⟨r, hr, hwelcome.new, hj ▸ h.stands_new⟩
    · exact .inl ((h.row_of_ne hj).symm.trans hrow)

theorem Ahead.cases (h : c.Ahead svc rs d) (hc : c.Tidy) {j : Int} {row : RepoRow}
    (hrow : d.repos.get? j = some row) (hlive : row.isLive = true) :
    c.repos.get? j = some row ∨ ∃ r ∈ rs,
      (∀ k old, c.repos.get? k = some old → old.isLive = true → meets r old = false) ∧
      row.name = r.name ∧ row.spec = r.spec ∧
      ∀ s, s ≠ svc.id → d.members.get? ⟨j, s⟩ = none := by
  refine (h.origin j row hrow hlive).imp_right fun ⟨r, hr, hnew, hstands⟩ => ?_
  obtain ⟨row', hrow', -, hname, hspec⟩ := hstands.row
  cases hrow.symm.trans hrow'
  refine ⟨r, hr, hnew, hname, hspec, fun s hs => ?_⟩
  rw [h.others ⟨j, s⟩ hs, Option.eq_none_iff_forall_ne_some]
  intro m hm
  obtain ⟨old, hold⟩ := repo_of_member hm
  have holdlive := (hc.claimed j old hold).mpr ⟨s, m, hm⟩
  cases hrow.symm.trans (h.kept j old hold holdlive).1
  cases (hnew j row hold hlive).symm.trans (meets_iff.mpr (.inr hspec))

theorem Ahead.isHeld (h : c.Ahead svc rs d) {j : Int} {row : RepoRow}
    (hrow : c.repos.get? j = some row) (hlive : row.isLive = true) :
    d.isHeld svc.id j = c.isHeld svc.id j :=
  congrArg Option.isSome (h.kept j row hrow hlive).2

end Catalog

namespace Syncer

open Effect Catalog

variable {y : Syncer} {svc : Service} {sourced : List Repo} {w v : World}

theorem Sown.ahead {known : List Spec} (h : Sown y svc sourced known w v) :
    w.store.catalog.Ahead svc sourced v.store.catalog := by
  induction h with
  | nil known w => exact .refl _ _ _
  | known hknown hrest ih => exact ih.mono fun r => List.mem_cons_of_mem _
  | next hnew hinserted hrest ih =>
      refine Ahead.trans ?_ (ih.mono fun r => List.mem_cons_of_mem _)
      cases hinserted with
      | sown hwelcome hjoined => exact hjoined.ahead hwelcome List.mem_cons_self
      | held hnot hsame hquiet =>
          rw [hsame]
          exact .refl _ _ _

/-- Whether or not anything is inserted early, reading a listing only leads ahead. -/
theorem ahead_reading (hw : w.Calm) (hc : w.store.catalog.Rooted)
    (hsvc : w.store.catalog.Holds svc) (howner : svc.owner? = none)
    (hsource : y.sourceOf svc = .ok (sourced.map .ok)) (hlisted : ∀ r ∈ sourced, r.ListedBy svc)
    (hnames : ∀ r ∈ sourced, Text.IsAscii r.name) :
    w.store.catalog.Ahead svc sourced (y.reading svc w).2.store.catalog := by
  cases hinsert : y.settings.streamingInsert with
  | false =>
      rw [show (y.reading svc w).2.store = w.store from still_reading hinsert svc w]
      exact .refl _ _ _
  | true =>
      obtain ⟨known, -, hsown⟩ := sown_reading (ready_of_listed hw hc hsvc hlisted hnames) howner
        hinsert hsource
      exact hsown.ahead

section

variable {c d : Catalog} {r : Repo}

theorem winner_of_ahead (h : c.Ahead svc sourced d) :
    Winner d svc sourced r ↔ Winner c svc sourced r := by
  constructor
  · refine fun hr => ⟨hr.leads, fun j row hrow hlive hkey hlt => ?_⟩
    obtain ⟨hrow', hm⟩ := h.kept j row hrow hlive
    rw [← hm]
    exact hr.free j row hrow' hlive hkey hlt
  · refine fun hr => ⟨hr.leads, fun j row hrow hlive hkey hlt => ?_⟩
    rcases h.origin j row hrow hlive with hrow' | ⟨x, hx, -, hstands⟩
    · rw [(h.kept j row hrow' hlive).2]
      exact hr.free j row hrow' hlive hkey hlt
    · obtain ⟨row', hrow', -, -, hspec⟩ := hstands.row
      cases hrow.symm.trans hrow'
      exact .inr ⟨x, hx, hspec.symm⟩

theorem Obstacle.ahead {j : Int} {row : RepoRow} (h : c.Ahead svc sourced d)
    (hobs : Obstacle c svc sourced r j row) : Obstacle d svc sourced r j row := by
  obtain ⟨hrow, hm⟩ := h.kept j row hobs.found hobs.live
  refine ⟨(winner_of_ahead h).mpr hobs.winner, hrow, hobs.live, hobs.name, hobs.other, ?_⟩
  rcases hobs.stands with ⟨hheld, hunlisted, s, m, hs, hm'⟩ |
    @⟨x, k, own, hrival, hspec, hown, hownlive, hownspec, hbefore⟩
  · rw [← hm] at hheld
    rw [← h.others ⟨j, s⟩ hs] at hm'
    exact .kept hheld hunlisted ⟨s, m, hs, hm'⟩
  · refine .later ((winner_of_ahead h).mpr hrival) hspec (h.kept k own hown hownlive).1 hownlive
      hownspec ?_
    unfold Before at hbefore ⊢
    rwa [h.isHeld hown hownlive, h.isHeld hobs.found hobs.live]

/-- What stands in the way of a winner did so before: no row that came in addition has the name of a
winner of another identity, and an entry that met nobody has no obstacle. -/
theorem Obstacle.of_ahead {j : Int} {row : RepoRow} (h : c.Ahead svc sourced d) (hc : c.Tidy)
    (hwell : ∀ r ∈ sourced, r.WellFormed svc)
    (hapart : ∀ a ∈ sourced, ∀ b ∈ sourced, a.spec = b.spec → a = b)
    (hobs : Obstacle d svc sourced r j row) : Obstacle c svc sourced r j row := by
  have hwinner := (winner_of_ahead h).mp hobs.winner
  rcases h.cases hc hobs.found hobs.live with hrow | ⟨x, hx, -, hname, hspec, -⟩
  · refine ⟨hwinner, hrow, hobs.live, hobs.name, hobs.other, ?_⟩
    rcases hobs.stands with ⟨hheld, hunlisted, s, m, hs, hm⟩ |
      @⟨x, k, own, hrival, hspec, hown, hownlive, hownspec, hbefore⟩
    · rw [(h.kept j row hrow hobs.live).2] at hheld
      rw [h.others ⟨j, s⟩ hs] at hm
      exact .kept hheld hunlisted ⟨s, m, hs, hm⟩
    · rcases h.cases hc hown hownlive with hown' | ⟨z, hz, hnew, -, hzspec, -⟩
      · refine .later ((winner_of_ahead h).mp hrival) hspec hown' hownlive hownspec ?_
        unfold Before at hbefore ⊢
        rwa [h.isHeld hown' hownlive, h.isHeld hrow hobs.live] at hbefore
      · cases hapart z hz r hwinner.leads.mem (hzspec.symm.trans hownspec)
        cases (hnew j row hrow hobs.live).symm.trans (meets_iff.mpr (.inl ⟨hobs.live, hobs.name⟩))
  · rcases hobs.stands with ⟨-, hunlisted, -⟩ | @⟨z, -, -, hrival, hzspec, -⟩
    · exact (hunlisted x hx hspec.symm).elim
    · cases hapart z hrival.leads.mem x hx (hzspec.trans hspec)
      have hsame : x.lowerName = r.lowerName :=
        (nameKey_of_name (hwell x hx).name hname).symm.trans hobs.name
      cases hrival.leads.eq_of_name hwinner.leads hsame
      exact (hobs.other hspec).elim

theorem obstructed_of_ahead (h : c.Ahead svc sourced d) (hc : c.Tidy)
    (hwell : ∀ r ∈ sourced, r.WellFormed svc)
    (hapart : ∀ a ∈ sourced, ∀ b ∈ sourced, a.spec = b.spec → a = b) :
    Obstructed d svc sourced ↔ Obstructed c svc sourced :=
  ⟨fun ⟨r, j, row, hobs⟩ => ⟨r, j, row, hobs.of_ahead h hc hwell hapart⟩,
    fun ⟨r, j, row, hobs⟩ => ⟨r, j, row, hobs.ahead h⟩⟩

end

section

variable {c e : Catalog} {r : Repo} {j : Int} {row : RepoRow}

/-- What becomes of a row that another service holds from an address: if its identity is listed, it
says what the winner of the identity says, and else it stays as it is unless a winner has its
name. -/
inductive Survives (c : Catalog) (svc : Service) (sourced : List Repo) (row : RepoRow)
    (url : String) : Face → Prop where
  | listed {r : Repo} : Winner c svc sourced r → r.spec = row.spec →
      Survives c svc sourced row url (r.row.face url)
  | unlisted : (∀ x ∈ sourced, x.spec ≠ row.spec) →
      (∀ r, Winner c svc sourced r → r.lowerName ≠ row.nameKey) →
      Survives c svc sourced row url (row.face url)

theorem survives_of_ahead {d : Catalog} (h : c.Ahead svc sourced d) {url : String} {f : Face} :
    Survives d svc sourced row url f ↔ Survives c svc sourced row url f := by
  constructor
  · rintro (⟨hwinner, hspec⟩ | ⟨hunlisted, hfree⟩)
    · exact .listed ((winner_of_ahead h).mp hwinner) hspec
    · exact .unlisted hunlisted fun r hwinner => hfree r ((winner_of_ahead h).mpr hwinner)
  · rintro (⟨hwinner, hspec⟩ | ⟨hunlisted, hfree⟩)
    · exact .listed ((winner_of_ahead h).mpr hwinner) hspec
    · exact .unlisted hunlisted fun r hwinner => hfree r ((winner_of_ahead h).mp hwinner)

variable (hwell : ∀ r ∈ sourced, r.WellFormed svc) (h : Batched c svc (planned c svc sourced) e)
include hwell h

theorem row_of_winner (hsvc : c.Holds svc) (hwinner : Winner c svc sourced r) :
    ∃ k own, e.repos.get? k = some own ∧ own.isLive = true ∧ own.spec = r.spec ∧
      own.nameKey = r.lowerName ∧ ∀ url, own.face url = r.row.face url := by
  obtain ⟨url, hface⟩ := (hwell r hwinner.leads.mem).toListedBy.faceFor
  obtain ⟨k, own, m, hown, hlive, -, hsame⟩ := offers_of_winner hsvc hwell h hwinner hface
  exact ⟨k, own, hown, hlive, (congrArg Face.spec hsame).symm,
    nameKey_of_name (hwell r hwinner.leads.mem).name (congrArg Face.name hsame).symm,
    RepoRow.face_congr hsame.symm⟩

theorem stays_of_unlisted (hc : c.Rooted) (hrow : c.repos.get? j = some row)
    (hlive : row.isLive = true)
    (hunlisted : ∀ x ∈ sourced, x.spec ≠ row.spec)
    (hfree : ∀ r, Winner c svc sourced r → r.lowerName ≠ row.nameKey) {s : Int}
    (hs : s ≠ svc.id) {m : Membership} (hm : c.members.get? ⟨j, s⟩ = some m) :
    e.repos.get? j = some row ∧ e.members.get? ⟨j, s⟩ = some m := by
  have hlisted : ∀ r ∈ sourced, r.ListedBy svc := fun r hr => (hwell r hr).toListedBy
  have hnames : ∀ r ∈ sourced, Text.IsAscii r.name := fun r hr => (hwell r hr).name
  have hunwritten : ∀ x ∈ (planned c svc sourced).modified ++ (planned c svc sourced).added,
      x.spec ≠ row.spec := by
    intro x hx hspec
    obtain ⟨r, hleads, hwritten⟩ := exists_leads_of_written hlisted hx
    exact hunlisted r hleads.mem (hwritten.trans hspec)
  have hstays : ¬Orphans (planned c svc sourced) j := by
    intro horphan
    obtain ⟨hconflicting, r, hleads, hname, hlt⟩ := beaten_of_orphans hlisted hc hrow hlive
      hunlisted (fun _ => ⟨s, m, hs, hm⟩) horphan
    refine hfree r ((winner_iff hwell).mpr ⟨hleads, wins_iff.mpr fun k hk hkname _ => ?_⟩) ?_
    · rw [eq_of_conflicting hnames hk hconflicting (hkname.trans hname)]
      exact hlt
    · rw [hname, lowerName_of_conflicting hnames hconflicting]
      rfl
  obtain ⟨hrow', hmembers⟩ := h.standing j row hrow hunwritten hstays
  refine ⟨hrow', ((hmembers s).2 ?_).trans hm⟩
  rintro ⟨x, hx, hid, hempty | hsame⟩
  · exact hstays ⟨x, hx, hid, hempty⟩
  · exact hs hsame

variable (hsvc : c.Holds svc) (hc : c.Tidy)
include hsvc hc

theorem home_of_listed (hrow : e.repos.get? j = some row) (hlive : row.isLive = true)
    (hlists : ∃ x ∈ sourced, x.spec = row.spec) :
    (∀ k old, c.repos.get? k = some old → (k = j ↔ old.spec = row.spec)) ∧
      ∀ s, s ≠ svc.id → e.members.get? ⟨j, s⟩ = c.members.get? ⟨j, s⟩ := by
  rcases h.origin j row hrow with ⟨x, hx, z, hz, rfl⟩ | ⟨old, hold, hunwritten⟩
  · cases hrow.symm.trans hz.row
    refine ⟨fun k old hold => ⟨?_, fun hspec => ?_⟩, hz.others⟩
    · rintro rfl
      exact (Placed.home hz.landed old hold).trans hz.landed.spec.symm
    · exact Placed.ownSpec hz.landed k old hold (hspec.trans hz.landed.spec)
  · have hlisted : ∀ r ∈ sourced, r.ListedBy svc := fun r hr => (hwell r hr).toListedBy
    have hbefore := (standing_of_unwritten h hrow hlive hold hunwritten).1
    obtain ⟨-, -, -, -, -, hmembers⟩ :=
      stands_of_unwritten hlisted hsvc hc.toRooted h hrow hlive hold hunwritten (.inr hlists)
    refine ⟨fun k other hother => ⟨?_, fun hspec => spec_inj hother hbefore hspec⟩,
      fun s _ => hmembers s⟩
    rintro rfl
    cases hother.symm.trans hbefore
    rfl

theorem winner_of_listed (hrow : e.repos.get? j = some row) (hlive : row.isLive = true)
    (hlists : ∃ x ∈ sourced, x.spec = row.spec) : ∃ r, Winner c svc sourced r ∧
      r.spec = row.spec ∧ ∀ url, row.face url = r.row.face url := by
  have hlisted : ∀ r ∈ sourced, r.ListedBy svc := fun r hr => (hwell r hr).toListedBy
  obtain ⟨r, hleads, hspec, hstands⟩ :=
    stands_of_stake hlisted hsvc hc.toRooted h hrow hlive (.inr hlists)
  obtain ⟨url, hface⟩ := (hlisted r hleads.mem).faceFor
  obtain ⟨x, hwinner, hsaid⟩ := winner_of_offers hsvc hwell h hc.toRooted (hstands.offers hface)
  obtain ⟨claim, -, hsame⟩ := Option.map_eq_some_iff.mp hsaid
  cases hwinner.leads.eq_of_spec hleads (congrArg Face.spec hsame)
  exact ⟨r, hwinner, hspec, hstands.face hrow⟩

theorem offers_elsewhere_iff {other : Service} (hother : other.id ≠ svc.id) {f : Face} :
    e.Offers other f ↔ ∃ j row m, c.repos.get? j = some row ∧ row.isLive = true ∧
      c.members.get? ⟨j, other.id⟩ = some m ∧ Survives c svc sourced row m.cloneUrl f := by
  constructor
  · rintro ⟨j, row, m, hrow, hlive, hm, rfl⟩
    by_cases hlists : ∃ x ∈ sourced, x.spec = row.spec
    · obtain ⟨hhome, hothers⟩ := home_of_listed hwell h hsvc hc hrow hlive hlists
      obtain ⟨r, hwinner, hspec, hface⟩ := winner_of_listed hwell h hsvc hc hrow hlive hlists
      rw [hothers other.id hother] at hm
      obtain ⟨old, hold⟩ := repo_of_member hm
      refine ⟨j, old, m, hold, (hc.claimed j old hold).mpr ⟨_, m, hm⟩, hm, ?_⟩
      rw [hface]
      exact .listed hwinner (hspec.trans ((hhome j old hold).mp rfl).symm)
    · have hunlisted : ∀ x ∈ sourced, x.spec ≠ row.spec :=
        fun x hx hspec => hlists ⟨x, hx, hspec⟩
      have hlisted : ∀ r ∈ sourced, r.ListedBy svc := fun r hr => (hwell r hr).toListedBy
      rcases h.origin j row hrow with ⟨x, hx, z, hz, rfl⟩ | ⟨old, hold, hunwritten⟩
      · obtain ⟨r, hleads, hwritten⟩ := exists_leads_of_written hlisted hx
        cases hrow.symm.trans hz.row
        exact (hunlisted r hleads.mem (hwritten.trans hz.landed.spec.symm)).elim
      · obtain ⟨hbefore, -, hmembers⟩ := standing_of_unwritten h hrow hlive hold hunwritten
        have hremains : ¬Goes svc (planned c svc sourced) ⟨j, other.id⟩ := by
          intro hgoes
          rw [(hmembers other.id).1 hgoes] at hm
          cases hm
        rw [(hmembers other.id).2 hremains] at hm
        refine ⟨j, row, m, hbefore, hlive, hm, .unlisted hunlisted fun r hwinner hname => ?_⟩
        obtain ⟨k, own, hown, hownlive, hspec, hkey, -⟩ := row_of_winner hwell h hsvc hwinner
        cases nameKey_inj hown hrow hownlive hlive (hkey.trans hname)
        cases hown.symm.trans hrow
        exact hunlisted r hwinner.leads.mem hspec.symm
  · rintro ⟨j, row, m, hrow, hlive, hm, hsurvives⟩
    cases hsurvives with
    | @listed r hwinner hspec =>
        obtain ⟨k, own, hown, hownlive, hownspec, -, hface⟩ :=
          row_of_winner hwell h hsvc hwinner
        obtain ⟨hhome, hothers⟩ := home_of_listed hwell h hsvc hc hown hownlive
          ⟨r, hwinner.leads.mem, hownspec.symm⟩
        obtain rfl := (hhome j row hrow).mpr (hspec.symm.trans hownspec.symm)
        exact ⟨j, own, m, hown, hownlive, (hothers other.id hother).trans hm, (hface _).symm⟩
    | unlisted hunlisted hfree =>
        obtain ⟨hrow', hm'⟩ :=
          stays_of_unlisted hwell h hc.toRooted hrow hlive hunlisted hfree hother hm
        exact ⟨j, row, m, hrow', hlive, hm', rfl⟩

theorem offers_iff {f : Face} :
    e.Offers svc f ↔ ∃ r, Winner c svc sourced r ∧ r.faceFor svc = some f :=
  ⟨winner_of_offers hsvc hwell h hc.toRooted,
    fun ⟨_, hwinner, hf⟩ => offers_of_winner hsvc hwell h hwinner hf⟩

end

/-- What a service will offer once a batch has been written for `svc`. -/
def Foretold (c : Catalog) (svc : Service) (sourced : List Repo) (other : Service) (f : Face) :
    Prop :=
  if other.id = svc.id then ∃ r, Winner c svc sourced r ∧ r.faceFor svc = some f
  else ∃ j row m, c.repos.get? j = some row ∧ row.isLive = true ∧
    c.members.get? ⟨j, other.id⟩ = some m ∧ Survives c svc sourced row m.cloneUrl f

/-- What everybody offers after a batch was foretold, however far ahead the batch set out. -/
theorem offers_iff_foretold {d : Catalog} (hc : c.Tidy) (h : c.Ahead svc sourced d) (hd : d.Tidy)
    (hsvc : d.Holds svc) (hwell : ∀ r ∈ sourced, r.WellFormed svc)
    (hbatched : Batched d svc (planned d svc sourced) e) (other : Service) (f : Face) :
    e.Offers other f ↔ Foretold c svc sourced other f := by
  unfold Foretold
  by_cases hother : other.id = svc.id
  · have hown : e.Offers other f ↔ e.Offers svc f := by
      unfold Offers
      rw [hother]
    rw [if_pos hother, hown, offers_iff hwell hbatched hsvc hd]
    simp only [winner_of_ahead h]
  · rw [if_neg hother, offers_elsewhere_iff hwell hbatched hsvc hd hother]
    constructor
    · rintro ⟨j, row, m, hrow, hlive, hm, hsurvives⟩
      rcases h.cases hc hrow hlive with hrow' | ⟨-, -, -, -, -, hunshared⟩
      · rw [h.others ⟨j, other.id⟩ hother] at hm
        exact ⟨j, row, m, hrow', hlive, hm, (survives_of_ahead h).mp hsurvives⟩
      · cases (hunshared other.id hother).symm.trans hm
    · rintro ⟨j, row, m, hrow, hlive, hm, hsurvives⟩
      exact ⟨j, row, m, (h.kept j row hrow hlive).1, hlive,
        (h.others ⟨j, other.id⟩ hother).trans hm, (survives_of_ahead h).mpr hsurvives⟩

end Syncer

namespace Catalog

variable {c d : Catalog}

/-- Every live row of `c` has its like in `d`, ids and times aside: a live row that says the same and
is held by the same services from the same addresses. -/
def Reflects (c d : Catalog) : Prop :=
  ∀ j row, c.repos.get? j = some row → row.isLive = true →
    ∃ k row', d.repos.get? k = some row' ∧ row'.isLive = true ∧
      (∀ url, row'.face url = row.face url) ∧
      ∀ s, (d.members.get? ⟨k, s⟩).map (·.cloneUrl) = (c.members.get? ⟨j, s⟩).map (·.cloneUrl)

/-- What is live is the same, ids and times aside. -/
def SameLive (c d : Catalog) : Prop :=
  c.Reflects d ∧ d.Reflects c

theorem reflects_of_offers (hc : c.Tidy)
    (h : ∀ other f, c.Offers other f ↔ d.Offers other f) : c.Reflects d := by
  intro j row hrow hlive
  let holder (s : Int) : Service := { (default : Service) with id := s }
  have hlike : ∀ s m, c.members.get? ⟨j, s⟩ = some m → ∃ k row' m',
      d.repos.get? k = some row' ∧ row'.isLive = true ∧ d.members.get? ⟨k, s⟩ = some m' ∧
        row.face m.cloneUrl = row'.face m'.cloneUrl :=
    fun s m hm => (h (holder s) _).mp ⟨j, row, m, hrow, hlive, hm, rfl⟩
  obtain ⟨s₀, m₀, hm₀⟩ := (hc.claimed j row hrow).mp hlive
  obtain ⟨k, row', m', hrow', hlive', -, hsame⟩ := hlike s₀ m₀ hm₀
  have hspec : row.spec = row'.spec := congrArg Face.spec hsame
  refine ⟨k, row', hrow', hlive', RepoRow.face_congr hsame.symm, fun s => ?_⟩
  cases hm : c.members.get? ⟨j, s⟩ with
  | some m =>
      obtain ⟨i, other, m₁, hother, -, hm₁, hface⟩ := hlike s m hm
      obtain rfl := spec_inj hother hrow' ((congrArg Face.spec hface).symm.trans hspec)
      rw [hm₁, Option.map_some, Option.map_some, ← show m.cloneUrl = m₁.cloneUrl from
        congrArg Face.cloneUrl hface]
  | none =>
      rw [Option.map_none, Option.map_eq_none_iff, Option.eq_none_iff_forall_ne_some]
      intro m₁ hm₁
      obtain ⟨i, other, m, hother, -, hm', hface⟩ :=
        (h (holder s) _).mpr ⟨k, row', m₁, hrow', hlive', hm₁, rfl⟩
      obtain rfl := spec_inj hother hrow ((congrArg Face.spec hface).symm.trans hspec.symm)
      cases hm.symm.trans hm'

theorem sameLive_of_offers (hc : c.Tidy) (hd : d.Tidy)
    (h : ∀ other f, c.Offers other f ↔ d.Offers other f) : c.SameLive d :=
  ⟨reflects_of_offers hc h, reflects_of_offers hd fun other f => (h other f).symm⟩

end Catalog

namespace Syncer

open Effect Catalog

variable {y z : Syncer} {svc : Service} {sourced : List Repo} {least : Duration} {w u v : World}

/-- Whoever makes passes as `y` does, but inserts early or does not. -/
def inserting (y : Syncer) (early : Bool) : Syncer :=
  { y with settings := { y.settings with streamingInsert := early } }

section

variable (hw : w.Calm) (hc : w.store.catalog.Tidy) (hsvc : w.store.catalog.Holds svc)
  (howner : svc.owner? = none) (hwell : ∀ r ∈ sourced, r.WellFormed svc)
include hw hc hsvc howner hwell

/-- A pass ends well if and only if nothing stood in the way of a winner when it began, and the time
of the next visit can be told. -/
theorem batch_ok_iff_of_apart (hsource : y.sourceOf svc = .ok (sourced.map .ok))
    (hapart : ∀ a ∈ sourced, ∀ b ∈ sourced, a.spec = b.spec → a = b) :
    (∃ u, y.batch svc least w = (.ok (), u)) ↔ ¬Obstructed w.store.catalog svc sourced ∧
      (y.now.add? (Resync.afterBatch y.now svc.lastSyncAt least
        (planned (y.reading svc w).2.store.catalog svc sourced))).isSome = true := by
  have hahead := ahead_reading hw hc.toRooted hsvc howner hsource
    (fun r hr => (hwell r hr).toListedBy) fun r hr => (hwell r hr).name
  rw [(batch_iff hw hc hsvc howner hsource hwell least).1,
    obstructed_of_ahead hahead hc hwell hapart]

theorem offers_of_batch (hsource : y.sourceOf svc = .ok (sourced.map .ok))
    (hrun : y.batch svc least w = (.ok (), u)) : u.store.catalog.Tidy ∧
      ∀ other f, u.store.catalog.Offers other f ↔ Foretold w.store.catalog svc sourced other f := by
  have hlisted : ∀ r ∈ sourced, r.ListedBy svc := fun r hr => (hwell r hr).toListedBy
  obtain ⟨hd, hsetting⟩ := (within_reading y svc w).tidy hc
  have hsvc' := hsvc.of_sameSetting hsetting
  have hbatched := batched hd.toRooted hsvc' (feasible_plan hlisted)
    ((batch_iff hw hc hsvc howner hsource hwell least).2 u hrun)
  exact ⟨hd.batched hsvc' (feasible_plan hlisted) hbatched, offers_iff_foretold hc
    (ahead_reading hw hc.toRooted hsvc howner hsource hlisted fun r hr => (hwell r hr).name)
    hd hsvc' hwell hbatched⟩

/-- Any two passes over one listing that end well leave the same live catalog. -/
theorem sameLive_of_batches (hsource : y.sourceOf svc = .ok (sourced.map .ok))
    (hsource' : z.sourceOf svc = .ok (sourced.map .ok)) (hrun : y.batch svc least w = (.ok (), u))
    (hrun' : z.batch svc least w = (.ok (), v)) : u.store.catalog.SameLive v.store.catalog := by
  obtain ⟨hu, hoffers⟩ := offers_of_batch hw hc hsvc howner hwell hsource hrun
  obtain ⟨hv, hoffers'⟩ := offers_of_batch hw hc hsvc howner hwell hsource' hrun'
  exact sameLive_of_offers hu hv fun other f => (hoffers other f).trans (hoffers' other f).symm

end

end Syncer

namespace Catalog

open Effect Syncer

/-- Early insertion does not change the outcome: a pass that inserts early and one that does not
leave the same live catalog, and either both end well or neither does; unless nothing stands in the
way and the time of the next visit can be told for one of them alone, since what was inserted early
is not counted as a change. -/
theorem early_insertion_absorbed {y : Syncer} {svc : Service} {sourced : List Repo}
    {least : Duration} {w : World} (hreach : Reachable Repo.ListedBy w.store.catalog)
    (hsvc : w.store.catalog.Holds svc) (howner : svc.owner? = none) (hw : w.Calm)
    (hsource : y.sourceOf svc = .ok (sourced.map .ok)) (hwell : ∀ r ∈ sourced, r.WellFormed svc)
    (hapart : sourced.Pairwise fun a b => a.spec ≠ b.spec) :
    let early := y.inserting true
    let late := y.inserting false
    let next (z : Syncer) := y.now.add? (Resync.afterBatch y.now svc.lastSyncAt least
      (planned (z.reading svc w).2.store.catalog svc sourced))
    (((∃ u, early.batch svc least w = (.ok (), u)) ↔ ∃ v, late.batch svc least w = (.ok (), v)) ↔
      (Obstructed w.store.catalog svc sourced ∨
        ((next early).isSome = true ↔ (next late).isSome = true))) ∧
    ∀ u v, early.batch svc least w = (.ok (), u) → late.batch svc least w = (.ok (), v) →
      u.store.catalog.SameLive v.store.catalog := by
  intro early late next
  have hc := hreach.tidy
  have hsame : ∀ flag, (y.inserting flag).sourceOf svc = .ok (sourced.map .ok) := fun _ => hsource
  have hinj : ∀ a ∈ sourced, ∀ b ∈ sourced, a.spec = b.spec → a = b :=
    fun a ha b hb => eq_of_pairwise_spec hapart ha hb
  have hends : ∀ flag, (∃ u, (y.inserting flag).batch svc least w = (.ok (), u)) ↔
      ¬Obstructed w.store.catalog svc sourced ∧ (next (y.inserting flag)).isSome = true :=
    fun flag => batch_ok_iff_of_apart hw hc hsvc howner hwell (hsame flag) hinj
  refine ⟨?_, fun u v hu hv =>
    sameLive_of_batches hw hc hsvc howner hwell (hsame true) (hsame false) hu hv⟩
  rw [hends true, hends false]
  by_cases hobstructed : Obstructed w.store.catalog svc sourced
  · simp only [hobstructed, not_true, false_and, true_or]
  · simp only [hobstructed, not_false_iff, true_and, false_or]
    exact Iff.rfl

/-- One repository is inserted early; the names of the others are those of copies. -/
theorem early_insertion_absorbed_first :
    let listed := [Sample.entry "4" "Gamma", Sample.entry "5" "Alpha", Sample.entry "7" "alpha",
      Sample.entry "8" "Beta"]
    let y := Sample.eager (listed.map .ok) ⟨0⟩
    (([false, true].map fun flag =>
        ((y.inserting flag).reading Sample.hub Sample.stocked).2.store.catalog.repos.toList.map
          (·.2.name)) = [["alpha", "beta"], ["alpha", "beta", "Gamma"]]) ∧
      ∃ u v, (y.inserting true).batch Sample.hub Sample.minute Sample.stocked = (.ok (), u) ∧
        (y.inserting false).batch Sample.hub Sample.minute Sample.stocked = (.ok (), v) ∧
        u.store.catalog.SameLive v.store.catalog := by
  intro listed y
  have hproper : ∀ r ∈ listed, r.spec.isEmpty = false ∧ Text.IsAscii r.name := by decide
  have hwell : ∀ r ∈ listed, r.WellFormed Sample.hub := by
    refine fun r hr => ⟨?_, (hproper r hr).1, (hproper r hr).2⟩
    simp only [listed, List.mem_cons, List.not_mem_nil, or_false] at hr
    rcases hr with rfl | rfl | rfl | rfl <;> exact Sample.entry_listedBy _ _
  have hapart : listed.Pairwise fun a b => a.spec ≠ b.spec := by decide
  have hnext : (y.now.add? Sample.minute).isSome = true := by decide
  have hends : ∀ flag, ∃ u,
      (y.inserting flag).batch Sample.hub Sample.minute Sample.stocked = (.ok (), u) :=
    fun flag => (batch_ok_iff_of_apart (y := y.inserting flag) Sample.calm_stocked
      Sample.reachable_stocked.tidy Sample.holds_stocked rfl hwell rfl
      fun a ha b hb => eq_of_pairwise_spec hapart ha hb).mpr
        ⟨Sample.unobstructed_stocked (by decide), hnext⟩
  obtain ⟨u, hu⟩ := hends true
  obtain ⟨v, hv⟩ := hends false
  exact ⟨by decide +kernel, u, v, hu, hv, (early_insertion_absorbed Sample.reachable_stocked
    Sample.holds_stocked rfl Sample.calm_stocked rfl hwell hapart).2 u v hu hv⟩

end Catalog

namespace Sample

/-- The host as it is stored after its first visit. -/
def hubVisited : Service :=
  ((visited.store.catalog.services.get? 1).bind (·.toService? 1)).getD hub

theorem holds_visited : visited.store.catalog.Holds hubVisited := by
  have hsome : ((visited.store.catalog.services.get? 1).bind (·.toService? 1)).isSome = true := by
    decide +kernel
  obtain ⟨svc, hsvc⟩ := Option.isSome_iff_exists.mp hsome
  obtain ⟨row, hrow, hload⟩ := Option.bind_eq_some_iff.mp hsvc
  have hread : hubVisited = svc := by
    unfold hubVisited
    rw [hsvc]
    rfl
  rw [hread]
  exact (Catalog.holds_of_row hrow hload).1

theorem reachable_visited : Catalog.Reachable Repo.ListedBy visited.store.catalog :=
  .pass _ _ (.start rfl rfl furnished_base) fun _ _ _ items hitems r hr => by
    cases hitems
    cases hr

end Sample

namespace Catalog

open Effect Syncer

/-- The minimum interval may be negative. Here it leads to a time before all others, so a pass that
has added a repository breaks off; but not if the repository was inserted early, since then the pass
counts no change and waits for eight hours. -/
theorem early_insertion_not_counted :
    let y := Sample.nextDay
    let listed := [Sample.entry "1" "alpha"]
    let least : Duration := ⟨-9000000000000 * Duration.nanosecondsPerSecond⟩
    Reachable Repo.ListedBy Sample.visited.store.catalog ∧
      Sample.visited.store.catalog.Holds Sample.hubVisited ∧ Sample.hubVisited.owner? = none ∧
      Sample.visited.Calm ∧ y.sourceOf Sample.hubVisited = .ok (listed.map .ok) ∧
      (∀ r ∈ listed, r.WellFormed Sample.hubVisited) ∧
      (listed.Pairwise fun a b => a.spec ≠ b.spec) ∧
      (∃ u, (y.inserting true).batch Sample.hubVisited least Sample.visited = (.ok (), u)) ∧
      ¬∃ v, (y.inserting false).batch Sample.hubVisited least Sample.visited = (.ok (), v) := by
  intro y listed least
  have hwell : ∀ r ∈ listed, r.WellFormed Sample.hubVisited :=
    List.forall_mem_singleton.mpr ⟨(Sample.entry_listedBy "1" "alpha").of_urn (by decide +kernel),
      by decide, by decide⟩
  have hearly : ((y.inserting true).batch Sample.hubVisited least Sample.visited).1.isOk = true := by
    decide +kernel
  have hlate : ((y.inserting false).batch Sample.hubVisited least Sample.visited).1.isOk = false := by
    decide +kernel
  refine ⟨Sample.reachable_visited, Sample.holds_visited, by decide +kernel,
    ⟨by decide +kernel, by decide +kernel⟩, rfl, hwell, List.pairwise_singleton _ _, ?_, ?_⟩
  · obtain ⟨⟨⟩, hrun⟩ := exists_of_isOk hearly
    exact ⟨_, hrun⟩
  · rintro ⟨v, hrun⟩
    rw [hrun] at hlate
    cases hlate

end Catalog

end RepoCatalog
