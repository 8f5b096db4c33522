import Mathlib.Data.List.Nodup
import RepoCatalog.Proofs.Conflict
import RepoCatalog.Proofs.Reach

/-!
# Precedence

Where names are apart, the smaller identity decides between a repository that is to be written and
the stored holder of its name: the one is kept and the other is deleted, if it is stored at all,
and nothing else is deleted.
-/
namespace RepoCatalog

/-- No other holder of the name of a repository has a smaller identity. -/
def Repo.Prevails (conflicting : List Repo) (r : Repo) : Prop :=
  ∀ h ∈ conflicting, h.spec ≠ r.spec → h.lowerName = r.lowerName → ¬h.spec < r.spec

instance (conflicting : List Repo) : DecidablePred (Repo.Prevails conflicting) := fun r =>
  inferInstanceAs (Decidable
    (∀ h ∈ conflicting, h.spec ≠ r.spec → h.lowerName = r.lowerName → ¬h.spec < r.spec))

theorem wins_iff_prevails {conflicting : List Repo} {r : Repo} :
    wins conflicting r = true ↔ r.Prevails conflicting := by
  rw [wins_iff]
  constructor
  · intro hwins h hh hspec hname
    exact Spec.lt_asymm (hwins h hh hname hspec)
  · intro hprevails h hh hname hspec
    apply (Spec.lt_or_gt_of_ne hspec).resolve_left
    exact hprevails h hh hspec hname

theorem wins_eq_decide (conflicting : List Repo) :
    wins conflicting = fun r => decide (r.Prevails conflicting) := by
  funext r
  rw [Bool.eq_iff_iff, wins_iff_prevails, decide_eq_true_iff]

namespace Settlement

section

variable {P : Settlement → Prop} (hdrop : ∀ s r, P s → P (s.drop r)) (conflicting : List Repo)
  {s : Settlement}

include hdrop

theorem settle_keeps (r : Repo) (hs : P s) : P (s.settle (holdersOf conflicting) r).1 := by
  have hbeaten : P ((beatenBy conflicting r).foldl drop s) := by
    apply List.foldlRecOn _ _ hs
    exact fun t ht x _ => hdrop t x ht
  rw [settle_eq]
  dsimp only
  split
  · exact hbeaten
  · exact hdrop _ r hbeaten

theorem settleAll_keeps (rs : List Repo) (hs : P s) :
    P (settleAll (holdersOf conflicting) s rs).1 := by
  induction rs generalizing s with
  | nil => exact hs
  | cons r rs ih => exact ih (settle_keeps hdrop conflicting r hs)

end

/-- Each identity was dropped once at most, and what was dropped is gone. -/
def Distinct (s : Settlement) : Prop :=
  (s.dropped.map (·.spec)).Nodup ∧ ∀ x ∈ s.dropped, x.spec ∈ s.gone

theorem distinct_drop (s : Settlement) (r : Repo) (hs : s.Distinct) : (s.drop r).Distinct := by
  obtain ⟨hnodup, hgone⟩ := hs
  by_cases hr : r.spec ∈ s.gone
  · rw [drop, if_pos hr]
    exact ⟨hnodup, hgone⟩
  · rw [drop, if_neg hr]
    constructor
    · have hnew : r.spec ∉ s.dropped.map (·.spec) := by
        intro hmem
        obtain ⟨x, hx, hspec⟩ := List.mem_map.mp hmem
        exact hr (hspec ▸ hgone x hx)
      rw [List.map_append]
      exact hnodup.append (List.nodup_singleton _) (by simpa [Repo.unclaimed] using hnew)
    · intro x hx
      rcases List.mem_append.mp hx with hx | hx
      · exact List.mem_cons_of_mem _ (hgone x hx)
      · rw [List.mem_singleton.mp hx]
        exact List.mem_cons_self

end Settlement

namespace Diff

open Settlement

/-- A difference and stored repositories that may hold the names that it gives: what it writes has
different identities, the stored ones have different identities and names, one identity has one
name, and what is deleted already is none of them. -/
structure Contest (d : Diff) (conflicting : List Repo) : Prop where
  specs : ((d.added ++ d.modified).map (·.spec)).Nodup
  holders : (conflicting.map (·.spec)).Nodup
  names : (conflicting.map Repo.lowerName).Nodup
  same : ∀ h ∈ conflicting, ∀ r ∈ d.added ++ d.modified, h.spec = r.spec →
    h.lowerName = r.lowerName
  gone : ∀ x ∈ d.deleted, ∀ r ∈ d.added ++ d.modified ++ conflicting, x.spec ≠ r.spec

/-- How names are settled: who is kept, and for whose sake who is deleted. -/
structure Arbitrated (conflicting : List Repo) (d e : Diff) (dropped : List Repo) : Prop where
  unmodified : e.unmodified = d.unmodified
  deleted : e.deleted = d.deleted ++ dropped
  added : e.added = d.added.filter (·.Prevails conflicting)
  modified : e.modified = d.modified.filter (·.Prevails conflicting)
  once : (dropped.map (·.spec)).Nodup
  ousted : ∀ h ∈ conflicting, (h.unclaimed ∈ dropped ↔
    ∃ r ∈ e.added ++ e.modified, r.spec ≠ h.spec ∧ r.lowerName = h.lowerName)
  lost : ∀ r ∈ d.added ++ d.modified, ¬r.Prevails conflicting →
    (r.unclaimed ∈ dropped ↔ r.id ≠ 0)
  only : ∀ x ∈ dropped, (∃ h ∈ conflicting, x = h.unclaimed) ∨
    ∃ r ∈ d.added ++ d.modified, ¬r.Prevails conflicting ∧ x = r.unclaimed
  apart : ∀ r ∈ e.added ++ e.modified, ∀ h ∈ conflicting, h.spec ≠ r.spec →
    h.lowerName = r.lowerName → h.unclaimed ∈ e.deleted

section

variable {d e : Diff} {conflicting dropped : List Repo} {h r x : Repo}

theorem nodup_dropped (hdeleted : (d.resolveNames conflicting).deleted = d.deleted ++ dropped) :
    (dropped.map (·.spec)).Nodup := by
  obtain rfl := List.append_cancel_left hdeleted
  have hstart : Distinct ⟨d.deleted.map (·.spec), []⟩ := ⟨.nil, fun x hx => nomatch hx⟩
  have hadded := settleAll_keeps distinct_drop conflicting d.added hstart
  exact (settleAll_keeps distinct_drop conflicting d.modified hadded).1

theorem Resolved.mem_kept_iff (hres : Resolved d conflicting dropped e) :
    r ∈ e.added ++ e.modified ↔ r ∈ d.added ++ d.modified ∧ r.Prevails conflicting := by
  rw [hres.added, hres.modified, ← List.filter_append, List.mem_filter, wins_iff_prevails]

theorem Contest.prevails_of_spec (hd : Contest d conflicting) (hh : h ∈ conflicting)
    (hr : r ∈ d.added ++ d.modified) (hspec : h.spec = r.spec) : r.Prevails conflicting := by
  intro h' hh' hother hname
  have hsame : h' = h := by
    apply List.inj_on_of_nodup_map hd.names hh' hh
    rw [hname, hd.same h hh r hr hspec]
  exact absurd (hsame ▸ hspec) hother

/-- Who beats one holder of its name beats all, as there is no second. -/
theorem Contest.prevails_of_beats (hd : Contest d conflicting) (hh : h ∈ rivalsOf conflicting r)
    (hlt : r.spec < h.spec) : r.Prevails conflicting := by
  obtain ⟨hmem, hname, -⟩ := mem_rivalsOf.mp hh
  rintro h' hh' - hname'
  have hsame : h' = h := by
    apply List.inj_on_of_nodup_map hd.names hh' hmem
    rw [hname, hname']
  rw [hsame]
  exact Spec.lt_asymm hlt

/-- What is deleted for a name is a holder of the name of who is kept, or a stored repository that
is not kept. -/
theorem Contest.dropped_cases (hd : Contest d conflicting) (hres : Resolved d conflicting dropped e)
    (hx : x ∈ dropped) :
    (∃ h ∈ conflicting, (∃ r ∈ e.added ++ e.modified, r.spec ≠ h.spec ∧
        r.lowerName = h.lowerName) ∧ x = h.unclaimed) ∨
      ∃ r ∈ d.added ++ d.modified, ¬r.Prevails conflicting ∧ r.id ≠ 0 ∧ x = r.unclaimed := by
  obtain ⟨y, ⟨r, hr, hy, hlt⟩ | ⟨hy, hid, hwins⟩, rfl⟩ := hres.origin x hx
  · obtain ⟨hmem, hname, hspec⟩ := mem_rivalsOf.mp hy
    have hkept := hres.mem_kept_iff.mpr ⟨hr, hd.prevails_of_beats hy hlt⟩
    exact .inl ⟨y, hmem, ⟨r, hkept, hspec.symm, hname.symm⟩, rfl⟩
  · refine .inr ⟨y, hy, ?_, hid, rfl⟩
    rw [← wins_iff_prevails, hwins]
    exact Bool.false_ne_true

theorem Contest.mem_dropped (hd : Contest d conflicting) (hres : Resolved d conflicting dropped e)
    (hr : r ∈ d.added ++ d.modified ++ conflicting) (hgone : ∃ x ∈ e.deleted, x.spec = r.spec) :
    ∃ x ∈ dropped, x.spec = r.spec := by
  obtain ⟨x, hx, hspec⟩ := hgone
  rw [hres.deleted] at hx
  refine ⟨x, (List.mem_append.mp hx).resolve_left ?_, hspec⟩
  exact fun hbefore => hd.gone x hbefore r hr hspec

theorem Contest.holder_of_dropped (hd : Contest d conflicting)
    (hres : Resolved d conflicting dropped e) (hh : h ∈ conflicting) (hx : x ∈ dropped)
    (hspec : x.spec = h.spec) :
    x = h.unclaimed ∧ ∃ r ∈ e.added ++ e.modified, r.spec ≠ h.spec ∧
      r.lowerName = h.lowerName := by
  rcases hd.dropped_cases hres hx with ⟨h', hh', hkept, rfl⟩ | ⟨r, hr, hnot, -, rfl⟩
  · obtain rfl : h' = h := List.inj_on_of_nodup_map hd.holders hh' hh hspec
    exact ⟨rfl, hkept⟩
  · exact absurd (hd.prevails_of_spec hh hr hspec.symm) hnot

theorem Contest.ousted_iff (hd : Contest d conflicting) (hres : Resolved d conflicting dropped e)
    (hh : h ∈ conflicting) : h.unclaimed ∈ dropped ↔
      ∃ r ∈ e.added ++ e.modified, r.spec ≠ h.spec ∧ r.lowerName = h.lowerName := by
  constructor
  · intro hx
    exact (hd.holder_of_dropped hres hh hx rfl).2
  · rintro ⟨r, hr, hspec, hname⟩
    obtain ⟨hmem, hprevails⟩ := hres.mem_kept_iff.mp hr
    have hrival : h ∈ rivalsOf conflicting r := mem_rivalsOf.mpr ⟨hh, hname.symm, hspec.symm⟩
    have hgone := hres.beaten r hmem (wins_iff_prevails.mpr hprevails) h hrival
    obtain ⟨x, hx, hxspec⟩ := hd.mem_dropped hres (List.mem_append_right _ hh) hgone
    rw [← (hd.holder_of_dropped hres hh hx hxspec).1]
    exact hx

theorem Contest.lost_iff (hd : Contest d conflicting) (hres : Resolved d conflicting dropped e)
    (hr : r ∈ d.added ++ d.modified) (hnot : ¬r.Prevails conflicting) :
    r.unclaimed ∈ dropped ↔ r.id ≠ 0 := by
  -- No stored repository has the identity of a loser.
  have hcases : ∀ x ∈ dropped, x.spec = r.spec → r.id ≠ 0 ∧ x = r.unclaimed := by
    intro x hx hspec
    rcases hd.dropped_cases hres hx with ⟨h, hh, -, rfl⟩ | ⟨r', hr', -, hid, rfl⟩
    · exact absurd (hd.prevails_of_spec hh hr hspec) hnot
    · obtain rfl : r' = r := List.inj_on_of_nodup_map hd.specs hr' hr hspec
      exact ⟨hid, rfl⟩
  constructor
  · intro hx
    exact (hcases _ hx rfl).1
  · intro hid
    have hwins : wins conflicting r = false := by
      rw [Bool.eq_false_iff]
      exact mt wins_iff_prevails.mp hnot
    have hgone := hres.lost r hr hwins hid
    obtain ⟨x, hx, hspec⟩ := hd.mem_dropped hres (List.mem_append_left _ hr) hgone
    rw [← (hcases x hx hspec).2]
    exact hx

/-- Names are settled by the order of identities. -/
theorem resolveNames_arbitrates (hd : Contest d conflicting) :
    ∃ dropped, Arbitrated conflicting d (d.resolveNames conflicting) dropped := by
  obtain ⟨dropped, hres⟩ := resolved d conflicting
  refine ⟨dropped, ?_⟩
  constructor
  case unmodified => exact hres.unmodified
  case deleted => exact hres.deleted
  case added => rw [hres.added, wins_eq_decide]
  case modified => rw [hres.modified, wins_eq_decide]
  case once => exact nodup_dropped hres.deleted
  case ousted => exact fun h hh => hd.ousted_iff hres hh
  case lost => exact fun r hr hnot => hd.lost_iff hres hr hnot
  case only =>
    intro x hx
    rcases hd.dropped_cases hres hx with ⟨h, hh, -, rfl⟩ | ⟨r, hr, hnot, -, rfl⟩
    · exact .inl ⟨h, hh, rfl⟩
    · exact .inr ⟨r, hr, hnot, rfl⟩
  case apart =>
    intro r hr h hh hspec hname
    rw [hres.deleted]
    apply List.mem_append_right
    exact (hd.ousted_iff hres hh).mpr ⟨r, hr, hspec.symm, hname.symm⟩

end

open Sample in
/-- Of four repositories one ousts the holder of its name, one was never stored and goes without a
trace, one is stored and deleted, and one meets its own row. -/
theorem resolveNames_arbitrates_mixed :
    let d : Diff := ⟨[entry "1" "alpha", entry "5" "gamma"], [entry "9" "omega"],
      [{ entry "6" "delta" with id := 6 }, { entry "7" "eta" with id := 7 }], []⟩
    let conflicting := [entry "2" "Alpha", entry "4" "Gamma", entry "3" "Delta", entry "7" "Eta"]
    Contest d conflicting ∧
      (∃ dropped, Arbitrated conflicting d (d.resolveNames conflicting) dropped) ∧
      (d.resolveNames conflicting).deleted.map (·.spec.id) = ["9", "2", "6"] := by
  intro d conflicting
  have hd : Contest d conflicting := by
    constructor
    case specs => decide
    case holders => decide
    case names => decide
    case same => decide
    case gone => decide
  exact ⟨hd, resolveNames_arbitrates hd, by decide⟩

end Diff

end RepoCatalog
