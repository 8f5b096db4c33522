import Mathlib.Data.List.TakeWhile
import RepoCatalog.Conflict
import RepoCatalog.Proofs.Diff

/-!
# Who keeps a name

A repository keeps its name against the stored holders of it if its identity is smaller than all of
theirs, whatever was settled before. Who was deleted for a name is a holder that was beaten, or a
stored repository that lost.
-/
namespace RepoCatalog

/-- The other holders of the name of a repository. -/
def rivalsOf (conflicting : List Repo) (r : Repo) : List Repo :=
  conflicting.filter fun h => h.lowerName == r.lowerName && h.spec != r.spec

/-- Whether a repository keeps its name. -/
def wins (conflicting : List Repo) (r : Repo) : Bool :=
  (rivalsOf conflicting r).all fun h => r.spec < h.spec

theorem mem_rivalsOf {conflicting : List Repo} {r h : Repo} :
    h ∈ rivalsOf conflicting r ↔ h ∈ conflicting ∧ h.lowerName = r.lowerName ∧ h.spec ≠ r.spec := by
  unfold rivalsOf
  simp

theorem wins_iff {conflicting : List Repo} {r : Repo} : wins conflicting r = true ↔
    ∀ h ∈ conflicting, h.lowerName = r.lowerName → h.spec ≠ r.spec → r.spec < h.spec := by
  unfold wins
  simp only [List.all_eq_true, mem_rivalsOf, decide_eq_true_eq, and_imp]

theorem length_takeWhile_eq_iff {α : Type} (p : α → Bool) (xs : List α) :
    (xs.takeWhile p).length = xs.length ↔ xs.all p = true := by
  induction xs with
  | nil => simp
  | cons x xs ih =>
      by_cases hx : p x = true
      · simp [hx, ih]
      · simp [hx]

namespace Settlement

/-- What is gone is what was gone in the beginning together with what was dropped. -/
def Accounts (s : Settlement) (base : List Spec) : Prop :=
  s.gone.Perm (base ++ s.dropped.map (·.spec))

/-- From `s` to `t` only some of `xs` were dropped, if they were not gone already, and nothing that
was gone came back. -/
structure Grows (s t : Settlement) (xs : Repo → Prop) : Prop where
  gone : ∀ spec ∈ s.gone, spec ∈ t.gone
  dropped : ∀ x ∈ t.dropped, x ∈ s.dropped ∨ ∃ r, xs r ∧ x = r.unclaimed
  accounts : ∀ base, s.Accounts base → t.Accounts base
  nodup : s.gone.Nodup → t.gone.Nodup

namespace Grows

theorem refl (s : Settlement) (xs : Repo → Prop) : Grows s s xs :=
  ⟨fun _ h => h, fun _ h => .inl h, fun _ h => h, fun h => h⟩

theorem trans {s t u : Settlement} {xs : Repo → Prop} (h : Grows s t xs) (h' : Grows t u xs) :
    Grows s u xs := by
  refine ⟨fun spec hs => h'.gone spec (h.gone spec hs), fun x hx => ?_,
    fun base hb => h'.accounts base (h.accounts base hb), fun hs => h'.nodup (h.nodup hs)⟩
  rcases h'.dropped x hx with hx | hx
  · exact h.dropped x hx
  · exact .inr hx

theorem mono {s t : Settlement} {xs ys : Repo → Prop} (h : Grows s t xs) (hxy : ∀ r, xs r → ys r) :
    Grows s t ys := by
  refine ⟨h.gone, fun x hx => ?_, h.accounts, h.nodup⟩
  rcases h.dropped x hx with hx | ⟨r, hr, hxr⟩
  · exact .inl hx
  · exact .inr ⟨r, hxy r hr, hxr⟩

end Grows

theorem grows_drop (s : Settlement) (r : Repo) : Grows s (s.drop r) fun x => x = r := by
  unfold drop
  by_cases h : r.spec ∈ s.gone
  · rw [if_pos h]
    exact .refl s _
  · rw [if_neg h]
    refine ⟨fun spec hs => List.mem_cons_of_mem _ hs, fun x hx => ?_, fun base hb => ?_,
      fun hs => List.nodup_cons.mpr ⟨h, hs⟩⟩
    · rcases List.mem_append.mp hx with hx | hx
      · exact .inl hx
      · exact .inr ⟨r, rfl, List.mem_singleton.mp hx⟩
    · unfold Accounts at hb ⊢
      rw [List.map_append, ← List.append_assoc]
      exact (hb.cons r.spec).trans (List.perm_append_singleton r.spec _).symm

theorem mem_gone_drop (s : Settlement) (r : Repo) : r.spec ∈ (s.drop r).gone := by
  unfold drop
  by_cases h : r.spec ∈ s.gone
  · rwa [if_pos h]
  · rw [if_neg h]
    exact List.mem_cons_self

theorem grows_foldl_drop (s : Settlement) (rs : List Repo) :
    Grows s (rs.foldl drop s) (fun x => x ∈ rs) ∧ ∀ r ∈ rs, r.spec ∈ (rs.foldl drop s).gone := by
  induction rs generalizing s with
  | nil => exact ⟨.refl s _, fun r hr => (by cases hr)⟩
  | cons r rs ih =>
      obtain ⟨hgrows, hgone⟩ := ih (s.drop r)
      refine ⟨((grows_drop s r).mono ?_).trans (hgrows.mono ?_), fun x hx => ?_⟩
      · rintro x rfl
        exact List.mem_cons_self
      · exact fun x hx => List.mem_cons_of_mem r hx
      · rcases List.mem_cons.mp hx with rfl | hx
        · exact hgrows.gone _ (mem_gone_drop s x)
        · exact hgone x hx

/-- The holders of its name that a repository takes on, up to the first that keeps it. -/
def beatenBy (conflicting : List Repo) (r : Repo) : List Repo :=
  (rivalsOf conflicting r).takeWhile fun h => r.spec < h.spec

theorem mem_beatenBy {conflicting : List Repo} {r h : Repo} (hh : h ∈ beatenBy conflicting r) :
    h ∈ rivalsOf conflicting r ∧ r.spec < h.spec := by
  refine ⟨(List.takeWhile_sublist _).subset hh, ?_⟩
  simpa using List.mem_takeWhile_imp hh

theorem beatenBy_of_wins {conflicting : List Repo} {r : Repo} (h : wins conflicting r = true) :
    beatenBy conflicting r = rivalsOf conflicting r := by
  refine List.takeWhile_eq_self_iff.mpr fun x hx => ?_
  exact List.all_eq_true.mp h x hx

/-- The holders of names in the form in which they are looked up. -/
def holdersOf (conflicting : List Repo) : List (String × Repo) :=
  conflicting.map fun r => (r.lowerName, r)

theorem settle_eq (s : Settlement) (conflicting : List Repo) (r : Repo) :
    s.settle (holdersOf conflicting) r =
      (let t := (beatenBy conflicting r).foldl drop s
      (if wins conflicting r || r.id == 0 then t else t.drop r, wins conflicting r)) := by
  have hrivals : ((holdersOf conflicting).filter fun h =>
      h.1 == r.lowerName && h.2.spec != r.spec).map (·.2) = rivalsOf conflicting r := by
    unfold holdersOf rivalsOf
    rw [List.filter_map, List.map_map]
    exact List.map_id _
  unfold settle
  simp only [hrivals, length_takeWhile_eq_iff]
  change (if wins conflicting r = true then _ else _) = _
  by_cases hwins : wins conflicting r = true
  · rw [if_pos hwins, hwins]
    rfl
  · rw [if_neg hwins, Bool.eq_false_iff.mpr hwins]
    by_cases hid : r.id = 0
    · simp [hid, beatenBy]
    · simp [hid, beatenBy]

/-- Who may be dropped on account of some repositories: holders that one of them beats, and those
among them that are stored and lose. -/
def Droppable (conflicting rs : List Repo) (x : Repo) : Prop :=
  (∃ r ∈ rs, x ∈ rivalsOf conflicting r ∧ r.spec < x.spec) ∨
    (x ∈ rs ∧ x.id ≠ 0 ∧ wins conflicting x = false)

theorem grows_settle (s : Settlement) (conflicting : List Repo) (r : Repo) :
    Grows s (s.settle (holdersOf conflicting) r).1 (Droppable conflicting [r]) ∧
      (wins conflicting r = true → ∀ h ∈ rivalsOf conflicting r,
        h.spec ∈ (s.settle (holdersOf conflicting) r).1.gone) ∧
      (wins conflicting r = false → r.id ≠ 0 →
        r.spec ∈ (s.settle (holdersOf conflicting) r).1.gone) := by
  rw [settle_eq]
  obtain ⟨hgrows, hgone⟩ := grows_foldl_drop s (beatenBy conflicting r)
  have hbeaten := hgrows.mono fun x hx => (show Droppable conflicting [r] x from
    .inl ⟨r, List.mem_singleton_self r, mem_beatenBy hx⟩)
  by_cases hwins : wins conflicting r = true
  · simp only [hwins, Bool.true_or, if_true]
    rw [beatenBy_of_wins hwins] at hbeaten hgone ⊢
    exact ⟨hbeaten, fun _ => hgone, fun h => (by cases h)⟩
  · rw [Bool.not_eq_true] at hwins
    by_cases hid : r.id = 0
    · simp only [hwins, hid, Bool.false_or, beq_self_eq_true, if_true]
      exact ⟨hbeaten, fun h => (by cases h), fun _ h => absurd rfl h⟩
    · have hne : (r.id == 0) = false := by simpa using hid
      simp only [hwins, hne, Bool.or_self, Bool.false_eq_true, if_false]
      refine ⟨hbeaten.trans ((grows_drop _ r).mono ?_), fun h => (by cases h),
        fun _ _ => mem_gone_drop _ r⟩
      rintro x rfl
      exact .inr ⟨List.mem_singleton_self x, hid, hwins⟩

theorem droppable_mono {conflicting rs rs' : List Repo} (h : ∀ r ∈ rs, r ∈ rs') {x : Repo}
    (hx : Droppable conflicting rs x) : Droppable conflicting rs' x := by
  rcases hx with ⟨r, hr, hx⟩ | ⟨hx, hrest⟩
  · exact .inl ⟨r, h r hr, hx⟩
  · exact .inr ⟨h x hx, hrest⟩

theorem settleAll_spec (s : Settlement) (conflicting rs : List Repo) :
    (settleAll (holdersOf conflicting) s rs).2 = rs.filter (wins conflicting) ∧
      Grows s (settleAll (holdersOf conflicting) s rs).1 (Droppable conflicting rs) ∧
      ∀ r ∈ rs, (wins conflicting r = true → ∀ h ∈ rivalsOf conflicting r,
          h.spec ∈ (settleAll (holdersOf conflicting) s rs).1.gone) ∧
        (wins conflicting r = false → r.id ≠ 0 →
          r.spec ∈ (settleAll (holdersOf conflicting) s rs).1.gone) := by
  induction rs generalizing s with
  | nil => exact ⟨rfl, .refl s _, fun r hr => (by cases hr)⟩
  | cons r rs ih =>
      obtain ⟨hgrows, hbeaten, hlost⟩ := grows_settle s conflicting r
      obtain ⟨hkept, hgrows', hall⟩ := ih (s.settle (holdersOf conflicting) r).1
      have hflag : (s.settle (holdersOf conflicting) r).2 = wins conflicting r := by
        rw [settle_eq]
      refine ⟨?_, (hgrows.mono ?_).trans (hgrows'.mono ?_), fun x hx => ?_⟩
      · unfold settleAll
        simp only [hkept, hflag, List.filter_cons]
      · exact fun x => droppable_mono fun y hy =>
          List.mem_cons.mpr (.inl (List.mem_singleton.mp hy))
      · exact fun x => droppable_mono fun y hy => List.mem_cons_of_mem r hy
      · rcases List.mem_cons.mp hx with rfl | hx
        · exact ⟨fun h y hy => hgrows'.gone _ (hbeaten h y hy),
            fun h hid => hgrows'.gone _ (hlost h hid)⟩
        · exact hall x hx

end Settlement

namespace Diff

open Settlement

/-- What is left of a difference once the names are settled. -/
structure Resolved (d : Diff) (conflicting dropped : List Repo) (e : Diff) : Prop where
  added : e.added = d.added.filter (wins conflicting)
  modified : e.modified = d.modified.filter (wins conflicting)
  unmodified : e.unmodified = d.unmodified
  deleted : e.deleted = d.deleted ++ dropped
  origin : ∀ x ∈ dropped, ∃ r, Droppable conflicting (d.added ++ d.modified) r ∧ x = r.unclaimed
  beaten : ∀ r ∈ d.added ++ d.modified, wins conflicting r = true →
    ∀ h ∈ rivalsOf conflicting r, ∃ x ∈ e.deleted, x.spec = h.spec
  lost : ∀ r ∈ d.added ++ d.modified, wins conflicting r = false → r.id ≠ 0 →
    ∃ x ∈ e.deleted, x.spec = r.spec
  once : (d.deleted.map (·.spec)).Nodup → (e.deleted.map (·.spec)).Nodup

theorem resolved (d : Diff) (conflicting : List Repo) :
    ∃ dropped, Resolved d conflicting dropped (d.resolveNames conflicting) := by
  let base := d.deleted.map (·.spec)
  let holders := holdersOf conflicting
  let s₁ := (settleAll holders ⟨base, []⟩ d.added).1
  let s₂ := (settleAll holders s₁ d.modified).1
  obtain ⟨hadded, hgrows₁, hall₁⟩ := settleAll_spec ⟨base, []⟩ conflicting d.added
  obtain ⟨hmodified, hgrows₂, hall₂⟩ := settleAll_spec s₁ conflicting d.modified
  have hgrows : Grows ⟨base, []⟩ s₂ (Droppable conflicting (d.added ++ d.modified)) := by
    refine (hgrows₁.mono ?_).trans (hgrows₂.mono ?_)
    · exact fun x => droppable_mono fun r hr => List.mem_append_left _ hr
    · exact fun x => droppable_mono fun r hr => List.mem_append_right _ hr
  have haccounts : s₂.gone.Perm ((d.deleted ++ s₂.dropped).map (·.spec)) := by
    rw [List.map_append]
    exact hgrows.accounts base (.of_eq (List.append_nil base).symm)
  have hgone : ∀ spec ∈ s₂.gone, ∃ x ∈ d.deleted ++ s₂.dropped, x.spec = spec := by
    intro spec hspec
    exact List.mem_map.mp (haccounts.mem_iff.mp hspec)
  refine ⟨s₂.dropped, hadded, hmodified, rfl, rfl, fun x hx => ?_, fun r hr => ?_, fun r hr => ?_,
    fun h => haccounts.nodup_iff.mp (hgrows.nodup h)⟩
  · exact (hgrows.dropped x hx).resolve_left (by simp)
  · intro hwins h hh
    refine hgone _ ?_
    rcases List.mem_append.mp hr with hr | hr
    · exact hgrows₂.gone _ ((hall₁ r hr).1 hwins h hh)
    · exact (hall₂ r hr).1 hwins h hh
  · intro hwins hid
    refine hgone _ ?_
    rcases List.mem_append.mp hr with hr | hr
    · exact hgrows₂.gone _ ((hall₁ r hr).2 hwins hid)
    · exact (hall₂ r hr).2 hwins hid

end Diff

end RepoCatalog
