import Mathlib.Data.List.Basic
import Mathlib.Data.List.Pairwise
import RepoCatalog.Diff
import RepoCatalog.Proofs.Dict

/-!
# What a difference holds

Entries of one identity count as the first of them, of those with one name the smallest identity
survives, and each stored repository is settled by what survives of its identity.
-/
namespace RepoCatalog

namespace Spec

theorem lt_iff {a b : Spec} : a < b ↔ compare a b = .lt := Iff.rfl

theorem lt_irrefl (a : Spec) : ¬a < a := by
  have hself : compare a a = .eq := Std.ReflCmp.compare_self
  rw [lt_iff, hself]
  decide

theorem lt_trans {a b c : Spec} (h : a < b) (h' : b < c) : a < c :=
  Std.TransCmp.lt_trans h h'

theorem ne_of_lt {a b : Spec} (h : a < b) : a ≠ b := by
  rintro rfl
  exact lt_irrefl a h

theorem lt_asymm {a b : Spec} (h : a < b) : ¬b < a :=
  fun h' => lt_irrefl a (lt_trans h h')

theorem lt_or_gt_of_ne {a b : Spec} (h : a ≠ b) : a < b ∨ b < a := by
  cases hcmp : compare a b with
  | lt => exact .inl hcmp
  | eq => exact absurd (Std.LawfulEqCmp.eq_of_compare hcmp) h
  | gt => exact .inr (Std.OrientedCmp.lt_of_gt hcmp)

end Spec

/-- What a repository shares with a listed one from which it does not differ. -/
structure Repo.Same (a n : Repo) : Prop where
  name : a.name = n.name
  uri : a.uri = n.uri
  description : a.description = n.description
  isFork : a.isFork = n.isFork
  isArchived : a.isArchived = n.isArchived
  isPrivate : a.isPrivate = n.isPrivate
  spec : n.spec.isEmpty = false → a.spec = n.spec
  claims : a.claims = n.claims
  live : n.deletedAt = none → a.deletedAt = none

theorem Repo.same_of_differs {a n : Repo} (h : a.differs n = false) : a.Same n := by
  unfold differs at h
  simp only [Bool.or_eq_false_iff, bne_eq_false_iff_eq, Bool.and_eq_false_imp,
    Bool.not_eq_true', Option.isSome_iff_ne_none, Option.isNone_eq_false_iff] at h
  obtain ⟨⟨⟨⟨⟨⟨⟨⟨hname, huri⟩, hdescription⟩, hfork⟩, harchived⟩, hprivate⟩, hspec⟩, hclaims⟩,
    hdead⟩ := h
  refine ⟨hname, huri, hdescription, hfork, harchived, hprivate, hspec, hclaims, fun hlive => ?_⟩
  by_contra hgone
  exact hdead hgone hlive

theorem Repo.Same.differs {a n : Repo} (h : a.Same n) : a.differs n = false := by
  have hspec : (!n.spec.isEmpty && a.spec != n.spec) = false := by
    cases hempty : n.spec.isEmpty with
    | true => rfl
    | false => simp [h.spec hempty]
  have hlive : (a.deletedAt.isSome && n.deletedAt.isNone) = false := by
    cases hdeleted : n.deletedAt with
    | none => simp [h.live hdeleted]
    | some time => simp
  simp only [Repo.differs, h.name, h.uri, h.description, h.isFork, h.isArchived, h.isPrivate,
    h.claims, hspec, hlive, bne_self_eq_false, Bool.or_false]

theorem Repo.spec_revised {a n : Repo} (h : n.spec = a.spec) : (a.revised n).spec = a.spec := by
  simp only [revised, h, ite_self]

theorem eq_of_pairwise_spec {rs : List Repo} (h : rs.Pairwise fun a b => a.spec ≠ b.spec)
    {a b : Repo} (ha : a ∈ rs) (hb : b ∈ rs) (hspec : a.spec = b.spec) : a = b := by
  have : Std.Symm fun a b : Repo => a.spec ≠ b.spec := ⟨fun _ _ hne => hne.symm⟩
  by_contra hne
  exact h.forall ha hb hne hspec

namespace Diff

/-- What entries of one identity amount to. -/
def joined : List Repo → Option Repo
  | [] => none
  | r :: rs => some { r with claims := rs.foldl (fun c x => c.union x.claims) r.claims }

theorem joined_concat (rs : List Repo) (x : Repo) : joined (rs ++ [x]) =
    some ((joined rs).elim x fun r => { r with claims := r.claims.union x.claims }) := by
  cases rs with
  | nil => rfl
  | cons r rs => simp [joined]

theorem get?_enter (d : Dict Spec Repo) (x : Repo) (spec : Spec) : (enter d x).get? spec =
    if spec = x.spec then
      some ((d.get? x.spec).elim x fun r => { r with claims := r.claims.union x.claims })
    else d.get? spec := by
  unfold enter
  cases d.get? x.spec with
  | none => exact Dict.get?_insert _ _ _ _
  | some first => exact Dict.get?_insert _ _ _ _

theorem get?_mergeListed (sourced : List Repo) (spec : Spec) :
    (mergeListed sourced).get? spec = joined ((Repo.sort sourced).filter (·.spec == spec)) := by
  unfold mergeListed
  induction Repo.sort sourced using List.reverseRecOn with
  | nil => rfl
  | append_singleton rs x ih =>
      rw [List.foldl_append, List.foldl_cons, List.foldl_nil, get?_enter, List.filter_append]
      by_cases h : spec = x.spec
      · subst h
        rw [if_pos rfl, ih]
        simp [joined_concat]
      · rw [if_neg h, ih]
        simp [Ne.symm h]

theorem union_eq_self {c d : Claims}
    (h : ∀ urn, (d.get? urn).isSome = true → (c.get? urn).isSome = true) : c.union d = c := by
  refine Dict.ext_get? fun urn => ?_
  rw [Dict.get?_union]
  cases hc : c.get? urn with
  | some claim => rfl
  | none =>
      cases hd : d.get? urn with
      | none => rfl
      | some claim =>
          have hsome := h urn (by rw [hd]; rfl)
          rw [hc] at hsome
          cases hsome

theorem foldl_union_eq_self {c : Claims} {rs : List Repo}
    (h : ∀ x ∈ rs, ∀ urn, (x.claims.get? urn).isSome = true → (c.get? urn).isSome = true) :
    rs.foldl (fun c x => c.union x.claims) c = c := by
  induction rs with
  | nil => rfl
  | cons x rs ih =>
      rw [List.foldl_cons, union_eq_self (h x List.mem_cons_self)]
      exact ih fun y hy => h y (List.mem_cons_of_mem x hy)

theorem joined_eq_head? {rs : List Repo} (h : ∀ a ∈ rs, ∀ b ∈ rs, ∀ urn,
    (b.claims.get? urn).isSome = true → (a.claims.get? urn).isSome = true) :
    joined rs = rs.head? := by
  cases rs with
  | nil => rfl
  | cons r rs =>
      have hclaims := foldl_union_eq_self fun x hx =>
        h r List.mem_cons_self x (List.mem_cons_of_mem r hx)
      rw [joined, hclaims]
      rfl

/-- No entry with the name of `r` has a smaller identity. -/
def Foremost (rs : List Repo) (r : Repo) : Prop :=
  ∀ x ∈ rs, x.lowerName = r.lowerName → ¬x.spec < r.spec

theorem foremost_cons {x r : Repo} {rs : List Repo} :
    Foremost (x :: rs) r ↔ (x.lowerName = r.lowerName → ¬x.spec < r.spec) ∧ Foremost rs r :=
  List.forall_mem_cons

theorem foremost_head {x : Repo} {rs : List Repo} (h : ∀ y ∈ rs, x.spec < y.spec) :
    Foremost (x :: rs) x := by
  rw [foremost_cons]
  exact ⟨fun _ => Spec.lt_irrefl _, fun y hy _ => Spec.lt_asymm (h y hy)⟩

theorem mem_kept {rs : List Repo} (hrs : rs.Pairwise fun a b => a.spec < b.spec)
    {taken : List String} {r : Repo} : r ∈ (splitByName taken rs).1 ↔
      r ∈ rs ∧ r.lowerName ∉ taken ∧ Foremost rs r := by
  induction rs generalizing taken with
  | nil => simp [splitByName]
  | cons x rs ih =>
      obtain ⟨hx, hrest⟩ := List.pairwise_cons.mp hrs
      unfold splitByName
      by_cases hname : x.lowerName ∈ taken
      · simp only [hname, if_true]
        rw [ih hrest, foremost_cons, List.mem_cons]
        constructor
        · rintro ⟨hr, htaken, hfore⟩
          exact ⟨.inr hr, htaken, fun heq => absurd (heq ▸ hname) htaken, hfore⟩
        · rintro ⟨rfl | hr, htaken, -, hfore⟩
          · exact absurd hname htaken
          · exact ⟨hr, htaken, hfore⟩
      · simp only [hname, if_false]
        rw [List.mem_cons, ih hrest, List.mem_cons, List.mem_cons, not_or]
        constructor
        · rintro (rfl | ⟨hr, ⟨hne, htaken⟩, hfore⟩)
          · exact ⟨.inl rfl, hname, foremost_head hx⟩
          · exact ⟨.inr hr, htaken, foremost_cons.mpr ⟨fun heq => absurd heq.symm hne, hfore⟩⟩
        · rintro ⟨rfl | hr, htaken, hfore⟩
          · exact .inl rfl
          · obtain ⟨hhead, hfore⟩ := foremost_cons.mp hfore
            exact .inr ⟨hr, ⟨fun heq => hhead heq.symm (hx r hr), htaken⟩, hfore⟩

theorem mem_lost {rs : List Repo} (hrs : rs.Pairwise fun a b => a.spec < b.spec)
    {taken : List String} {r : Repo} : r ∈ (splitByName taken rs).2 ↔
      r ∈ rs ∧ (r.lowerName ∈ taken ∨ ¬Foremost rs r) := by
  induction rs generalizing taken with
  | nil => simp [splitByName]
  | cons x rs ih =>
      obtain ⟨hx, hrest⟩ := List.pairwise_cons.mp hrs
      unfold splitByName
      by_cases hname : x.lowerName ∈ taken
      · simp only [hname, if_true]
        rw [List.mem_cons, ih hrest, foremost_cons, List.mem_cons]
        constructor
        · rintro (rfl | ⟨hr, htaken | hfore⟩)
          · exact ⟨.inl rfl, .inl hname⟩
          · exact ⟨.inr hr, .inl htaken⟩
          · exact ⟨.inr hr, .inr fun h => hfore h.2⟩
        · rintro ⟨rfl | hr, htaken | hfore⟩
          · exact .inl rfl
          · exact .inl rfl
          · exact .inr ⟨hr, .inl htaken⟩
          · by_cases htaken : r.lowerName ∈ taken
            · exact .inr ⟨hr, .inl htaken⟩
            · refine .inr ⟨hr, .inr fun h => hfore ⟨fun heq => ?_, h⟩⟩
              exact absurd (heq ▸ hname) htaken
      · simp only [hname, if_false]
        rw [ih hrest, List.mem_cons, List.mem_cons]
        constructor
        · rintro ⟨hr, (heq | htaken) | hfore⟩
          · exact ⟨.inr hr, .inr fun h => (foremost_cons.mp h).1 heq.symm (hx r hr)⟩
          · exact ⟨.inr hr, .inl htaken⟩
          · exact ⟨.inr hr, .inr fun h => hfore (foremost_cons.mp h).2⟩
        · rintro ⟨rfl | hr, htaken | hfore⟩
          · exact absurd htaken hname
          · exact absurd (foremost_head hx) hfore
          · exact ⟨hr, .inl (.inr htaken)⟩
          · by_cases heq : r.lowerName = x.lowerName
            · exact ⟨hr, .inl (.inl heq)⟩
            · exact ⟨hr, .inr fun h => hfore (foremost_cons.mpr ⟨fun h' => absurd h'.symm heq, h⟩)⟩

/-- The stored repository brought up to date, if what survives of its identity differs from it. -/
def revision (survivors : Dict Spec Repo) (old : Repo) : Option Repo :=
  (survivors.get? old.spec).bind fun r => if old.differs r then some (old.revised r) else none

/-- Whether something survives of the identity that does not differ from the stored repository. -/
def stays (survivors : Dict Spec Repo) (old : Repo) : Bool :=
  (survivors.get? old.spec).any fun r => !old.differs r

/-- The stored repository without the claims that it loses, if nothing survives of its identity. -/
def departure (scope : Option String) (survivors : Dict Spec Repo) (losers : List Spec)
    (old : Repo) : Option Repo :=
  match survivors.get? old.spec with
  | some _ => none
  | none => some (if old.spec ∈ losers then old.unclaimed else withdrawn scope old)

theorem revision_of_differs {survivors : Dict Spec Repo} {old listed : Repo}
    (hget : survivors.get? old.spec = some listed) (h : old.differs listed = true) :
    revision survivors old = some (old.revised listed) := by
  unfold revision
  rw [hget, Option.bind_some, if_pos h]

theorem withdrawn_eq (scope : Option String) (r : Repo) :
    withdrawn scope r = { r with claims := scope.elim ∅ r.claims.erase } := by
  cases scope <;> rfl

theorem departure_eq_some_iff {scope : Option String} {survivors : Dict Spec Repo}
    {losers : List Spec} {old x : Repo} : departure scope survivors losers old = some x ↔
      survivors.get? old.spec = none ∧
        x = if old.spec ∈ losers then old.unclaimed else withdrawn scope old := by
  unfold departure
  cases survivors.get? old.spec with
  | none => simp [eq_comm]
  | some listed => simp

theorem claims_of_departure {scope : Option String} {survivors : Dict Spec Repo}
    {losers : List Spec} {old x : Repo} (h : departure scope survivors losers old = some x) :
    x = { old with claims := x.claims } := by
  obtain ⟨-, rfl⟩ := departure_eq_some_iff.mp h
  split
  · rfl
  · rw [withdrawn_eq]

theorem spec_of_departure {scope : Option String} {survivors : Dict Spec Repo} {losers : List Spec}
    {old x : Repo} (h : departure scope survivors losers old = some x) : x.spec = old.spec := by
  rw [claims_of_departure h]

theorem exists_departure (scope : Option String) {survivors : Dict Spec Repo} (losers : List Spec)
    {old : Repo} (h : survivors.get? old.spec = none) :
    ∃ x, departure scope survivors losers old = some x ∧ x.spec = old.spec := by
  have hgone : departure scope survivors losers old = some _ :=
    departure_eq_some_iff.mpr ⟨h, rfl⟩
  exact ⟨_, hgone, spec_of_departure hgone⟩

/-- What survives of identities that are not stored. -/
def arrivals (survivors : Dict Spec Repo) (stored : List Repo) : Dict Spec Repo :=
  survivors.filterKeys fun spec => !stored.any (·.spec == spec)

theorem get?_arrivals (survivors : Dict Spec Repo) (stored : List Repo) (spec : Spec) :
    (arrivals survivors stored).get? spec =
      if ∃ old ∈ stored, old.spec = spec then none else survivors.get? spec := by
  unfold arrivals
  rw [Dict.get?_filterKeys]
  by_cases h : ∃ old ∈ stored, old.spec = spec
  · rw [if_pos h, if_neg]
    simpa using h
  · rw [if_neg h, if_pos]
    simpa using h

/-- How a list of stored repositories is settled. -/
def settled (scope : Option String) (survivors : Dict Spec Repo) (losers : List Spec)
    (stored : List Repo) : Diff where
  added := (arrivals survivors stored).values
  deleted := stored.filterMap (departure scope survivors losers)
  modified := stored.filterMap (revision survivors)
  unmodified := stored.filter (stays survivors)

theorem settled_congr (scope : Option String) {survivors survivors' : Dict Spec Repo}
    {losers losers' : List Spec} {stored : List Repo}
    (hget : ∀ x ∈ stored, survivors'.get? x.spec = survivors.get? x.spec)
    (hlosers : ∀ x ∈ stored, x.spec ∈ losers' ↔ x.spec ∈ losers) :
    stored.filterMap (departure scope survivors' losers') =
        stored.filterMap (departure scope survivors losers) ∧
      stored.filterMap (revision survivors') = stored.filterMap (revision survivors) ∧
        stored.filter (stays survivors') = stored.filter (stays survivors) := by
  refine ⟨?_, ?_, ?_⟩
  · refine List.filterMap_congr fun x hx => ?_
    unfold departure
    rw [hget x hx]
    simp only [hlosers x hx]
  · refine List.filterMap_congr fun x hx => ?_
    unfold revision
    rw [hget x hx]
  · refine List.filter_congr fun x hx => ?_
    unfold stays
    rw [hget x hx]

theorem arrivals_cons_of_none {survivors : Dict Spec Repo} {old : Repo}
    (h : survivors.get? old.spec = none) (rest : List Repo) :
    arrivals survivors (old :: rest) = arrivals survivors rest := by
  refine Dict.ext_get? fun spec => ?_
  rw [get?_arrivals, get?_arrivals]
  simp only [List.exists_mem_cons_iff]
  by_cases hspec : old.spec = spec
  · subst hspec
    simp [h]
  · simp [hspec]

theorem arrivals_erase (survivors : Dict Spec Repo) (old : Repo) (rest : List Repo) :
    arrivals (survivors.erase old.spec) rest = arrivals survivors (old :: rest) := by
  refine Dict.ext_get? fun spec => ?_
  rw [get?_arrivals, get?_arrivals, Dict.get?_erase]
  simp only [List.exists_mem_cons_iff]
  by_cases hspec : old.spec = spec
  · simp [hspec]
  · simp [hspec, Ne.symm hspec]

theorem arrivals_nil (survivors : Dict Spec Repo) : arrivals survivors [] = survivors := by
  refine Dict.ext_get? fun spec => ?_
  rw [get?_arrivals, if_neg]
  simp

theorem settled_cons_of_some (scope : Option String) {survivors : Dict Spec Repo}
    (losers : List Spec) {old listed : Repo} {rest : List Repo}
    (hget : survivors.get? old.spec = some listed) (hrest : ∀ x ∈ rest, old.spec ≠ x.spec) :
    settled scope survivors losers (old :: rest) =
      let d := settled scope (survivors.erase old.spec) losers rest
      if old.differs listed then { d with modified := old.revised listed :: d.modified }
      else { d with unmodified := old :: d.unmodified } := by
  have herase : ∀ x ∈ rest, (survivors.erase old.spec).get? x.spec = survivors.get? x.spec := by
    intro x hx
    rw [Dict.get?_erase, if_neg (Ne.symm (hrest x hx))]
  obtain ⟨hdeparture, hrevision, hstays⟩ := settled_congr scope herase
    (fun x _ => Iff.rfl (a := x.spec ∈ losers))
  have hgone : departure scope survivors losers old = none := by
    unfold departure
    rw [hget]
  unfold settled
  rw [arrivals_erase, hdeparture, hrevision, hstays, List.filterMap_cons_none hgone]
  by_cases hdiffers : old.differs listed = true
  · have hrevised := revision_of_differs hget hdiffers
    have hnot : ¬stays survivors old = true := by
      unfold stays
      simp [hget, hdiffers]
    rw [if_pos hdiffers, List.filterMap_cons_some hrevised, List.filter_cons_of_neg hnot]
  · have hrevised : revision survivors old = none := by
      unfold revision
      rw [hget, Option.bind_some, if_neg hdiffers]
    have hstay : stays survivors old = true := by
      unfold stays
      simp [hget, hdiffers]
    rw [if_neg hdiffers, List.filterMap_cons_none hrevised, List.filter_cons_of_pos hstay]

theorem settled_cons_of_none (scope : Option String) {survivors : Dict Spec Repo}
    (losers : List Spec) {old : Repo} (rest : List Repo)
    (hget : survivors.get? old.spec = none) :
    settled scope survivors losers (old :: rest) =
      let d := settled scope survivors losers rest
      { d with deleted :=
        (if old.spec ∈ losers then old.unclaimed else withdrawn scope old) :: d.deleted } := by
  have hrevised : revision survivors old = none := by
    unfold revision
    rw [hget, Option.bind_none]
  have hnot : ¬stays survivors old = true := by
    unfold stays
    simp [hget]
  have hgone : departure scope survivors losers old =
      some (if old.spec ∈ losers then old.unclaimed else withdrawn scope old) := by
    unfold departure
    rw [hget]
  unfold settled
  rw [arrivals_cons_of_none hget, List.filterMap_cons_none hrevised, List.filter_cons_of_neg hnot,
    List.filterMap_cons_some hgone]

/-- Stored repositories of different identities are settled independently. -/
theorem settle_eq (scope : Option String) (survivors : Dict Spec Repo) (losers : List Spec)
    {stored : List Repo} (hstored : stored.Pairwise fun a b => a.spec ≠ b.spec) :
    settle scope survivors losers stored = settled scope survivors losers stored := by
  induction stored generalizing survivors losers with
  | nil =>
      unfold settled
      rw [arrivals_nil]
      rfl
  | cons old rest ih =>
      obtain ⟨hold, hrest⟩ := List.pairwise_cons.mp hstored
      unfold settle
      cases hget : survivors.get? old.spec with
      | some listed =>
          simp only [ih _ _ hrest]
          exact (settled_cons_of_some scope losers hget hold).symm
      | none =>
          simp only []
          rw [settled_cons_of_none scope losers rest hget]
          by_cases hmem : old.spec ∈ losers
          · obtain ⟨hdeparture, -, -⟩ := settled_congr scope
              (fun x _ => Eq.refl (survivors.get? x.spec))
              (fun x hx => List.mem_erase_of_ne (Ne.symm (hold x hx)))
            rw [if_pos hmem, if_pos hmem, ih _ _ hrest]
            unfold settled
            rw [hdeparture]
          · rw [if_neg hmem, if_neg hmem, ih _ _ hrest]

theorem head_of_joined {rs : List Repo} {r : Repo} (h : joined rs = some r) :
    ∃ x, rs.head? = some x ∧ r = { x with claims := r.claims } := by
  cases rs with
  | nil => cases h
  | cons x rs =>
      cases h
      exact ⟨x, rfl, rfl⟩

theorem spec_of_joined {rs : List Repo} {r : Repo} (h : joined rs = some r) :
    ∃ x ∈ rs, r = { x with claims := r.claims } := by
  obtain ⟨x, hx, hr⟩ := head_of_joined h
  exact ⟨x, List.mem_of_head? hx, hr⟩

theorem spec_of_mergeListed {sourced : List Repo} {spec : Spec} {r : Repo}
    (h : (mergeListed sourced).get? spec = some r) : r.spec = spec := by
  rw [get?_mergeListed] at h
  obtain ⟨x, hx, hr⟩ := spec_of_joined h
  rw [hr]
  simpa using (List.mem_filter.mp hx).2

theorem mem_mergeListed_values {sourced : List Repo} {r : Repo} :
    r ∈ (mergeListed sourced).values ↔ (mergeListed sourced).get? r.spec = some r := by
  rw [Dict.mem_values]
  constructor
  · rintro ⟨spec, h⟩
    rw [spec_of_mergeListed h]
    exact h
  · intro h
    exact ⟨r.spec, h⟩

/-- Every repository stands under its identity. -/
def Keyed (d : Dict Spec Repo) : Prop :=
  ∀ spec r, d.get? spec = some r → r.spec = spec

theorem pairwise_values {d : Dict Spec Repo} (h : Keyed d) :
    d.values.Pairwise fun a b => a.spec < b.spec := by
  unfold Dict.values
  rw [List.pairwise_map]
  refine d.sorted.imp_of_mem fun {a b} ha hb hab => ?_
  rw [h a.1 a.2 (Dict.get?_eq_some_iff.mpr ha), h b.1 b.2 (Dict.get?_eq_some_iff.mpr hb)]
  exact hab

def survivorsOf (sourced : List Repo) : Dict Spec Repo :=
  (splitByName [] (mergeListed sourced).values).1.foldl (fun d r => d.insert r.spec r) ∅

def losersOf (sourced : List Repo) : List Spec :=
  (splitByName [] (mergeListed sourced).values).2.map (·.spec)

theorem pairwise_merged (sourced : List Repo) :
    (mergeListed sourced).values.Pairwise fun a b => a.spec < b.spec :=
  pairwise_values fun _ _ => spec_of_mergeListed

theorem get?_survivorsOf {sourced : List Repo} {spec : Spec} {r : Repo} :
    (survivorsOf sourced).get? spec = some r ↔
      (mergeListed sourced).get? spec = some r ∧ Foremost (mergeListed sourced).values r := by
  have hofList : survivorsOf sourced = .ofList
      ((splitByName [] (mergeListed sourced).values).1.map fun r => (r.spec, r)) := by
    unfold survivorsOf Dict.ofList
    rw [List.foldl_map]
    rfl
  have hmem : ∀ x, x ∈ (splitByName [] (mergeListed sourced).values).1 ↔
      (mergeListed sourced).get? x.spec = some x ∧ Foremost (mergeListed sourced).values x := by
    intro x
    rw [mem_kept (pairwise_merged sourced), mem_mergeListed_values]
    simp
  rw [hofList]
  constructor
  · intro h
    obtain ⟨x, hx, heq⟩ := List.mem_map.mp (Dict.mem_of_get?_ofList h)
    cases heq
    exact (hmem r).mp hx
  · rintro ⟨hget, hfore⟩
    have hspec := spec_of_mergeListed hget
    subst hspec
    refine Dict.get?_ofList_of_mem (List.mem_map.mpr ⟨r, (hmem r).mpr ⟨hget, hfore⟩, rfl⟩) ?_
    intro b hb
    obtain ⟨x, hx, heq⟩ := List.mem_map.mp hb
    obtain ⟨hspec, rfl⟩ := Prod.mk.inj heq
    have hx' := ((hmem x).mp hx).1
    rw [hspec, hget] at hx'
    cases hx'
    rfl

theorem keyed_survivorsOf (sourced : List Repo) : Keyed (survivorsOf sourced) :=
  fun _ _ hget => spec_of_mergeListed (get?_survivorsOf.mp hget).1

theorem keyed_arrivals {survivors : Dict Spec Repo} (h : Keyed survivors) (stored : List Repo) :
    Keyed (arrivals survivors stored) := by
  intro spec r hget
  rw [get?_arrivals] at hget
  split at hget
  · cases hget
  · exact h spec r hget

theorem mem_losersOf {sourced : List Repo} {spec : Spec} : spec ∈ losersOf sourced ↔
    ∃ r, (mergeListed sourced).get? spec = some r ∧ ¬Foremost (mergeListed sourced).values r := by
  unfold losersOf
  rw [List.mem_map]
  constructor
  · rintro ⟨r, hr, rfl⟩
    rw [mem_lost (pairwise_merged sourced), mem_mergeListed_values] at hr
    exact ⟨r, hr.1, hr.2.resolve_left (by simp)⟩
  · rintro ⟨r, hget, hfore⟩
    have hspec := spec_of_mergeListed hget
    subst hspec
    refine ⟨r, ?_, rfl⟩
    rw [mem_lost (pairwise_merged sourced), mem_mergeListed_values]
    exact ⟨hget, .inr hfore⟩

/-- A comparison settles each stored repository by what survives of its identity. -/
theorem between_eq (scope : Option String) (sourced : List Repo) {stored : List Repo}
    (hstored : stored.Pairwise fun a b => a.spec ≠ b.spec) :
    between scope sourced stored =
      settled scope (survivorsOf sourced) (losersOf sourced) stored :=
  settle_eq scope _ _ hstored

theorem id_of_revision {survivors : Dict Spec Repo} {old x : Repo}
    (h : revision survivors old = some x) : x.id = old.id := by
  unfold revision at h
  obtain ⟨listed, -, hx⟩ := Option.bind_eq_some_iff.mp h
  split at hx
  · cases hx
    rfl
  · cases hx

theorem spec_of_revision {sourced : List Repo} {old x : Repo}
    (h : revision (survivorsOf sourced) old = some x) : x.spec = old.spec := by
  unfold revision at h
  obtain ⟨r, hget, hx⟩ := Option.bind_eq_some_iff.mp h
  split at hx
  · cases hx
    exact Repo.spec_revised (keyed_survivorsOf sourced _ r hget)
  · cases hx

theorem pairwise_deleted (scope : Option String) (sourced : List Repo) {stored : List Repo}
    (hstored : stored.Pairwise fun a b => a.spec ≠ b.spec) :
    (between scope sourced stored).deleted.Pairwise fun a b => a.spec ≠ b.spec := by
  rw [between_eq scope sourced hstored]
  refine List.Pairwise.filterMap _ (fun a b hab x hx y hy => ?_) hstored
  rw [spec_of_departure hx, spec_of_departure hy]
  exact hab

theorem pairwise_modified (scope : Option String) (sourced : List Repo) {stored : List Repo}
    (hstored : stored.Pairwise fun a b => a.spec ≠ b.spec) :
    (between scope sourced stored).modified.Pairwise fun a b => a.spec ≠ b.spec := by
  rw [between_eq scope sourced hstored]
  refine List.Pairwise.filterMap _ (fun a b hab x hx y hy => ?_) hstored
  rw [spec_of_revision hx, spec_of_revision hy]
  exact hab

theorem ordered_added (scope : Option String) (sourced : List Repo) {stored : List Repo}
    (hstored : stored.Pairwise fun a b => a.spec ≠ b.spec) :
    (between scope sourced stored).added.Pairwise fun a b => a.spec < b.spec := by
  rw [between_eq scope sourced hstored]
  exact pairwise_values (keyed_arrivals (keyed_survivorsOf sourced) stored)

theorem pairwise_added (scope : Option String) (sourced : List Repo) {stored : List Repo}
    (hstored : stored.Pairwise fun a b => a.spec ≠ b.spec) :
    (between scope sourced stored).added.Pairwise fun a b => a.spec ≠ b.spec :=
  (ordered_added scope sourced hstored).imp Spec.ne_of_lt

theorem name_of_settle (scope : Option String) {survivors : Dict Spec Repo} {losers : List Spec}
    {stored : List Repo} {x : Repo}
    (hx : x ∈ (settle scope survivors losers stored).modified ++
      (settle scope survivors losers stored).added) :
    ∃ spec r, survivors.get? spec = some r ∧ x.name = r.name := by
  induction stored generalizing survivors losers with
  | nil =>
      obtain ⟨spec, hget⟩ := Dict.mem_values.mp (show x ∈ survivors.values from hx)
      exact ⟨spec, x, hget, rfl⟩
  | cons old rest ih =>
      unfold settle at hx
      cases hget : survivors.get? old.spec with
      | some listed =>
          have hrest : x ∈ (settle scope (survivors.erase old.spec) losers rest).modified ++
              (settle scope (survivors.erase old.spec) losers rest).added →
              ∃ spec r, survivors.get? spec = some r ∧ x.name = r.name := by
            intro h
            obtain ⟨spec, r, hr, hname⟩ := ih h
            exact ⟨spec, r, (Dict.get?_erase_eq_some_iff.mp hr).2, hname⟩
          simp only [hget] at hx
          split at hx
          · rcases List.mem_cons.mp hx with rfl | hx
            · exact ⟨old.spec, listed, hget, rfl⟩
            · exact hrest hx
          · exact hrest hx
      | none =>
          simp only [hget] at hx
          split at hx
          · exact ih hx
          · exact ih hx

theorem name_of_between {scope : Option String} {sourced stored : List Repo} {x : Repo}
    (hx : x ∈ (between scope sourced stored).modified ++ (between scope sourced stored).added) :
    ∃ r ∈ sourced, x.name = r.name := by
  obtain ⟨spec, r, hget, hname⟩ :
      ∃ spec r, (survivorsOf sourced).get? spec = some r ∧ x.name = r.name := name_of_settle scope hx
  have hmerged := (get?_survivorsOf.mp hget).1
  rw [get?_mergeListed] at hmerged
  obtain ⟨z, hz, hr⟩ := spec_of_joined hmerged
  exact ⟨z, List.mem_mergeSort.mp (List.mem_filter.mp hz).1, hname.trans (by rw [hr])⟩

end Diff

end RepoCatalog
