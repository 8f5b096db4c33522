import RepoCatalog.Proofs.Plan

/-!
# The entries of a listing that count

A listing is read in the order of its entries, by id, name and identity, and entries that agree in
all three are taken as they are listed. The first entry of an identity counts, and of the entries
that count the one of the smallest identity survives among those of its name.
-/
namespace RepoCatalog

namespace Repo

instance : Std.TransCmp Repo.order :=
  inferInstanceAs <| Std.TransCmp <|
    compareLex (compareOn Repo.id) (compareLex (compareOn Repo.name) (compareOn Repo.spec))

theorem order_eq_iff {a b : Repo} :
    order a b = .eq ↔ a.id = b.id ∧ a.name = b.name ∧ a.spec = b.spec := by
  unfold order
  simp only [Ordering.then_eq_eq, Std.LawfulEqCmp.compare_eq_iff_eq]

theorem isLE_order_trans (a b c : Repo) (hab : (order a b).isLE = true)
    (hbc : (order b c).isLE = true) : (order a c).isLE = true :=
  Std.TransCmp.isLE_trans hab hbc

theorem order_swap (a b : Repo) : order b a = (order a b).swap :=
  Std.OrientedCmp.eq_swap

theorem isLE_order_total (a b : Repo) : ((order a b).isLE || (order b a).isLE) = true := by
  rw [order_swap a b]
  cases order a b <;> rfl

theorem not_isLE_order {a b : Repo} : (!(order a b).isLE) = true ↔ order b a = .lt := by
  rw [order_swap a b]
  cases order a b <;> decide

theorem pairwise_sort (rs : List Repo) :
    (sort rs).Pairwise fun a b => (order a b).isLE = true :=
  List.pairwise_mergeSort isLE_order_trans isLE_order_total rs

theorem mem_sort {rs : List Repo} {r : Repo} : r ∈ sort rs ↔ r ∈ rs :=
  List.mem_mergeSort

/-- The order of a listing does not matter for its sorted form if entries that the order does not
tell apart are equal. -/
theorem sort_eq_of_perm {rs rs' : List Repo} (h : rs.Perm rs')
    (hties : ∀ a ∈ rs, ∀ b ∈ rs, a.id = b.id → a.name = b.name → a.spec = b.spec → a = b) :
    sort rs = sort rs' := by
  apply List.Perm.eq_of_pairwise _ (pairwise_sort rs) (pairwise_sort rs')
  · calc (sort rs).Perm rs := List.mergeSort_perm rs _
      _ |>.Perm rs' := h
      _ |>.Perm (sort rs') := (List.mergeSort_perm rs' _).symm
  · intro a b ha hb hab hba
    obtain ⟨hid, hname, hspec⟩ := order_eq_iff.mp (Std.OrientedCmp.isLE_antisymm hab hba)
    exact hties a (mem_sort.mp ha) b (h.mem_iff.mpr (mem_sort.mp hb)) hid hname hspec

/-- The entry of a listing that comes first, by id, name and identity, of those that satisfy `p`.
Entries that agree in all three come as they are listed. -/
def Earliest (p : Repo → Prop) (rs : List Repo) (r : Repo) : Prop :=
  ∃ before after, rs = before ++ r :: after ∧ p r ∧
    (∀ x ∈ before, p x → order r x = .lt) ∧ ∀ x ∈ after, p x → (order r x).isLE = true

variable {p : Repo → Prop} {rs : List Repo} {a r : Repo}

theorem Earliest.mem (h : Earliest p rs r) : r ∈ rs := by
  obtain ⟨before, after, rfl, -⟩ := h
  exact List.mem_append_cons_self

theorem Earliest.holds (h : Earliest p rs r) : p r := by
  obtain ⟨before, after, -, hp, -⟩ := h
  exact hp

theorem earliest_head (hp : p a) (hleast : ∀ x ∈ rs, p x → (order a x).isLE = true) :
    Earliest p (a :: rs) a := by
  refine ⟨[], rs, rfl, hp, ?_, hleast⟩
  intro x hx
  cases hx

theorem Earliest.cons (h : Earliest p rs r) (hlt : p a → order r a = .lt) :
    Earliest p (a :: rs) r := by
  obtain ⟨before, after, rfl, hp, hbefore, hafter⟩ := h
  exact ⟨a :: before, after, rfl, hp, List.forall_mem_cons.mpr ⟨hlt, hbefore⟩, hafter⟩

theorem earliest_cons : Earliest p (a :: rs) r ↔
    (r = a ∧ p a ∧ ∀ x ∈ rs, p x → (order a x).isLE = true) ∨
      Earliest p rs r ∧ (p a → order r a = .lt) := by
  constructor
  · rintro ⟨before, after, heq, hp, hbefore, hafter⟩
    cases before with
    | nil =>
        cases heq
        exact .inl ⟨rfl, hp, hafter⟩
    | cons b before =>
        cases heq
        obtain ⟨hb, hbefore⟩ := List.forall_mem_cons.mp hbefore
        exact .inr ⟨⟨before, after, rfl, hp, hbefore, hafter⟩, hb⟩
  · rintro (⟨rfl, hp, hleast⟩ | ⟨h, hlt⟩)
    · exact earliest_head hp hleast
    · exact h.cons hlt

theorem find?_sort_cons {q : Repo → Bool} : (sort (a :: rs)).find? q = some r ↔
    (r = a ∧ q a = true ∧ ∀ x ∈ rs, q x = true → (order a x).isLE = true) ∨
      (sort rs).find? q = some r ∧ (q a = true → order r a = .lt) := by
  obtain ⟨l₁, l₂, hcons, hrest, hsmaller⟩ :=
    List.mergeSort_cons isLE_order_trans isLE_order_total a rs
  have hsorted := pairwise_sort (a :: rs)
  unfold sort at hsorted ⊢
  rw [hcons] at hsorted ⊢
  have hlarger : ∀ x ∈ l₂, (order a x).isLE = true :=
    (List.pairwise_cons.mp (List.pairwise_append.mp hsorted).2.1).1
  have hmem : ∀ x, x ∈ rs ↔ x ∈ l₁ ∨ x ∈ l₂ := by
    intro x
    rw [← List.mem_append, ← hrest, List.mem_mergeSort]
  rw [hrest, List.find?_append, List.find?_append, List.find?_cons]
  cases hfound : l₁.find? q with
  | some x =>
      have hx := List.mem_of_find?_eq_some hfound
      have hlt := not_isLE_order.mp (hsmaller x hx)
      simp only [Option.some_or, Option.some.injEq]
      constructor
      · rintro rfl
        exact .inr ⟨rfl, fun _ => hlt⟩
      · rintro (⟨-, -, hleast⟩ | ⟨hr, -⟩)
        · have hle := hleast x ((hmem x).mpr (.inl hx)) (List.find?_some hfound)
          rw [← not_isLE_order, hle] at hlt
          cases hlt
        · exact hr
  | none =>
      have hnone := List.find?_eq_none.mp hfound
      simp only [Option.none_or]
      cases hq : q a with
      | false => simp
      | true =>
          constructor
          · rintro ⟨⟩
            refine .inl ⟨rfl, rfl, fun x hx hqx => ?_⟩
            rcases (hmem x).mp hx with hx | hx
            · exact absurd hqx (hnone x hx)
            · exact hlarger x hx
          · rintro (⟨rfl, -, -⟩ | ⟨hr, hlt⟩)
            · rfl
            · have hle := hlarger r (List.mem_of_find?_eq_some hr)
              rw [← not_isLE_order, hle] at hlt
              cases hlt rfl

/-- The first match in the sorted listing is the earliest entry that matches. -/
theorem find?_sort {q : Repo → Bool} :
    (sort rs).find? q = some r ↔ Earliest (fun x => q x = true) rs r := by
  induction rs with
  | nil =>
      have hnone : ¬Earliest (fun x => q x = true) [] r := fun h => List.not_mem_nil h.mem
      simp only [sort, List.mergeSort_nil, List.find?_nil, reduceCtorEq, hnone]
  | cons a rs ih => rw [find?_sort_cons, earliest_cons, ih]

theorem exists_earliest [DecidablePred p] (h : ∃ x ∈ rs, p x) : ∃ r, Earliest p rs r := by
  obtain ⟨x, hx, hp⟩ := h
  have hsome : ((sort rs).find? fun x => decide (p x)).isSome = true :=
    List.find?_isSome.mpr ⟨x, mem_sort.mpr hx, decide_eq_true hp⟩
  obtain ⟨r, hr⟩ := Option.isSome_iff_exists.mp hsome
  exact ⟨r, by simpa only [decide_eq_true_eq] using find?_sort.mp hr⟩

/-- An entry that counts: the earliest of its identity. -/
def Counts (sourced : List Repo) (r : Repo) : Prop :=
  Earliest (fun x => x.spec = r.spec) sourced r

/-- An entry that counts and keeps its name: no entry that counts has this name and a smaller
identity. -/
structure Survives (sourced : List Repo) (r : Repo) : Prop where
  counts : r.Counts sourced
  foremost : ∀ x : Repo, x.Counts sourced → x.lowerName = r.lowerName → ¬x.spec < r.spec

end Repo

open Repo (Earliest Counts Survives)

namespace Syncer

variable {sourced : List Repo} {spec : Spec} {r : Repo}

theorem first?_eq_some_iff :
    first? sourced spec = some r ↔ Earliest (fun x => x.spec = spec) sourced r := by
  unfold first?
  simpa only [beq_iff_eq] using Repo.find?_sort (q := fun x => x.spec == spec)

theorem counts_iff : Counts sourced r ↔ first? sourced r.spec = some r :=
  first?_eq_some_iff.symm

theorem survives_iff_leads : Survives sourced r ↔ Leads sourced r := by
  constructor
  · intro h
    exact ⟨counts_iff.mp h.counts, fun x hx => h.foremost x (counts_iff.mpr hx)⟩
  · rintro ⟨hfirst, hleast⟩
    exact ⟨counts_iff.mpr hfirst, fun x hx => hleast x (counts_iff.mp hx)⟩

end Syncer

namespace Repo

variable {sourced : List Repo} {a b r : Repo}

theorem Counts.mem (h : r.Counts sourced) : r ∈ sourced :=
  Earliest.mem h

theorem Counts.eq_of_spec (ha : a.Counts sourced) (hb : b.Counts sourced) (h : a.spec = b.spec) :
    a = b := by
  have hfirst := Syncer.counts_iff.mp ha
  rw [h, Syncer.counts_iff.mp hb] at hfirst
  exact (Option.some.inj hfirst).symm

theorem Counts.exists_survives (h : r.Counts sourced) :
    ∃ x : Repo, x.Survives sourced ∧ x.lowerName = r.lowerName := by
  obtain ⟨x, hx, hname⟩ := Syncer.exists_leads (Syncer.counts_iff.mp h)
  exact ⟨x, Syncer.survives_iff_leads.mpr hx, hname⟩

theorem Survives.eq_of_name (ha : a.Survives sourced) (hb : b.Survives sourced)
    (h : a.lowerName = b.lowerName) : a = b :=
  (Syncer.survives_iff_leads.mp ha).eq_of_name (Syncer.survives_iff_leads.mp hb) h

end Repo

namespace Diff

variable {sourced : List Repo} {spec : Spec} {r : Repo}

theorem joined_of_head {rs : List Repo} {x : Repo} (h : rs.head? = some x) :
    ∃ r, joined rs = some r := by
  cases rs with
  | nil => cases h
  | cons x rs => exact ⟨_, rfl⟩

theorem get?_foldl_union (rs : List Repo) (c : Claims) (urn : String) :
    (rs.foldl (fun c x => c.union x.claims) c).get? urn =
      (c.get? urn).or
        ((rs.find? fun x => (x.claims.get? urn).isSome).bind (·.claims.get? urn)) := by
  induction rs generalizing c with
  | nil => simp
  | cons x rs ih =>
      rw [List.foldl_cons, ih, Dict.get?_union, Option.or_assoc, List.find?_cons]
      cases hx : x.claims.get? urn with
      | none => simp
      | some claim => simp [hx]

theorem get?_claims_of_joined {rs : List Repo} (h : joined rs = some r) (urn : String) :
    r.claims.get? urn =
      (rs.find? fun x => (x.claims.get? urn).isSome).bind (·.claims.get? urn) := by
  cases rs with
  | nil => cases h
  | cons x rs =>
      cases h
      rw [get?_foldl_union, List.find?_cons]
      cases hx : x.claims.get? urn with
      | none => simp
      | some claim => simp [hx]

/-- What is merged under an identity has the attributes of its entry that counts. -/
theorem counts_of_merged (h : (mergeListed sourced).get? spec = some r) :
    ∃ x : Repo, x.Counts sourced ∧ x.spec = spec ∧ r = { x with claims := r.claims } := by
  rw [get?_mergeListed] at h
  obtain ⟨x, hx, hr⟩ := head_of_joined h
  rw [List.head?_filter] at hx
  obtain ⟨-, rfl⟩ := Syncer.first?_some hx
  exact ⟨x, Syncer.counts_iff.mpr hx, rfl, hr⟩

theorem merged_of_counts {x : Repo} (h : x.Counts sourced) :
    ∃ r, (mergeListed sourced).get? x.spec = some r ∧ r = { x with claims := r.claims } := by
  have hhead : ((Repo.sort sourced).filter (·.spec == x.spec)).head? = some x := by
    rw [List.head?_filter]
    exact Syncer.counts_iff.mp h
  obtain ⟨r, hr⟩ := joined_of_head hhead
  obtain ⟨y, hy, heq⟩ := head_of_joined hr
  rw [hhead] at hy
  cases hy
  exact ⟨r, (get?_mergeListed sourced x.spec).trans hr, heq⟩

/-- What is merged under an identity has each claim that some entry of it has, and the earliest
such entry decides which. -/
theorem claim_of_merged (h : (mergeListed sourced).get? spec = some r) {urn : String}
    {claim : Claim} : r.claims.get? urn = some claim ↔
      ∃ x, Earliest (fun x => x.spec = spec ∧ (x.claims.get? urn).isSome = true) sourced x ∧
        x.claims.get? urn = some claim := by
  rw [get?_mergeListed] at h
  rw [get?_claims_of_joined h, List.find?_filter, Option.bind_eq_some_iff]
  simp only [Repo.find?_sort, beq_iff_eq, decide_eq_true_eq]

theorem foremost_merged_iff : Foremost (mergeListed sourced).values r ↔
    ∀ x : Repo, x.Counts sourced → x.lowerName = r.lowerName → ¬x.spec < r.spec := by
  constructor
  · intro h x hx hname
    obtain ⟨m, hm, heq⟩ := merged_of_counts hx
    have hmem : m ∈ (mergeListed sourced).values := Dict.mem_values.mpr ⟨x.spec, hm⟩
    have hleast := h m hmem
    rw [heq] at hleast
    exact hleast hname
  · intro h m hm hname
    obtain ⟨x, hx, hspec, heq⟩ := counts_of_merged (mem_mergeListed_values.mp hm)
    rw [heq] at hname
    rw [← hspec]
    exact h x hx hname

theorem survives_of_get? (h : (survivorsOf sourced).get? spec = some r) :
    ∃ x : Repo, x.Survives sourced ∧ x.spec = spec ∧ r = { x with claims := r.claims } := by
  obtain ⟨hmerged, hfore⟩ := get?_survivorsOf.mp h
  obtain ⟨x, hx, hspec, heq⟩ := counts_of_merged hmerged
  rw [heq, foremost_merged_iff] at hfore
  exact ⟨x, ⟨hx, hfore⟩, hspec, heq⟩

theorem get?_of_survives {x : Repo} (h : x.Survives sourced) :
    ∃ r, (survivorsOf sourced).get? x.spec = some r := by
  obtain ⟨r, hr, heq⟩ := merged_of_counts h.counts
  refine ⟨r, get?_survivorsOf.mpr ⟨hr, ?_⟩⟩
  rw [heq, foremost_merged_iff]
  exact h.foremost

theorem get?_survivorsOf_eq_none_iff : (survivorsOf sourced).get? spec = none ↔
    ∀ x : Repo, x.Survives sourced → x.spec ≠ spec := by
  constructor
  · rintro h x hx rfl
    obtain ⟨r, hr⟩ := get?_of_survives hx
    rw [h] at hr
    cases hr
  · intro h
    apply Option.eq_none_iff_forall_ne_some.mpr
    intro r hr
    obtain ⟨x, hx, hspec, -⟩ := survives_of_get? hr
    exact h x hx hspec

theorem mem_losersOf_iff : spec ∈ losersOf sourced ↔
    (∃ x ∈ sourced, x.spec = spec) ∧ (survivorsOf sourced).get? spec = none := by
  rw [mem_losersOf]
  constructor
  · rintro ⟨r, hr, hfore⟩
    obtain ⟨x, hx, hspec, -⟩ := counts_of_merged hr
    refine ⟨⟨x, hx.mem, hspec⟩, ?_⟩
    apply Option.eq_none_iff_forall_ne_some.mpr
    intro r' hr'
    obtain ⟨hmerged, hfore'⟩ := get?_survivorsOf.mp hr'
    rw [hr] at hmerged
    cases hmerged
    exact hfore hfore'
  · rintro ⟨hlisted, hnone⟩
    obtain ⟨x, hx⟩ := Repo.exists_earliest hlisted
    obtain rfl := hx.holds
    obtain ⟨r, hr, -⟩ := merged_of_counts hx
    refine ⟨r, hr, fun hfore => ?_⟩
    rw [get?_survivorsOf.mpr ⟨hr, hfore⟩] at hnone
    cases hnone

end Diff

end RepoCatalog
