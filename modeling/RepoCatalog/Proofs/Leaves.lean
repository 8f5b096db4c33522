import RepoCatalog.Sync.Error

/-!
# The errors in a bundle

Bundles nest to any depth. What an error is taken for depends only on which single errors stand at
the leaves of its tree, neither on how they are bundled nor on their order.
-/
namespace RepoCatalog.SyncError

/-- That `l` is one of the single errors that an error amounts to. -/
inductive Leaf (l : SyncError) : SyncError → Prop
  | self : (∀ es, l ≠ .multi es) → Leaf l l
  | inside {e : SyncError} {es : List SyncError} : e ∈ es → Leaf l e → Leaf l (.multi es)

/-- That some leaf is of a certain sort. -/
def Bears (sort : SyncError → Prop) (e : SyncError) : Prop :=
  ∃ l, Leaf l e ∧ sort l

/-- Bad credentials are named as such by the pass or by the source, or are a status of HTTP. -/
inductive BadCredentials : SyncError → Prop
  | named : BadCredentials .unauthorized
  | reported (service detail : String) : BadCredentials (.source service (.unauthorized detail))
  | status (service body : String) : BadCredentials (.source service (.http 401 body))

inductive AccessDenied : SyncError → Prop
  | named : AccessDenied .forbidden
  | reported (service detail : String) : AccessDenied (.source service (.forbidden detail))
  | status (service body : String) : AccessDenied (.source service (.http 403 body))

/-- There is no status of HTTP for a suspended account. -/
inductive Suspension : SyncError → Prop
  | named : Suspension .accountSuspended
  | reported (service detail : String) : Suspension (.source service (.accountSuspended detail))

inductive QuotaReached : SyncError → Prop
  | quota (error : QuotaError) : QuotaReached (.quota error)

/-- The failure of credentials that the leaves of an error call for, the gravest first. -/
inductive CallsFor (e : SyncError) : Option SyncError → Prop
  | unauthorized : Bears BadCredentials e → CallsFor e (some .unauthorized)
  | forbidden : ¬Bears BadCredentials e → Bears AccessDenied e → CallsFor e (some .forbidden)
  | accountSuspended : ¬Bears BadCredentials e → ¬Bears AccessDenied e → Bears Suspension e →
      CallsFor e (some .accountSuspended)
  | nothing : ¬Bears BadCredentials e → ¬Bears AccessDenied e → ¬Bears Suspension e →
      CallsFor e none

theorem anyLeafOf_eq (p : SyncError → Bool) (es : List SyncError) :
    anyLeafOf p es = es.any (anyLeaf p) := by
  induction es with
  | nil => simp [anyLeafOf]
  | cons e es ih => simp [anyLeafOf, ih]

theorem anyLeaf_multi (p : SyncError → Bool) (es : List SyncError) :
    anyLeaf p (.multi es) = es.any (anyLeaf p) := by
  rw [anyLeaf, anyLeafOf_eq]

theorem anyLeaf_of_single (p : SyncError → Bool) {e : SyncError} (h : ∀ es, e ≠ .multi es) :
    anyLeaf p e = p e := by
  cases e with
  | multi es => exact absurd rfl (h es)
  | _ => rfl

section Search

variable {p : SyncError → Bool}

theorem Leaf.anyLeaf {l e : SyncError} (h : Leaf l e) (hp : p l = true) : anyLeaf p e = true := by
  induction h with
  | self hsingle => rw [anyLeaf_of_single p hsingle, hp]
  | inside hmem _ ih =>
      rw [anyLeaf_multi, List.any_eq_true]
      exact ⟨_, hmem, ih⟩

theorem exists_leaf_of_anyLeaf : ∀ e : SyncError, anyLeaf p e = true → ∃ l, Leaf l e ∧ p l = true
  | .multi es, h => by
      rw [anyLeaf_multi, List.any_eq_true] at h
      obtain ⟨e, hmem, he⟩ := h
      have hsmaller : sizeOf e < sizeOf es := List.sizeOf_lt_of_mem hmem
      obtain ⟨l, hleaf, hp⟩ := exists_leaf_of_anyLeaf e he
      exact ⟨l, .inside hmem hleaf, hp⟩
  | .unauthorized, h => ⟨_, .self nofun, h⟩
  | .forbidden, h => ⟨_, .self nofun, h⟩
  | .accountSuspended, h => ⟨_, .self nofun, h⟩
  | .source _ _, h => ⟨_, .self nofun, h⟩
  | .store _ _, h => ⟨_, .self nofun, h⟩
  | .quota _, h => ⟨_, .self nofun, h⟩
  | .cancelled, h => ⟨_, .self nofun, h⟩

/-- A test of single errors finds a leaf wherever it stands. -/
theorem anyLeaf_iff_bears {sort : SyncError → Prop} (hsort : ∀ l, p l = true ↔ sort l)
    (e : SyncError) : anyLeaf p e = true ↔ Bears sort e := by
  constructor
  · intro h
    obtain ⟨l, hleaf, hp⟩ := exists_leaf_of_anyLeaf e h
    exact ⟨l, hleaf, (hsort l).mp hp⟩
  · rintro ⟨l, hleaf, hl⟩
    exact hleaf.anyLeaf ((hsort l).mpr hl)

end Search

theorem isUnauthorized_iff (e : SyncError) : e.isUnauthorized = true ↔ Bears BadCredentials e := by
  apply anyLeaf_iff_bears
  intro l
  constructor
  · intro h
    match l, h with
    | .unauthorized, _ => exact .named
    | .source service (.unauthorized detail), _ => exact .reported service detail
    | .source service (.http status body), h =>
        obtain rfl : status = 401 := eq_of_beq h
        exact .status service body
  · intro h
    cases h <;> rfl

theorem isForbidden_iff (e : SyncError) : e.isForbidden = true ↔ Bears AccessDenied e := by
  apply anyLeaf_iff_bears
  intro l
  constructor
  · intro h
    match l, h with
    | .forbidden, _ => exact .named
    | .source service (.forbidden detail), _ => exact .reported service detail
    | .source service (.http status body), h =>
        obtain rfl : status = 403 := eq_of_beq h
        exact .status service body
  · intro h
    cases h <;> rfl

theorem isAccountSuspended_iff (e : SyncError) :
    e.isAccountSuspended = true ↔ Bears Suspension e := by
  apply anyLeaf_iff_bears
  intro l
  constructor
  · intro h
    match l, h with
    | .accountSuspended, _ => exact .named
    | .source service (.accountSuspended detail), _ => exact .reported service detail
  · intro h
    cases h <;> rfl

theorem isQuota_iff (e : SyncError) : e.isQuota = true ↔ Bears QuotaReached e := by
  apply anyLeaf_iff_bears
  intro l
  constructor
  · intro h
    match l, h with
    | .quota error, _ => exact .quota error
  · intro h
    cases h
    rfl

theorem callsFor_credentialFailure? (e : SyncError) : CallsFor e e.credentialFailure? := by
  have hunauthorized := isUnauthorized_iff e
  have hforbidden := isForbidden_iff e
  have hsuspended := isAccountSuspended_iff e
  unfold credentialFailure?
  split
  · rename_i h
    exact .unauthorized (hunauthorized.mp h)
  · rename_i hbad
    rw [hunauthorized] at hbad
    split
    · rename_i h
      exact .forbidden hbad (hforbidden.mp h)
    · rename_i hdenied
      rw [hforbidden] at hdenied
      split
      · rename_i h
        exact .accountSuspended hbad hdenied (hsuspended.mp h)
      · rename_i h
        exact .nothing hbad hdenied (mt hsuspended.mpr h)

theorem CallsFor.unique {e : SyncError} {r s : Option SyncError} (hr : CallsFor e r)
    (hs : CallsFor e s) : r = s := by
  cases hr <;> cases hs <;> first | rfl | contradiction

/-- That two errors bundle the same single errors, in whatever way. -/
def SameLeaves (e f : SyncError) : Prop :=
  ∀ l, Leaf l e ↔ Leaf l f

theorem leaf_multi_iff {l : SyncError} {es : List SyncError} :
    Leaf l (.multi es) ↔ ∃ e ∈ es, Leaf l e := by
  constructor
  · intro h
    cases h with
    | self hsingle => exact absurd rfl (hsingle es)
    | inside hmem hleaf => exact ⟨_, hmem, hleaf⟩
  · rintro ⟨e, hmem, hleaf⟩
    exact .inside hmem hleaf

theorem sameLeaves_of_perm {es fs : List SyncError} (h : es.Perm fs) :
    SameLeaves (.multi es) (.multi fs) := by
  intro l
  simp only [leaf_multi_iff, h.mem_iff]

theorem sameLeaves_unbundled (es fs gs : List SyncError) :
    SameLeaves (.multi (es ++ .multi fs :: gs)) (.multi (es ++ fs ++ gs)) := by
  intro l
  simp only [leaf_multi_iff, List.mem_append, List.mem_cons, or_and_right, exists_or,
    exists_eq_left, or_assoc]

theorem SameLeaves.bears_iff {e f : SyncError} (h : SameLeaves e f) (sort : SyncError → Prop) :
    Bears sort e ↔ Bears sort f := by
  unfold Bears
  simp only [h _]

theorem SameLeaves.callsFor {e f : SyncError} (h : SameLeaves e f) {r : Option SyncError}
    (hr : CallsFor e r) : CallsFor f r := by
  cases hr with
  | unauthorized hbad => exact .unauthorized ((h.bears_iff _).mp hbad)
  | forbidden hbad hdenied =>
      rw [h.bears_iff] at hbad hdenied
      exact .forbidden hbad hdenied
  | accountSuspended hbad hdenied hsuspended =>
      rw [h.bears_iff] at hbad hdenied hsuspended
      exact .accountSuspended hbad hdenied hsuspended
  | nothing hbad hdenied hsuspended =>
      rw [h.bears_iff] at hbad hdenied hsuspended
      exact .nothing hbad hdenied hsuspended

/-- What an error is taken for is what its leaves call for. -/
theorem classified_by_leaves (e : SyncError) :
    (∀ r, e.credentialFailure? = r ↔ CallsFor e r) ∧
    (e.isQuota = true ↔ Bears QuotaReached e) ∧
    ∀ f, SameLeaves e f →
      f.credentialFailure? = e.credentialFailure? ∧ f.isQuota = e.isQuota := by
  refine ⟨?_, isQuota_iff e, ?_⟩
  · intro r
    constructor
    · rintro rfl
      exact callsFor_credentialFailure? e
    · exact (callsFor_credentialFailure? e).unique
  · intro f h
    constructor
    · exact (callsFor_credentialFailure? f).unique (h.callsFor (callsFor_credentialFailure? e))
    · rw [Bool.eq_iff_iff, isQuota_iff, isQuota_iff, h.bears_iff]

/-- Bad credentials outweigh a refusal that is listed before them, in a bundle in a bundle. -/
theorem classified_by_leaves_regrouped :
    let refused : SyncError := .source "GitLab" (.http 403 "no access")
    let revoked : SyncError := .source "GitHub" (.unauthorized "token revoked")
    let nested : SyncError := .multi [refused, .multi [.cancelled, revoked]]
    let flat : SyncError := .multi [revoked, refused, .cancelled]
    SameLeaves nested flat ∧ nested.credentialFailure? = some .unauthorized ∧
      flat.credentialFailure? = nested.credentialFailure? ∧ flat.isQuota = nested.isQuota := by
  intro refused revoked nested flat
  have hsame : SameLeaves nested flat := by
    have hperm : ([refused, .cancelled] ++ [revoked]).Perm ([revoked] ++ [refused, .cancelled]) :=
      List.perm_append_comm
    intro l
    exact (sameLeaves_unbundled [refused] [.cancelled, revoked] [] l).trans
      (sameLeaves_of_perm hperm l)
  have hrevoked : Leaf revoked nested :=
    .inside (List.mem_cons_of_mem _ List.mem_cons_self)
      (.inside (List.mem_cons_of_mem _ List.mem_cons_self) (.self nofun))
  obtain ⟨hcalls, -, hregrouped⟩ := classified_by_leaves nested
  exact ⟨hsame, (hcalls _).mpr (.unauthorized ⟨revoked, hrevoked, .reported _ _⟩),
    hregrouped flat hsame⟩

end RepoCatalog.SyncError
