import Mathlib.Logic.Relation
import RepoCatalog.Proofs.Writes

/-!
# What operations of the store write

A statement of a pass changes the catalog in one of six ways, and every operation of the store is a
run of such statements, however it ends. Whatever all six of them keep, everything keeps.
-/
namespace RepoCatalog

open Step
open Time (Instant)

namespace Catalog

/-- What a single statement does to the catalog, if the names that it stores satisfy `p`. -/
inductive Write (p : String → Prop) : Catalog → Catalog → Prop where
  | bury (c : Catalog) (now : Instant) (q : Int → Bool) : Write p c (c.buryRepos now q)
  | part (c : Catalog) (q : MemberKey → Bool) : Write p c (c.dropMembers q)
  | join {c d : Catalog} {key : MemberKey} {m : Membership} {u : Unit} :
      c.putMember key m = .ok (u, d) → Write p c d
  | add {c d : Catalog} {row : RepoRow} {id : Int} :
      p row.name → c.addRepo row = .ok (id, d) → Write p c d
  | replace {c d : Catalog} {row : RepoRow} {id : Int} {u : Unit} :
      p row.name → c.replaceRepo id row = .ok (u, d) → Write p c d
  | visit {c d : Catalog} {id : Int} {f : ServiceRow → ServiceRow} {u : Unit} :
      (∀ row, (Kind.ofName? (f row).kindName).isSome = true) →
      c.changeService id f = .ok (u, d) → Write p c d

end Catalog

namespace Store

section

variable {α : Type}

instance : Chained (Eq (α := Store)) where
  refl _ := rfl
  trans h h' := h.trans h'

theorem still_read (tables : List TableName) (f : Catalog → α) : Within Eq (read tables f) :=
  Within.bind (fun s => (snd_require _ _ s).symm) fun _ =>
    Within.bind Within.get fun _ => Within.pure _

theorem still_ofExcept (r : Except StoreError α) : Within Eq (ExceptT.mk (pure r) : StoreM α) :=
  fun _ => rfl

theorem still_kindsOf (ids : List Int) : Within Eq (kindsOf ids) := by
  refine Within.bind (still_read _ _) fun rows => Within.bind (Within.mapM fun e _ => ?_) fun _ =>
    Within.pure _
  simp only []
  split
  · exact Within.pure _
  · exact Within.throw _

theorem still_withClaims (rows : List (Int × RepoRow)) : Within Eq (withClaims rows) := by
  unfold withClaims
  split
  · exact Within.pure _
  · refine Within.bind (still_read _ _) fun members => ?_
    split
    · exact Within.pure _
    · exact Within.bind (still_kindsOf _) fun _ => Within.pure _

theorem still_listRepos (q : RepoQuery) : Within Eq (listRepos q) :=
  Within.bind (still_read _ _) fun _ => still_withClaims _

theorem still_listServices (q : ServiceQuery) : Within Eq (listServices q) :=
  Within.bind (still_read _ _) fun _ => Within.mapM fun _ _ => still_ofExcept _

theorem still_getService (id : Int) : Within Eq (getService id) := by
  refine Within.bind (still_read _ _) fun row => ?_
  split
  · exact still_ofExcept _
  · exact Within.throw _

theorem still_findBySpec (spec : Spec) : Within Eq (findBySpec spec) := by
  unfold findBySpec
  split
  · exact Within.pure _
  · exact still_read _ _

theorem still_cloneUrlOf (svc : Service) (r : Repo) : Within Eq (cloneUrlOf svc r) := by
  unfold cloneUrlOf
  split
  · exact Within.pure _
  · exact Within.throw _

end

/-- The catalog has come about by statements that store names that satisfy `p`; the same
transactions are open. -/
structure Wrote (p : String → Prop) (s t : Store) : Prop where
  saved : t.saved = s.saved
  catalog : Relation.ReflTransGen (Catalog.Write p) s.catalog t.catalog

section

variable {α : Type} {p : String → Prop}

instance : Chained (Wrote p) where
  refl _ := ⟨rfl, .refl⟩
  trans h h' := ⟨h'.saved.trans h.saved, h.catalog.trans h'.catalog⟩

theorem Wrote.of_still {x : StoreM α} (hx : Within Eq x) : Within (Wrote p) x :=
  hx.mono fun s _ h => h ▸ Chained.refl s

theorem wrote_now : Within (Wrote p) now :=
  fun _ => ⟨rfl, .refl⟩

theorem wrote_write {tables : List TableName} {f : Catalog → Catalog.Change α}
    (hf : ∀ c a d, f c = .ok (a, d) → Catalog.Write p c d) : Within (Wrote p) (write tables f) := by
  intro s
  rcases write_cases tables f s with ⟨e, hrun⟩ | ⟨a, c, hc, hrun⟩
  · rw [hrun]
    exact Chained.refl s
  · rw [hrun]
    exact ⟨rfl, .single (hf _ _ _ hc)⟩

theorem wrote_update {tables : List TableName} {f : Catalog → Catalog}
    (hf : ∀ c, Catalog.Write p c (f c)) : Within (Wrote p) (update tables f) := by
  refine wrote_write fun c a d h => ?_
  cases h
  exact hf c

theorem wrote_putMember (service repo : Int) (cloneUrl : String) (userId : Option Int) :
    Within (Wrote p) (putMember service repo cloneUrl userId) :=
  wrote_write fun _ _ _ => .join

theorem wrote_saveRepo {r : Repo} (hr : p r.name) : Within (Wrote p) (saveRepo r) := by
  have hsave : ∀ r : Repo, p r.name → ∀ now, Within (Wrote p) (saveAt now r) := by
    intro r hr now
    unfold saveAt
    split
    · exact Within.bind (wrote_write fun _ _ _ => .add (by exact hr)) fun _ => Within.pure _
    · exact Within.bind (wrote_write fun _ _ _ => .replace (by exact hr)) fun _ => Within.pure _
  refine Within.bind wrote_now fun now => ?_
  split
  · refine Within.bind (Wrote.of_still (still_findBySpec _)) fun found => ?_
    split
    · exact hsave _ (by exact hr) now
    · exact hsave _ (by exact hr) now
  · exact hsave _ (by exact hr) now

theorem wrote_putRepos {rs : List Repo} (hrs : ∀ r ∈ rs, p r.name) :
    Within (Wrote p) (putRepos rs) :=
  Within.mapM fun r hr => wrote_saveRepo (hrs r hr)

theorem wrote_deleteRepos (ids : List Int) : Within (Wrote p) (deleteRepos ids) := by
  refine Within.bind wrote_now fun now => ?_
  split
  · exact Within.pure _
  · exact Within.bind (wrote_update fun c => .part c _) fun _ => wrote_update fun c => .bury c _ _

theorem wrote_putClaims (owners : Dict Int (Option Int)) (repo : Int) (claims : List Claim) :
    Within (Wrote p) (putClaims owners repo claims) := by
  induction claims with
  | nil => exact Within.pure _
  | cons c cs ih =>
      unfold putClaims
      split
      · exact Within.throw _
      · exact Within.bind (wrote_putMember _ _ _ _) fun _ => ih

theorem wrote_editMembers (e : MembershipEdits) : Within (Wrote p) (editMembers e) := by
  rw [editMembers_eq]
  refine Within.bind (Within.forM fun x _ => ?_) fun _ => ?_
  · unfold dropClaims
    simp only []
    split
    · exact Within.pure _
    · exact wrote_update fun c => .part c _
  · simp only []
    split
    · exact Within.pure _
    · refine Within.bind (Wrote.of_still (still_read _ _)) fun owners => Within.forM fun x _ => ?_
      exact wrote_putClaims _ _ _

theorem wrote_createMember {r : Repo} (svc : Service) (hr : p r.name) :
    Within (Wrote p) (createMember svc r) :=
  Within.bind (Wrote.of_still (still_cloneUrlOf _ _)) fun _ =>
    Within.bind (wrote_saveRepo (by exact hr)) fun _ =>
      Within.bind (wrote_putMember _ _ _ _) fun _ => Within.pure _

theorem wrote_updateMember {r : Repo} (svc : Service) (hr : p r.name) :
    Within (Wrote p) (updateMember svc r) := by
  have hrest := Within.bind (Wrote.of_still (still_cloneUrlOf svc r)) fun url =>
    Within.bind (wrote_saveRepo hr) fun _ => wrote_putMember svc.id r.id url svc.owner?
  unfold updateMember
  split
  · exact Within.bind (Within.throw _) fun _ => hrest
  · exact hrest

theorem wrote_release (svc : Service) (now : Instant) (ids : List Int) :
    Within (Wrote p) (release svc now ids) :=
  Within.bind (wrote_update fun c => .part c _) fun _ => wrote_update fun c => .bury c _ _

theorem wrote_sweep (svc : Service) (keep : List Int) : Within (Wrote p) (sweep svc keep) := by
  refine Within.bind (Wrote.of_still (still_read _ _)) fun held => ?_
  simp only []
  split
  · exact Within.pure _
  · exact Within.bind wrote_now fun now =>
      Within.bind (Within.forM fun ids _ => wrote_release svc now ids) fun _ => Within.pure _

theorem wrote_putService {svc : Service} (hid : svc.id ≠ 0) :
    Within (Wrote p) (putService svc) := by
  refine Within.bind wrote_now fun now => ?_
  simp only []
  rw [if_neg hid]
  refine Within.bind (wrote_write fun _ _ _ => .visit fun row => ?_) fun _ => Within.pure _
  rw [Kind.ofName?_name]
  rfl

end

end Store

end RepoCatalog
