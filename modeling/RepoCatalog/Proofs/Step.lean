import RepoCatalog.Sync.World

/-!
# Runs of steps

Steps of the store and of passes are functions from a state to an outcome and the next state. Here
is how they run one after the other, and what it means that a step stays within a relation of
states, whatever its outcome.
-/
namespace RepoCatalog.Step

variable {σ ε α β : Type}

theorem run_pure (a : α) (s : σ) : (pure a : ExceptT ε (StateM σ) α) s = (.ok a, s) := rfl

theorem run_bind (x : ExceptT ε (StateM σ) α) (f : α → ExceptT ε (StateM σ) β) (s : σ) :
    (x >>= f) s = match x s with
      | (.ok a, t) => f a t
      | (.error e, t) => (.error e, t) := by
  simp only [bind, ExceptT.bind, ExceptT.mk, StateT.bind]
  cases x s with
  | mk r t => cases r <;> rfl

theorem run_get (s : σ) : (get : ExceptT ε (StateM σ) σ) s = (.ok s, s) := rfl

theorem run_tryCatch (x : ExceptT ε (StateM σ) α) (f : ε → ExceptT ε (StateM σ) α) (s : σ) :
    (tryCatchThe ε x f) s = match x s with
      | (.ok a, t) => (.ok a, t)
      | (.error e, t) => f e t := by
  simp only [tryCatchThe, MonadExceptOf.tryCatch, ExceptT.tryCatch, ExceptT.mk, bind, StateT.bind]
  cases x s with
  | mk r t => cases r <;> rfl

theorem bind_of_ok {x : ExceptT ε (StateM σ) α} {f : α → ExceptT ε (StateM σ) β} {s t : σ} {a : α}
    (h : x s = (.ok a, t)) : (x >>= f) s = f a t := by
  rw [run_bind, h]

theorem bind_of_error {x : ExceptT ε (StateM σ) α} {f : α → ExceptT ε (StateM σ) β} {s t : σ}
    {e : ε} (h : x s = (.error e, t)) : (x >>= f) s = (.error e, t) := by
  rw [run_bind, h]

/-- Two steps in turn end with the error of the first one, or as the second one ends from there. -/
theorem bind_cases {x : ExceptT ε (StateM σ) α} {f : α → ExceptT ε (StateM σ) β} {s u : σ}
    {r : Except ε β} (h : (x >>= f) s = (r, u)) :
    (∃ e, x s = (.error e, u) ∧ r = .error e) ∨ ∃ a t, x s = (.ok a, t) ∧ f a t = (r, u) := by
  rw [run_bind] at h
  cases hx : x s with
  | mk outcome t =>
      rw [hx] at h
      cases outcome with
      | ok a => exact .inr ⟨a, t, rfl, h⟩
      | error e =>
          cases h
          exact .inl ⟨e, rfl, rfl⟩

theorem bind_ok_iff {x : ExceptT ε (StateM σ) α} {f : α → ExceptT ε (StateM σ) β} {s u : σ}
    {b : β} :
    (x >>= f) s = (.ok b, u) ↔ ∃ a t, x s = (.ok a, t) ∧ f a t = (.ok b, u) := by
  constructor
  · intro h
    rcases bind_cases h with ⟨e, -, he⟩ | hok
    · cases he
    · exact hok
  · rintro ⟨a, t, hx, hf⟩
    exact (bind_of_ok hx).trans hf

theorem exists_of_isOk {r : Except ε α × σ} (h : r.1.isOk = true) : ∃ a, r = (.ok a, r.2) := by
  obtain ⟨_ | a, s⟩ := r
  · cases h
  · exact ⟨a, rfl⟩

theorem forM_of_ok {f : β → ExceptT ε (StateM σ) Unit} {b : β} {bs : List β} {s t : σ}
    (h : f b s = (.ok (), t)) : (b :: bs).forM f s = bs.forM f t :=
  bind_of_ok h

theorem forM_cons_ok_iff {f : β → ExceptT ε (StateM σ) Unit} {b : β} {bs : List β} {s u : σ} :
    (b :: bs).forM f s = (.ok (), u) ↔ ∃ t, f b s = (.ok (), t) ∧ bs.forM f t = (.ok (), u) := by
  constructor
  · intro h
    obtain ⟨⟨⟩, t, hb, hbs⟩ := bind_ok_iff.mp h
    exact ⟨t, hb, hbs⟩
  · rintro ⟨t, hb, hbs⟩
    exact (forM_of_ok hb).trans hbs

theorem mapM_of_ok {f : α → ExceptT ε (StateM σ) β} {g : α → β} {xs : List α} {s : σ}
    (h : ∀ x ∈ xs, f x s = (.ok (g x), s)) : xs.mapM f s = (.ok (xs.map g), s) := by
  induction xs with
  | nil => rfl
  | cons x xs ih =>
      rw [List.mapM_cons, bind_of_ok (h x List.mem_cons_self),
        bind_of_ok (ih fun y hy => h y (List.mem_cons_of_mem x hy))]
      rfl

/-- Steps that give a known answer and keep an invariant if they end well, in turn. -/
theorem mapM_ok {f : α → ExceptT ε (StateM σ) β} {g : α → β} {I : σ → Prop} {xs : List α}
    (h : ∀ x ∈ xs, ∀ s b t, I s → f x s = (.ok b, t) → b = g x ∧ I t) {s t : σ} {bs : List β}
    (hs : I s) (hrun : xs.mapM f s = (.ok bs, t)) : bs = xs.map g ∧ I t := by
  induction xs generalizing s bs with
  | nil =>
      cases hrun
      exact ⟨rfl, hs⟩
  | cons x xs ih =>
      rw [List.mapM_cons] at hrun
      obtain ⟨b, u, hb, hrest⟩ := bind_ok_iff.mp hrun
      obtain ⟨bs', v, hbs, hend⟩ := bind_ok_iff.mp hrest
      cases hend
      obtain ⟨rfl, hu⟩ := h x List.mem_cons_self s b u hs hb
      obtain ⟨rfl, hv⟩ := ih (fun y hy => h y (List.mem_cons_of_mem x hy)) hu hbs
      exact ⟨rfl, hv⟩

theorem ran_of_mapM_ok {f : α → ExceptT ε (StateM σ) β} {xs : List α} {bs : List β} {s t : σ}
    (h : xs.mapM f s = (.ok bs, t)) {x : α} (hx : x ∈ xs) : ∃ b u v, f x u = (.ok b, v) := by
  induction xs generalizing s bs t with
  | nil => cases hx
  | cons y ys ih =>
      rw [List.mapM_cons] at h
      obtain ⟨first, u, hfirst, hrest⟩ := bind_ok_iff.mp h
      obtain ⟨others, v, hothers, -⟩ := bind_ok_iff.mp hrest
      rcases List.mem_cons.mp hx with rfl | hx
      · exact ⟨first, s, u, hfirst⟩
      · exact ih hothers hx

theorem mem_of_mapM_ok {f : α → ExceptT ε (StateM σ) β} {xs : List α} {bs : List β} {s t : σ}
    (h : xs.mapM f s = (.ok bs, t)) {b : β} (hb : b ∈ bs) : ∃ x ∈ xs, ∃ u v, f x u = (.ok b, v) := by
  induction xs generalizing s bs with
  | nil =>
      cases h
      cases hb
  | cons x xs ih =>
      rw [List.mapM_cons] at h
      obtain ⟨first, u, hfirst, hrest⟩ := bind_ok_iff.mp h
      obtain ⟨others, v, hothers, hend⟩ := bind_ok_iff.mp hrest
      cases hend
      rcases List.mem_cons.mp hb with rfl | hb
      · exact ⟨x, List.mem_cons_self, s, u, hfirst⟩
      · obtain ⟨z, hz, hrun⟩ := ih hothers hb
        exact ⟨z, List.mem_cons_of_mem x hz, hrun⟩

/-- Whatever the outcome of a step, the states before and after it are related. -/
def Within (R : σ → σ → Prop) (x : ExceptT ε (StateM σ) α) : Prop :=
  ∀ s, R s (x s).2

theorem Within.of_run {R : σ → σ → Prop} {x : ExceptT ε (StateM σ) α} (hx : Within R x) {s t : σ}
    {r : Except ε α} (hrun : x s = (r, t)) : R s t := by
  have h := hx s
  rw [hrun] at h
  exact h

theorem Within.mono {R S : σ → σ → Prop} {x : ExceptT ε (StateM σ) α} (hx : Within R x)
    (h : ∀ s t, R s t → S s t) : Within S x :=
  fun s => h s _ (hx s)

theorem Within.seq {R S T : σ → σ → Prop} {P : α → Prop} {x : ExceptT ε (StateM σ) α}
    {f : α → ExceptT ε (StateM σ) β} (hx : Within R x)
    (hP : ∀ s a t, x s = (.ok a, t) → P a) (hf : ∀ a, P a → Within S (f a))
    (hRT : ∀ s t, R s t → T s t) (hRST : ∀ s t u, R s t → S t u → T s u) : Within T (x >>= f) := by
  intro s
  rw [run_bind]
  have h := hx s
  cases hrun : x s with
  | mk r t =>
      rw [hrun] at h
      cases r with
      | ok a => exact hRST s t _ h (hf a (hP s a t hrun) t)
      | error e => exact hRT s t h

/-- A relation that a run of steps stays within if each step does. -/
class Chained (R : σ → σ → Prop) : Prop where
  refl : ∀ s, R s s
  trans : ∀ {s t u}, R s t → R t u → R s u

section
variable {R : σ → σ → Prop} [hR : Chained R]

theorem Within.pure (a : α) : Within R (Pure.pure a : ExceptT ε (StateM σ) α) :=
  fun s => hR.refl s

theorem Within.throw (e : ε) : Within R (MonadExcept.throw e : ExceptT ε (StateM σ) α) :=
  fun s => hR.refl s

theorem Within.get : Within R (MonadState.get : ExceptT ε (StateM σ) σ) :=
  fun s => hR.refl s

theorem Within.bind {x : ExceptT ε (StateM σ) α} {f : α → ExceptT ε (StateM σ) β}
    (hx : Within R x) (hf : ∀ a, Within R (f a)) : Within R (x >>= f) := by
  intro s
  rw [run_bind]
  have h := hx s
  cases hrun : x s with
  | mk r t =>
      rw [hrun] at h
      cases r with
      | ok a => exact hR.trans h (hf a t)
      | error e => exact h

theorem Within.bindOf {P : α → Prop} {x : ExceptT ε (StateM σ) α}
    {f : α → ExceptT ε (StateM σ) β} (hx : Within R x)
    (hP : ∀ s a t, x s = (.ok a, t) → P a) (hf : ∀ a, P a → Within R (f a)) : Within R (x >>= f) :=
  Within.seq hx hP hf (fun _ _ h => h) fun _ _ _ => hR.trans

theorem Within.forM {xs : List β} {f : β → ExceptT ε (StateM σ) Unit}
    (hf : ∀ b ∈ xs, Within R (f b)) : Within R (xs.forM f) := by
  induction xs with
  | nil => exact fun s => hR.refl s
  | cons b bs ih =>
      have hrest := ih fun c hc => hf c (List.mem_cons_of_mem b hc)
      exact Within.bind (hf b List.mem_cons_self) fun _ => hrest

theorem Within.mapM {xs : List β} {f : β → ExceptT ε (StateM σ) α}
    (hf : ∀ b ∈ xs, Within R (f b)) : Within R (xs.mapM f) := by
  induction xs with
  | nil => exact Within.pure []
  | cons b bs ih =>
      rw [List.mapM_cons]
      have hrest := ih fun c hc => hf c (List.mem_cons_of_mem b hc)
      exact Within.bind (hf b List.mem_cons_self) fun _ => Within.bind hrest fun _ => Within.pure _

end

end RepoCatalog.Step
