import RepoCatalog.Dict

/-!
# Look-ups in dictionaries

What each operation on dictionaries does to a look-up, and that look-ups tell dictionaries apart.
-/
namespace RepoCatalog.Dict

section Find

variable {κ α β : Type} [Ord κ] [Std.LawfulEqOrd κ]

theorem compare_eq_iff {j k : κ} : compare j k = .eq ↔ j = k :=
  Std.LawfulEqCmp.compare_eq_iff_eq

theorem find_cons [DecidableEq κ] (k j : κ) (a : α) (es : List (κ × α)) :
    find k ((j, a) :: es) = if k = j then some a else find k es := by
  simp only [find, compare_eq_iff]

theorem mem_of_find {k : κ} {a : α} {es : List (κ × α)} (h : find k es = some a) :
    (k, a) ∈ es := by
  induction es with
  | nil => cases h
  | cons e es ih =>
    obtain ⟨j, b⟩ := e
    simp only [find] at h
    split at h
    · rename_i hkj
      rw [compare_eq_iff] at hkj
      cases h
      subst hkj
      exact List.mem_cons_self
    · exact List.mem_cons_of_mem _ (ih h)

theorem find_of_mem {k : κ} {a : α} {es : List (κ × α)}
    (hs : es.Pairwise fun a b => compare a.1 b.1 = .lt) (h : (k, a) ∈ es) :
    find k es = some a := by
  induction es with
  | nil => cases h
  | cons e es ih =>
    obtain ⟨j, b⟩ := e
    rw [List.pairwise_cons] at hs
    simp only [find]
    rcases List.mem_cons.mp h with heq | hmem
    · cases heq
      rw [if_pos (compare_eq_iff.mpr rfl)]
    · have hlt : compare j k = .lt := hs.1 _ hmem
      rw [if_neg, ih hs.2 hmem]
      rw [compare_eq_iff]
      rintro rfl
      rw [compare_eq_iff.mpr rfl] at hlt
      cases hlt

theorem find_eq_none_of_lt {k : κ} {es : List (κ × α)}
    (h : ∀ e ∈ es, compare k e.1 = .lt) : find k es = none := by
  cases hfind : find k es with
  | none => rfl
  | some a =>
    have hlt := h _ (mem_of_find hfind)
    rw [compare_eq_iff.mpr rfl] at hlt
    cases hlt

theorem find_filter_keys (p : κ → Bool) (k : κ) (es : List (κ × α)) :
    find k (es.filter fun e => p e.1) = if p k then find k es else none := by
  induction es with
  | nil => simp only [List.filter_nil, find, ite_self]
  | cons e es ih =>
    obtain ⟨j, b⟩ := e
    by_cases hj : p j = true
    · rw [List.filter_cons_of_pos (by exact hj)]
      simp only [find, ih]
      split
      · rename_i hkj
        rw [compare_eq_iff] at hkj
        subst hkj
        rw [if_pos hj]
      · rfl
    · rw [List.filter_cons_of_neg (by exact hj), ih]
      by_cases hkj : compare k j = .eq
      · have hk := hkj
        rw [compare_eq_iff] at hk
        subst hk
        rw [if_neg hj, if_neg hj]
      · simp only [find, if_neg hkj]

theorem find_map_entries (f : κ → α → β) (k : κ) (es : List (κ × α)) :
    find k (es.map fun e => (e.1, f e.1 e.2)) = (find k es).map (f k) := by
  induction es with
  | nil => rfl
  | cons e es ih =>
    obtain ⟨j, b⟩ := e
    simp only [List.map_cons, find, ih]
    split
    · rename_i hkj
      rw [compare_eq_iff] at hkj
      subst hkj
      rfl
    · rfl

theorem get?_eq_some_iff {d : Dict κ α} {k : κ} {a : α} :
    d.get? k = some a ↔ (k, a) ∈ d.entries :=
  ⟨mem_of_find, find_of_mem d.sorted⟩

theorem contains_iff {d : Dict κ α} {k : κ} :
    d.contains k = true ↔ ∃ a, (k, a) ∈ d.entries := by
  simp only [contains, Option.isSome_iff_exists, get?_eq_some_iff]

theorem get?_filterKeys (d : Dict κ α) (p : κ → Bool) (k : κ) :
    (d.filterKeys p).get? k = if p k then d.get? k else none :=
  find_filter_keys p k d.entries

theorem get?_mapEntries (f : κ → α → β) (d : Dict κ α) (k : κ) :
    (d.mapEntries f).get? k = (d.get? k).map (f k) :=
  find_map_entries f k d.entries

theorem contains_mapEntries (f : κ → α → β) (d : Dict κ α) (k : κ) :
    (d.mapEntries f).contains k = d.contains k := by
  simp only [contains, get?_mapEntries, Option.isSome_map]

theorem find_place [DecidableEq κ] (j k : κ) (a : α) (es : List (κ × α)) :
    find j (place k a es) = if j = k then some a else find j es := by
  induction es with
  | nil => simp only [place, find, compare_eq_iff]
  | cons e es ih =>
    obtain ⟨i, b⟩ := e
    simp only [place]
    split
    · simp only [find, compare_eq_iff]
    · rename_i hki
      rw [compare_eq_iff] at hki
      subst hki
      simp only [find_cons]
      split <;> rfl
    · rename_i hki
      simp only [find_cons, ih]
      split
      · rename_i hji
        subst hji
        rw [if_neg]
        rintro rfl
        rw [compare_eq_iff.mpr rfl] at hki
        cases hki
      · rfl

theorem get?_erase [DecidableEq κ] (d : Dict κ α) (j k : κ) :
    (d.erase k).get? j = if j = k then none else d.get? j := by
  rw [erase, get?_filterKeys]
  by_cases h : j = k
  · subst h
    rw [if_pos rfl, if_neg]
    rw [compare_eq_iff.mpr rfl]
    decide
  · have hne : compare k j ≠ .eq := fun heq => h (compare_eq_iff.mp heq).symm
    rw [if_neg h, if_pos]
    simpa using hne

end Find

section Insert

variable {κ α : Type} [Ord κ] [Std.TransOrd κ] [Std.LawfulEqOrd κ]

theorem get?_insert [DecidableEq κ] (d : Dict κ α) (j k : κ) (a : α) :
    (d.insert k a).get? j = if j = k then some a else d.get? j :=
  find_place j k a d.entries

theorem contains_insert_of_contains {d : Dict κ α} {j : κ} (k : κ) (a : α)
    (h : d.contains j = true) : (d.insert k a).contains j = true := by
  classical
  simp only [contains, get?_insert] at h ⊢
  split
  · rfl
  · exact h

theorem get?_insertIfNew [DecidableEq κ] (d : Dict κ α) (j k : κ) (a : α) :
    (d.insertIfNew k a).get? j = if j = k then some ((d.get? k).getD a) else d.get? j := by
  unfold insertIfNew
  split
  · rename_i hk
    obtain ⟨b, hb⟩ := Option.isSome_iff_exists.mp hk
    split
    · rename_i hjk
      subst hjk
      rw [hb, Option.getD_some]
    · rfl
  · rename_i hk
    have hnone : d.get? k = none := by
      simpa only [contains, Bool.not_eq_true, Option.isSome_eq_false_iff,
        Option.isNone_iff_eq_none] using hk
    rw [get?_insert, hnone, Option.getD_none]

theorem entries_eq_of_find {es fs : List (κ × α)}
    (he : es.Pairwise fun a b => compare a.1 b.1 = .lt)
    (hf : fs.Pairwise fun a b => compare a.1 b.1 = .lt)
    (h : ∀ k, find k es = find k fs) : es = fs := by
  induction es generalizing fs with
  | nil =>
    cases fs with
    | nil => rfl
    | cons f fs =>
      have hfound := h f.1
      rw [find_of_mem hf (a := f.2) List.mem_cons_self] at hfound
      cases hfound
  | cons e es ih =>
    cases fs with
    | nil =>
      have hfound := h e.1
      rw [find_of_mem he (a := e.2) List.mem_cons_self] at hfound
      cases hfound
    | cons f fs =>
      have he₁ := List.pairwise_cons.mp he
      have hf₁ := List.pairwise_cons.mp hf
      have hef : (e.1, e.2) ∈ f :: fs :=
        mem_of_find ((h e.1).symm.trans (find_of_mem he List.mem_cons_self))
      have hfe : (f.1, f.2) ∈ e :: es :=
        mem_of_find ((h f.1).trans (find_of_mem hf List.mem_cons_self))
      have heq : e = f := by
        rcases List.mem_cons.mp hef with heq | hmem
        · exact heq
        · rcases List.mem_cons.mp hfe with heq' | hmem'
          · exact heq'.symm
          · have h₁ : compare f.1 e.1 = .lt := hf₁.1 _ hmem
            have h₂ : compare e.1 f.1 = .lt := he₁.1 _ hmem'
            rw [Std.OrientedCmp.gt_of_lt h₂] at h₁
            cases h₁
      subst heq
      congr 1
      refine ih he₁.2 hf₁.2 fun k => ?_
      have hk := h k
      simp only [find] at hk
      by_cases hke : compare k e.1 = .eq
      · have hk' := hke
        rw [compare_eq_iff] at hk'
        subst hk'
        rw [find_eq_none_of_lt he₁.1, find_eq_none_of_lt hf₁.1]
      · rwa [if_neg hke, if_neg hke] at hk

theorem ext_get? {d e : Dict κ α} (h : ∀ k, d.get? k = e.get? k) : d = e := by
  have heq := entries_eq_of_find d.sorted e.sorted h
  cases d
  cases e
  simp only at heq
  subst heq
  rfl

end Insert

end RepoCatalog.Dict
