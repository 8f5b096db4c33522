import Mathlib.Data.List.Induction
import RepoCatalog.Dict.Lemmas

/-!
# Dictionaries made from lists

Look-ups in dictionaries that are built binding by binding, in unions, and in the lists of values.
-/
namespace RepoCatalog.Dict

theorem get?_empty {κ α : Type} [Ord κ] (k : κ) : (∅ : Dict κ α).get? k = none := rfl

section Insert

variable {κ α : Type} [Ord κ] [Std.TransOrd κ] [Std.LawfulEqOrd κ]

theorem ofList_nil : ofList ([] : List (κ × α)) = ∅ := rfl

theorem ofList_concat (es : List (κ × α)) (e : κ × α) :
    ofList (es ++ [e]) = (ofList es).insert e.1 e.2 := by
  unfold ofList
  rw [List.foldl_append]
  rfl

theorem last_of_get?_ofList [DecidableEq κ] {es : List (κ × α)} {k : κ} {a : α}
    (h : (ofList es).get? k = some a) :
    ∃ before after, es = before ++ (k, a) :: after ∧ ∀ e ∈ after, e.1 ≠ k := by
  induction es using List.reverseRecOn with
  | nil => cases h
  | append_singleton es e ih =>
    rw [ofList_concat, get?_insert] at h
    split at h
    · rename_i hk
      cases h
      exact ⟨es, [], by rw [hk], by simp⟩
    · rename_i hk
      obtain ⟨before, after, rfl, hafter⟩ := ih h
      refine ⟨before, after ++ [e], by simp, fun f hf => ?_⟩
      rcases List.mem_append.mp hf with hf | hf
      · exact hafter f hf
      · rw [List.mem_singleton.mp hf]
        exact Ne.symm hk

theorem mem_of_get?_ofList [DecidableEq κ] {es : List (κ × α)} {k : κ} {a : α}
    (h : (ofList es).get? k = some a) : (k, a) ∈ es := by
  obtain ⟨before, after, rfl, -⟩ := last_of_get?_ofList h
  exact List.mem_append_right before List.mem_cons_self

theorem get?_ofList_eq_none_iff [DecidableEq κ] {es : List (κ × α)} {k : κ} :
    (ofList es).get? k = none ↔ ∀ e ∈ es, e.1 ≠ k := by
  induction es using List.reverseRecOn with
  | nil => simp [ofList_nil, get?_empty]
  | append_singleton es e ih =>
    rw [ofList_concat, get?_insert]
    split
    · rename_i hk
      constructor
      · intro h
        cases h
      · intro h
        exact absurd hk.symm (h e (List.mem_append_right es List.mem_cons_self))
    · rename_i hk
      rw [ih]
      simp only [List.mem_append, List.mem_singleton]
      constructor
      · rintro h f (hf | rfl)
        · exact h f hf
        · exact fun heq => hk heq.symm
      · exact fun h f hf => h f (.inl hf)

theorem get?_ofList_of_mem [DecidableEq κ] {es : List (κ × α)} {k : κ} {a : α}
    (hmem : (k, a) ∈ es) (huniq : ∀ b, (k, b) ∈ es → b = a) : (ofList es).get? k = some a := by
  cases h : (ofList es).get? k with
  | none => exact absurd rfl (get?_ofList_eq_none_iff.mp h _ hmem)
  | some b => rw [huniq b (mem_of_get?_ofList h)]

theorem ofList_eq_of_mem_iff [DecidableEq κ] {es : List (κ × α)} {d : Dict κ α}
    (h : ∀ k a, (k, a) ∈ es ↔ d.get? k = some a) : ofList es = d := by
  apply ext_get?
  intro k
  cases hk : d.get? k with
  | some a =>
      refine get?_ofList_of_mem ((h k a).mpr hk) fun b hb => ?_
      exact Option.some.inj (((h k b).mp hb).symm.trans hk)
  | none =>
      refine get?_ofList_eq_none_iff.mpr fun e he heq => ?_
      have hfound := (h e.1 e.2).mp he
      rw [heq, hk] at hfound
      cases hfound

theorem ofList_entries [DecidableEq κ] (d : Dict κ α) : ofList d.entries = d :=
  ofList_eq_of_mem_iff fun _ _ => get?_eq_some_iff.symm

theorem get?_foldl_insert [DecidableEq κ] (es : List (κ × α)) (d : Dict κ α) (k : κ) :
    (es.foldl (fun d e => d.insert e.1 e.2) d).get? k = ((ofList es).get? k).or (d.get? k) := by
  induction es using List.reverseRecOn with
  | nil => rfl
  | append_singleton es e ih =>
    rw [List.foldl_append, List.foldl_cons, List.foldl_nil, ofList_concat, get?_insert, get?_insert]
    split
    · rfl
    · exact ih

theorem get?_foldl_insertIfNew [DecidableEq κ] (es : List (κ × α)) (d : Dict κ α) (k : κ) :
    (es.foldl (fun acc b => acc.insertIfNew b.1 b.2) d).get? k = (d.get? k).or (find k es) := by
  induction es generalizing d with
  | nil => simp [find]
  | cons e es ih =>
    obtain ⟨j, b⟩ := e
    rw [List.foldl_cons, ih, get?_insertIfNew, find_cons]
    split
    · rename_i hk
      subst hk
      cases d.get? k <;> rfl
    · rfl

theorem get?_union [DecidableEq κ] (d e : Dict κ α) (k : κ) :
    (d.union e).get? k = (d.get? k).or (e.get? k) :=
  get?_foldl_insertIfNew e.entries d k

end Insert

section Views

variable {κ α : Type} [Ord κ] [Std.LawfulEqOrd κ]

theorem mem_values {d : Dict κ α} {a : α} : a ∈ d.values ↔ ∃ k, d.get? k = some a := by
  simp only [values, List.mem_map, get?_eq_some_iff, Prod.exists]
  constructor
  · rintro ⟨k, b, hmem, rfl⟩
    exact ⟨k, hmem⟩
  · rintro ⟨k, hmem⟩
    exact ⟨k, a, hmem, rfl⟩

theorem get?_erase_eq_some_iff [DecidableEq κ] {d : Dict κ α} {j k : κ} {a : α} :
    (d.erase k).get? j = some a ↔ j ≠ k ∧ d.get? j = some a := by
  rw [get?_erase]
  by_cases h : j = k <;> simp [h]

theorem isEmpty_iff {d : Dict κ α} : d.isEmpty = true ↔ ∀ k, d.get? k = none := by
  unfold isEmpty
  rw [List.isEmpty_iff]
  constructor
  · intro h k
    unfold get?
    rw [h]
    rfl
  · intro h
    refine List.eq_nil_iff_forall_not_mem.mpr fun e he => ?_
    have hk := h e.1
    rw [get?_eq_some_iff.mpr (he : (e.1, e.2) ∈ d.entries)] at hk
    cases hk

theorem mem_keys {d : Dict κ α} {k : κ} : k ∈ d.keys ↔ ∃ a, d.get? k = some a := by
  simp only [keys, List.mem_map, get?_eq_some_iff, Prod.exists]
  constructor
  · rintro ⟨_, a, hmem, rfl⟩
    exact ⟨a, hmem⟩
  · rintro ⟨a, hmem⟩
    exact ⟨k, a, hmem, rfl⟩

theorem nodup_keys (d : Dict κ α) : d.keys.Nodup := by
  apply List.pairwise_map.mpr
  apply d.sorted.imp
  intro a b hlt heq
  rw [heq, compare_eq_iff.mpr rfl] at hlt
  cases hlt

theorem mem_keys_ofList_unit [Std.TransOrd κ] [DecidableEq κ] {ks : List κ} {k : κ} :
    k ∈ (ofList (ks.map fun k => (k, ()))).keys ↔ k ∈ ks := by
  rw [mem_keys]
  constructor
  · rintro ⟨a, ha⟩
    obtain ⟨k', hk', heq⟩ := List.mem_map.mp (mem_of_get?_ofList ha)
    cases heq
    exact hk'
  · exact fun hk => ⟨(), get?_ofList_of_mem (List.mem_map.mpr ⟨k, hk, rfl⟩) fun _ _ => rfl⟩

end Views

end RepoCatalog.Dict
