import Mathlib.Data.List.Nodup
import RepoCatalog.Json.Decode
import RepoCatalog.Proofs.Results

/-!
# Records and the members of objects

A record is read from an object by the names of its fields: neither the order of the members matters
nor what else the object has.
-/
namespace RepoCatalog.Json

/-- That an object has the members of the object `v`, in any order, and perhaps more, of names that
`v` does not have. -/
def Value.ExtendedBy (v w : Value) : Prop :=
  ∃ es ms others, v = .object es ∧ w = .object ms ∧ ms.Perm (es ++ others) ∧
    ∀ o ∈ others, o.1 ∉ es.map (·.1)

def Members.ofObject (ms : List (String × Value)) : Members :=
  ⟨ms, .missingField, true⟩

/-- That the members `ms` say under some names what the members `es` say, and nothing else. -/
structure Agrees (names : List String) (es ms : List (String × Value)) : Prop where
  get? : ∀ name ∈ names, (Members.ofObject ms).get? name = (Members.ofObject es).get? name
  mem : ∀ m ∈ ms, m.1 ∈ names → m ∈ es

/-- That a reader looks at the members of an object by these names only. -/
def Decoder.ByName {α : Type} (names : List String) (d : Decoder α) : Prop :=
  ∀ {es ms a}, Agrees names es ms → d (.object es) = .ok a → d (.object ms) = .ok a

section

variable {α : Type} {es ms : List (String × Value)} {names : List String} {name type : String}
  {v w : Value} {fields : List Field} {m : Members}

namespace Members

theorem get?_eq_some_of_mem (hmem : (name, v) ∈ ms) (honly : ∀ u, (name, u) ∈ ms → u = v) :
    (ofObject ms).get? name = some v := by
  have hfound : (ms.find? fun e => e.1 == name).isSome = true := by
    rw [List.find?_isSome]
    exact ⟨_, hmem, BEq.rfl⟩
  obtain ⟨⟨name', u⟩, hu⟩ := Option.isSome_iff_exists.mp hfound
  have hname : name' = name := by simpa using List.find?_some hu
  rw [hname] at hu
  unfold get? ofObject
  rw [hu, honly u (List.mem_of_find?_eq_some hu)]
  rfl

theorem forIn_ok_iff {β γ : Type} {xs : List γ} {p : γ → Prop} {b c : β}
    {f : γ → Unit → Except DecodeError (ForInStep Unit)}
    (hp : ∀ x, f x () = .ok (.yield ()) ↔ p x) (hdone : ∀ x, f x () ≠ .ok (.done ())) :
    (forIn xs () f >>= fun _ => pure b) = .ok c ↔ c = b ∧ ∀ x ∈ xs, p x := by
  induction xs with
  | nil => simp [pure, Except.pure, bind, Except.bind, eq_comm]
  | cons x xs ih =>
      rw [List.forIn_cons, List.forall_mem_cons, ← hp x, and_left_comm, ← ih]
      cases hx : f x () with
      | error e => simp [bind, Except.bind]
      | ok step =>
          cases step with
          | done => exact absurd hx (hdone x)
          | yield => simp [bind, Except.bind]

theorem ofValue_object_iff :
    ofValue type fields (.object ms) = .ok m ↔ m = ofObject ms ∧
      ∀ e ∈ ms, ∀ f, (fields.find? fun f => f.name == e.1) = some f → f.check e.2 = .ok () := by
  unfold ofValue
  apply forIn_ok_iff
  all_goals
    intro e
    cases fields.find? fun f => f.name == e.1 with
    | none => simp [pure, Except.pure]
    | some f => cases hc : f.check e.2 <;> simp [hc, pure, Except.pure, bind, Except.bind]

end Members

theorem Decoder.byName_of_build {build : Members → Except DecodeError α}
    (hbuild : ∀ es ms, (∀ f ∈ fields, (Members.ofObject ms).get? f.name =
      (Members.ofObject es).get? f.name) → build (.ofObject ms) = build (.ofObject es)) :
    ByName (fields.map (·.name)) fun v => Members.ofValue type fields v >>= build := by
  intro es ms a hagrees h
  obtain ⟨m, hm, h⟩ := Except.bind_ok_iff.mp h
  obtain ⟨rfl, hchecks⟩ := Members.ofValue_object_iff.mp hm
  refine Except.bind_ok_iff.mpr ⟨.ofObject ms, Members.ofValue_object_iff.mpr ⟨rfl, ?_⟩, ?_⟩
  · intro e he f hf
    have hname : f.name = e.1 := by simpa using List.find?_some hf
    refine hchecks e (hagrees.mem e he ?_) f hf
    exact hname ▸ List.mem_map_of_mem (List.mem_of_find?_eq_some hf)
  · rw [hbuild es ms fun f hf => hagrees.get? f.name (List.mem_map_of_mem hf)]
    exact h

theorem Agrees.of_perm {others : List (String × Value)} (hnodup : (es.map (·.1)).Nodup)
    (hperm : ms.Perm (es ++ others)) (hothers : ∀ o ∈ others, o.1 ∉ es.map (·.1)) :
    Agrees (es.map (·.1)) es ms := by
  have hmem : ∀ m ∈ ms, m.1 ∈ es.map (·.1) → m ∈ es := by
    intro m hm hname
    rcases List.mem_append.mp (hperm.mem_iff.mp hm) with he | ho
    · exact he
    · exact absurd hname (hothers m ho)
  refine ⟨fun name hname => ?_, hmem⟩
  obtain ⟨⟨name, v⟩, he, rfl⟩ := List.mem_map.mp hname
  have honly : ∀ u, (name, u) ∈ es → u = v := fun u hu =>
    congrArg Prod.snd (List.inj_on_of_nodup_map hnodup hu he rfl)
  rw [Members.get?_eq_some_of_mem he honly]
  apply Members.get?_eq_some_of_mem (hperm.mem_iff.mpr (List.mem_append_left others he))
  exact fun u hu => honly u (hmem _ hu hname)

/-- What is read by names from an object is read from all objects that extend it. -/
theorem Decoder.ByName.extended {d : Decoder α} {a : α} (hd : d.ByName names)
    (hnames : es.map (·.1) = names) (hnodup : names.Nodup) (h : d (.object es) = .ok a)
    (hext : (Value.object es).ExtendedBy w) : d w = .ok a := by
  obtain ⟨es', ms, others, hes, rfl, hperm, hothers⟩ := hext
  cases hes
  subst hnames
  exact hd (.of_perm hnodup hperm hothers) h

end

end RepoCatalog.Json
