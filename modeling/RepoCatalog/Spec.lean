/-!
# Identities of repositories

A repository is identified across the whole catalog by where it lives: the type of its code host,
the host, and the id it has there. Identities are ordered by these parts in this order, text by
code point. Of two repositories that want one name the smaller identity keeps it.
-/
namespace RepoCatalog

/-- Where a repository lives on its code host. -/
structure Spec where
  serviceType : String
  serviceId : String
  id : String
deriving DecidableEq, Inhabited

namespace Spec

/-- The identity of a repository that has none. -/
def empty : Spec := ⟨"", "", ""⟩

def isEmpty (s : Spec) : Bool :=
  s.serviceType.isEmpty && s.serviceId.isEmpty && s.id.isEmpty

instance : Ord Spec where
  compare a b :=
    (compare a.serviceType b.serviceType).then
      ((compare a.serviceId b.serviceId).then (compare a.id b.id))

theorem compare_def (a b : Spec) :
    compare a b = (compare a.serviceType b.serviceType).then
      ((compare a.serviceId b.serviceId).then (compare a.id b.id)) :=
  rfl

def display (s : Spec) : String :=
  s!"{s.serviceType}:{s.serviceId}:{s.id}"

instance : ToString Spec := ⟨display⟩

instance : Std.TransOrd Spec :=
  inferInstanceAs <| Std.TransCmp <|
    compareLex (compareOn serviceType) (compareLex (compareOn serviceId) (compareOn Spec.id))

instance : Std.LawfulEqOrd Spec where
  compare_self := Std.ReflCmp.compare_self
  eq_of_compare {a b} h := by
    simp only [compare_def, Ordering.then_eq_eq, Std.LawfulEqCmp.compare_eq_iff_eq] at h
    obtain ⟨h₁, h₂, h₃⟩ := h
    cases a
    cases b
    simp_all

instance : LT Spec := ltOfOrd

instance : DecidableLT Spec := fun a b => inferInstanceAs (Decidable (compare a b = .lt))

end Spec

end RepoCatalog
