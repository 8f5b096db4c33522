/-!
# Dictionaries in key order

A finite map kept as a list of entries whose keys strictly increase, so that two dictionaries with
the same look-ups are equal and every traversal is in key order.
-/
namespace RepoCatalog

/-- Entries with strictly increasing keys. -/
structure Dict (κ : Type) (α : Type) [Ord κ] where
  entries : List (κ × α)
  sorted : entries.Pairwise fun a b => compare a.1 b.1 = .lt

namespace Dict

variable {κ α β : Type} [Ord κ]

instance [DecidableEq κ] [DecidableEq α] : DecidableEq (Dict κ α) := fun d e =>
  decidable_of_iff (d.entries = e.entries) <| by
    constructor
    · intro h
      cases d
      cases e
      simp only at h
      subst h
      rfl
    · exact congrArg entries

def empty : Dict κ α :=
  ⟨[], .nil⟩

instance : EmptyCollection (Dict κ α) := ⟨empty⟩

instance : Inhabited (Dict κ α) := ⟨empty⟩

def keys (d : Dict κ α) : List κ :=
  d.entries.map (·.1)

def values (d : Dict κ α) : List α :=
  d.entries.map (·.2)

def isEmpty (d : Dict κ α) : Bool :=
  d.entries.isEmpty

def size (d : Dict κ α) : Nat :=
  d.entries.length

def find (k : κ) : List (κ × α) → Option α
  | [] => none
  | (j, a) :: es => if compare k j = .eq then some a else find k es

def get? (d : Dict κ α) (k : κ) : Option α :=
  find k d.entries

def contains (d : Dict κ α) (k : κ) : Bool :=
  (d.get? k).isSome

/-- The entries with `k` bound to `a`, placed before the first larger key. -/
def place (k : κ) (a : α) : List (κ × α) → List (κ × α)
  | [] => [(k, a)]
  | (j, b) :: es =>
    match compare k j with
    | .lt => (k, a) :: (j, b) :: es
    | .eq => (k, a) :: es
    | .gt => (j, b) :: place k a es

theorem mem_place {k : κ} {a : α} {es : List (κ × α)} {e : κ × α} (h : e ∈ place k a es) :
    e = (k, a) ∨ e ∈ es := by
  induction es with
  | nil => simpa [place] using h
  | cons f es ih =>
    obtain ⟨j, b⟩ := f
    simp only [place] at h
    split at h
    · simpa using h
    · simp only [List.mem_cons] at h ⊢
      exact h.imp_right .inr
    · simp only [List.mem_cons] at h ⊢
      rcases h with h | h
      · exact .inr (.inl h)
      · exact (ih h).imp_right .inr

theorem pairwise_place [Std.TransOrd κ] [Std.LawfulEqOrd κ] (k : κ) (a : α) {es : List (κ × α)}
    (h : es.Pairwise fun a b => compare a.1 b.1 = .lt) :
    (place k a es).Pairwise fun a b => compare a.1 b.1 = .lt := by
  induction es with
  | nil => simp [place]
  | cons f es ih =>
    obtain ⟨j, b⟩ := f
    rw [List.pairwise_cons] at h
    simp only [place]
    split
    · rename_i hlt
      refine .cons ?_ (.cons h.1 h.2)
      intro e he
      rcases List.mem_cons.mp he with rfl | he
      · exact hlt
      · exact Std.TransCmp.lt_trans hlt (h.1 e he)
    · rename_i heq
      have hkj : k = j := Std.LawfulEqCmp.eq_of_compare heq
      subst hkj
      exact .cons h.1 h.2
    · rename_i hgt
      refine .cons ?_ (ih h.2)
      intro e he
      rcases mem_place he with rfl | he
      · exact Std.OrientedCmp.lt_of_gt hgt
      · exact h.1 e he

def insert [Std.TransOrd κ] [Std.LawfulEqOrd κ] (d : Dict κ α) (k : κ) (a : α) : Dict κ α :=
  ⟨place k a d.entries, pairwise_place k a d.sorted⟩

def insertIfNew [Std.TransOrd κ] [Std.LawfulEqOrd κ] (d : Dict κ α) (k : κ) (a : α) : Dict κ α :=
  if d.contains k then d else d.insert k a

/-- Rebinds `k` to what `f` makes of its present binding. -/
def alter [Std.TransOrd κ] [Std.LawfulEqOrd κ] (d : Dict κ α) (k : κ) (f : Option α → α) :
    Dict κ α :=
  d.insert k (f (d.get? k))

def filter (d : Dict κ α) (p : κ → α → Bool) : Dict κ α :=
  ⟨d.entries.filter fun e => p e.1 e.2, d.sorted.filter _⟩

def filterKeys (d : Dict κ α) (p : κ → Bool) : Dict κ α :=
  d.filter fun k _ => p k

def erase (d : Dict κ α) (k : κ) : Dict κ α :=
  d.filterKeys fun j => compare k j != .eq

def mapEntries (f : κ → α → β) (d : Dict κ α) : Dict κ β :=
  ⟨d.entries.map fun e => (e.1, f e.1 e.2), by
    rw [List.pairwise_map]
    exact d.sorted⟩

/-- The dictionary of a list of bindings, in which a later binding of a key wins. -/
def ofList [Std.TransOrd κ] [Std.LawfulEqOrd κ] (es : List (κ × α)) : Dict κ α :=
  es.foldl (fun d e => d.insert e.1 e.2) empty

/-- All bindings of `d`, and those of `e` for keys that `d` does not bind. -/
def union [Std.TransOrd κ] [Std.LawfulEqOrd κ] (d e : Dict κ α) : Dict κ α :=
  e.entries.foldl (fun acc b => acc.insertIfNew b.1 b.2) d

end Dict

end RepoCatalog
