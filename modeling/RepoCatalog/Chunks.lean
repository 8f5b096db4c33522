/-!
# Lists in parts

A statement names only so many rows, so that a longer list of them is worked off in parts.
-/
namespace RepoCatalog

variable {α : Type}

/-- Splits a list into parts of at most `n + 1`. -/
def chunksOf (n : Nat) (xs : List α) : List (List α) :=
  match xs with
  | [] => []
  | x :: rest => (x :: rest.take n) :: chunksOf n (rest.drop n)
termination_by xs.length
decreasing_by
  simp only [List.length_drop, List.length_cons]
  omega

theorem flatten_chunksOf (n : Nat) (xs : List α) : (chunksOf n xs).flatten = xs := by
  induction xs using chunksOf.induct n with
  | case1 => simp [chunksOf]
  | case2 x rest ih => rw [chunksOf, List.flatten_cons, ih, List.cons_append, List.take_append_drop]

theorem ne_nil_of_mem_chunksOf {n : Nat} {xs part : List α} (h : part ∈ chunksOf n xs) :
    part ≠ [] := by
  induction xs using chunksOf.induct n with
  | case1 => simp [chunksOf] at h
  | case2 x rest ih =>
      rw [chunksOf, List.mem_cons] at h
      rcases h with rfl | h
      · exact List.cons_ne_nil _ _
      · exact ih h

end RepoCatalog
