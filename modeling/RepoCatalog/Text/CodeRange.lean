/-!
# Ranges of characters

Tables of character properties are lists of ranges of code points.
-/
namespace RepoCatalog.Text

/-- The code points from `first` to `last`. -/
structure CodeRange where
  first : Nat
  last : Nat

def CodeRange.contains (r : CodeRange) (n : Nat) : Bool :=
  r.first ≤ n && n ≤ r.last

def inRanges (rs : List CodeRange) (c : Char) : Bool :=
  rs.any fun r => r.contains c.toNat

/-- Every `step`-th code point from `first` to `last`, each moved by `shift`. -/
structure CaseRun where
  first : Nat
  last : Nat
  step : Nat
  shift : Int

/-- Where the run moves a code point, if it lies on the run. -/
def CaseRun.apply? (r : CaseRun) (n : Nat) : Option Nat :=
  if r.first ≤ n ∧ n ≤ r.last ∧ (n - r.first) % r.step = 0 then
    some (Int.ofNat n + r.shift).toNat
  else none

end RepoCatalog.Text
