import RepoCatalog.Text.Decimal

/-!
# Binary numbers of 64 bits

A number with a fraction is held with 53 binary digits, rounded to the nearest such number and, half
way between two, to the even one. It is written with the fewest decimal digits by which it is known
from its neighbours, without an exponent and with at least one digit after the point.
-/
namespace RepoCatalog.Json

/-- The number `mantissa * 2 ^ exponent`. Zero has a sign too. -/
structure Binary64 where
  isNegative : Bool
  mantissa : Nat
  exponent : Int
deriving DecidableEq, Inhabited

namespace Binary64

/-- How many numbers there are with the same exponent, counting from zero. -/
def bound : Nat := Nat.pow 2 53

/-- The exponent of the least numbers. -/
def leastExponent : Int := -1074

/-- The exponent of the greatest numbers. -/
def mostExponent : Int := 971

/-- What a power of `base` multiplies by and divides by; one of the two is 1. -/
def factors (base : Nat) (power : Int) : Nat × Nat :=
  (base.pow power.toNat, base.pow (-power).toNat)

/-- The quotient `n / d`, rounded to the nearest number and half way to the even one. -/
def roundQuotient (n d : Nat) : Nat :=
  let q := n / d
  let r := n % d
  if 2 * r < d then q else if d < 2 * r then q + 1 else q + q % 2

/-- The greatest `k` with `2 ^ k ≤ n / d`. -/
def log2Quotient (n d : Nat) : Int :=
  let k := Int.ofNat n.log2 - Int.ofNat d.log2
  let (up, down) := factors 2 k
  if d * up ≤ n * down then k else k - 1

/-- The number nearest to `n / d`, unless that is too large. -/
def nearest? (isNegative : Bool) (n d : Nat) : Option Binary64 :=
  if n = 0 then some ⟨isNegative, 0, leastExponent⟩
  else
    let exponent := max leastExponent (log2Quotient n d - 52)
    let (up, down) := factors 2 exponent
    let mantissa := roundQuotient (n * down) (d * up)
    let x : Binary64 :=
      if mantissa = bound then ⟨isNegative, mantissa / 2, exponent + 1⟩
      else ⟨isNegative, mantissa, exponent⟩
    if x.exponent ≤ mostExponent then some x else none

def fraction (x : Binary64) : Nat × Nat :=
  let (up, down) := factors 2 x.exponent
  (x.mantissa * up, down)

/-- The largest power of ten that one step of scaling takes. -/
def mostPower : Nat := 308

/-- The number `digits * 10 ^ power`, unless that is too large. The digits and the power of ten are
rounded before they are brought together, and the result once more. -/
def scaled? (isNegative : Bool) (digits : Nat) (power : Int) : Option Binary64 := do
  let x ← nearest? isNegative digits 1
  if x.mantissa = 0 then return x
  if 0 ≤ power then scaleUp x power.toNat else scaleDown ((-power).toNat + 1) x (-power).toNat
where
  /-- Multiplies by a power of ten. -/
  scaleUp (x : Binary64) (power : Nat) : Option Binary64 := do
    guard (power ≤ mostPower)
    let (n, d) := x.fraction
    let (m, e) := (← nearest? false (Nat.pow 10 power) 1).fraction
    nearest? x.isNegative (n * m) (d * e)
  /-- Divides by a power of ten. -/
  scaleDown : Nat → Binary64 → Nat → Option Binary64
    | 0, x, _ => some x
    | fuel + 1, x, power => do
      let (n, d) := x.fraction
      let (m, e) := (← nearest? false (Nat.pow 10 (min power mostPower)) 1).fraction
      let y ← nearest? x.isNegative (n * e) (d * m)
      if power ≤ mostPower ∨ y.mantissa = 0 then return y
      scaleDown fuel y (power - mostPower)

/-- Four times the least and the greatest mantissa, in units of the number's own, of what rounds to
the number. Below a power of two the neighbours are nearer. -/
def reach (x : Binary64) : Nat × Nat :=
  let isEdge := x.mantissa == bound / 2 && leastExponent < x.exponent
  (4 * x.mantissa - (if isEdge then 1 else 2), 4 * x.mantissa + 2)

/-- The multiple of `10 ^ power` nearest to the number among those that lead back to it; of two that
are equally near the greater one. -/
def onGrid? (x : Binary64) (power : Int) : Option Nat :=
  let (up, down) := factors 2 (x.exponent - 2)
  let (tenUp, tenDown) := factors 10 power
  let value (quarters : Nat) : Nat := quarters * up * tenDown
  let unit := down * tenUp
  let (low, high) := x.reach
  let leadsBack (c : Nat) : Bool :=
    if x.mantissa % 2 = 0 then value low ≤ c * unit && c * unit ≤ value high
    else value low < c * unit && c * unit < value high
  let c := value (4 * x.mantissa) / unit
  let isLowerNearer := 2 * value (4 * x.mantissa) < (2 * c + 1) * unit
  let (first, second) := if isLowerNearer then (c, c + 1) else (c + 1, c)
  if leadsBack first then some first else if leadsBack second then some second else none

/-- The coarsest multiple of a power of ten that leads back to the number, from `power` down. -/
def search (x : Binary64) : Nat → Int → Nat × Int
  | 0, power => (((onGrid? x power).getD 0), power)
  | fuel + 1, power =>
    match onGrid? x power with
    | some c => (c, power)
    | none => search x fuel (power - 1)

/-- More digits than are ever needed to tell a number from its neighbours. -/
def mostDigits : Nat := 20

/-- The fewest digits that lead back to the number, and the power of ten of the last one. -/
def shortest (x : Binary64) : Nat × Int :=
  if x.mantissa = 0 then (0, 0)
  else
    let (n, d) := x.fraction
    let start : Int :=
      if d ≤ n then Int.ofNat (toString (n / d)).length
      else 1 - Int.ofNat (toString (d / n)).length
    x.search mostDigits start

def text (x : Binary64) : String :=
  let (digits, power) := x.shortest
  let sign := if x.isNegative then "-" else ""
  let (up, down) := factors 10 power
  let fraction :=
    if power < 0 then Text.Decimal.padded (-power).toNat (digits % down) else "0"
  sign ++ toString (digits * up / down) ++ "." ++ fraction

end Binary64

end RepoCatalog.Json
