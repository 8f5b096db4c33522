import RepoCatalog.Text.Ascii

/-!
# Whole numbers in decimal

Reading accepts an optional sign and then at least one digit, with any number of leading zeros, as
long as the value stays inside the bounds. A minus sign is refused where negative values are.
-/
namespace RepoCatalog.Text.Decimal

/-- The value of a run of digits, continuing from `n`. -/
def valueFrom (n : Nat) : List Char → Option Nat
  | [] => some n
  | c :: cs => if Ascii.isDigit c then valueFrom (10 * n + (c.toNat - 48)) cs else none

/-- The value of a text of digits that is not empty. -/
def value? : List Char → Option Nat
  | [] => none
  | cs => valueFrom 0 cs

def unsigned? (most : Nat) (s : String) : Option Nat :=
  let digits := match s.toList with
    | '+' :: cs => cs
    | cs => cs
  (value? digits).filter (· ≤ most)

def signed? (least most : Int) (s : String) : Option Int :=
  let value := match s.toList with
    | '+' :: cs => (value? cs).map Int.ofNat
    | '-' :: cs => (value? cs).map fun n => -Int.ofNat n
    | cs => (value? cs).map Int.ofNat
  value.filter fun n => least ≤ n && n ≤ most

/-- The digits of `n`, with zeros in front up to `width`. -/
def padded (width n : Nat) : String :=
  let digits := toString n
  String.ofList (List.replicate (width - digits.length) '0') ++ digits

end RepoCatalog.Text.Decimal
