import RepoCatalog.Text.Ascii
import RepoCatalog.Text.Decimal
import RepoCatalog.Text.Split

/-!
# Numeric addresses

The two kinds of numeric host. The parts of an address of the older kind may be decimal, octal or
hexadecimal, and the last part fills what is left. An address of the newer kind has eight pieces; the
longest run of zeros, if it has more than one, is written as two colons.
-/
namespace RepoCatalog.Url

def valueInBase (base : Nat) (cs : List Char) : Option Nat :=
  cs.foldlM (fun n c =>
    match Text.Ascii.hexValue? c with
    | some d => if d < base then some (base * n + d) else none
    | none => none) 0

/-- One part of an address of the older kind. -/
def partValue? : List Char → Option Nat
  | [] => none
  | '0' :: x :: cs =>
    if x = 'x' ∨ x = 'X' then valueInBase 16 cs else valueInBase 8 (x :: cs)
  | cs => valueInBase 10 cs

/-- Whether the last part of a domain is a number, so that the domain has to be an address. -/
def endsInNumber (cs : List Char) : Bool :=
  let last := match (Text.splitAll '.' cs).reverse with
    | [] :: part :: _ => part
    | [] :: [] => []
    | part :: _ => part
    | [] => []
  (!last.isEmpty && last.all Text.Ascii.isDigit) || (partValue? last).isSome

def parseIpv4 (cs : List Char) : Option Nat := do
  let parts := Text.splitAll '.' cs
  let parts := if parts.getLast? = some [] then parts.dropLast else parts
  guard (parts.length ≤ 4)
  let numbers ← parts.mapM partValue?
  let last ← numbers.getLast?
  let leading := numbers.dropLast
  guard (last < Nat.pow 256 (4 - leading.length))
  guard (leading.all (· ≤ 255))
  return leading.zipIdx.foldl (fun n p => n + p.1 * Nat.pow 256 (3 - p.2)) last

def ipv4Text (n : Nat) : String :=
  s!"{n / 16777216 % 256}.{n / 65536 % 256}.{n / 256 % 256}.{n % 256}"

/-- Pieces of an address of the newer kind, and where zeros were left out. -/
structure Pieces where
  pieces : List Nat
  gap : Option Nat

/-- The decimal numbers at the end of an address, each below 256 and without a leading zero. -/
def trailingBytes (cs : List Char) : Option (List Nat) :=
  let parts := Text.splitAll '.' cs
  if parts.length ≠ 4 then none
  else parts.mapM fun part =>
    if part.isEmpty || (part.length > 1 && part.head? == some '0') then none
    else (Text.Decimal.value? part).filter (· ≤ 255)

/-- Reads pieces from where one may begin. -/
def readPieces : Nat → Pieces → List Char → Option Pieces
  | 0, _, _ => none
  | _ + 1, p, [] => some p
  | fuel + 1, p, ':' :: cs =>
    if p.pieces.length = 8 ∨ p.gap.isSome then none
    else readPieces fuel { p with gap := some p.pieces.length } cs
  | fuel + 1, p, cs =>
    if 8 ≤ p.pieces.length + (if p.gap.isSome then 1 else 0) then none
    else
      let digits := (cs.take 4).takeWhile Text.Ascii.isHexDigit
      let value := (valueInBase 16 digits).getD 0
      match cs.drop digits.length with
      | [] => some { p with pieces := p.pieces ++ [value] }
      | ':' :: [] => none
      | ':' :: rest => readPieces fuel { p with pieces := p.pieces ++ [value] } rest
      | '.' :: _ =>
        if digits.isEmpty ∨ 6 < p.pieces.length + (if p.gap.isSome then 1 else 0) then none
        else match trailingBytes cs with
          | some [a, b, c, d] =>
            some { p with pieces := p.pieces ++ [256 * a + b, 256 * c + d] }
          | _ => none
      | _ => none

/-- An address of the newer kind, as its eight pieces. -/
def parseIpv6 (cs : List Char) : Option (List Nat) := do
  let p ← match cs with
    | ':' :: ':' :: rest => readPieces (cs.length + 1) ⟨[], some 0⟩ rest
    | ':' :: _ => none
    | [] => none
    | [_] => none
    | _ => readPieces (cs.length + 1) ⟨[], none⟩ cs
  match p.gap with
  | none => if p.pieces.length = 8 then some p.pieces else none
  | some k =>
    if p.pieces.length ≤ 8 then
      some (p.pieces.take k ++ List.replicate (8 - p.pieces.length) 0 ++ p.pieces.drop k)
    else none

/-- Where the longest run of zeros begins, counting from `start`, and how long it is. Of equal runs
the first counts. -/
def longestZeros : Nat → List Nat → Nat × Nat
  | _, [] => (0, 0)
  | start, p :: ps =>
    let here := ((p :: ps).takeWhile (· == 0)).length
    let later := longestZeros (start + 1) ps
    if 0 < here ∧ later.2 ≤ here then (start, here) else later

def hexPieces (ps : List Nat) : String :=
  ":".intercalate (ps.map fun p => String.ofList (Nat.toDigits 16 p))

def ipv6Text (ps : List Nat) : String :=
  let (start, length) := longestZeros 0 ps
  if length < 2 then hexPieces ps
  else hexPieces (ps.take start) ++ "::" ++ hexPieces (ps.drop (start + length))

end RepoCatalog.Url
