import RepoCatalog.Dict
import RepoCatalog.Json.Value

/-!
# Reading JSON text

Of the members of one object that share a name the last counts, and members are put in the order of
their names. A number without fraction and exponent that fits 64 bits is whole; all others are
binary numbers, read from as many of their first digits as fit 64 bits.
-/
namespace RepoCatalog.Json

namespace Parser

/-- What is read from the start of a text, and the rest of it. -/
abbrev Parse (α : Type) := List Char → Option (α × List Char)

def isBlank (c : Char) : Bool :=
  c == ' ' || c == '\n' || c == '\r' || c == '\t'

def skipBlanks (cs : List Char) : List Char :=
  cs.dropWhile isBlank

/-- The rest of a text that begins with a word. -/
def word (w : String) (v : Value) : Parse Value := fun cs =>
  if w.toList.isPrefixOf cs then some (v, cs.drop w.length) else none

/-- The value of four hexadecimal digits. -/
def unit? (a b c d : Char) : Option Nat := do
  let a ← Text.Ascii.hexValue? a
  let b ← Text.Ascii.hexValue? b
  let c ← Text.Ascii.hexValue? c
  let d ← Text.Ascii.hexValue? d
  return 4096 * a + 256 * b + 16 * c + d

def char? (n : Nat) : Option Char :=
  if n.isValidChar then some (Char.ofNat n) else none

/-- The character of two units that stand for one. -/
def pair? (high low : Nat) : Option Char := do
  guard (0xD800 ≤ high ∧ high < 0xDC00 ∧ 0xDC00 ≤ low ∧ low < 0xE000)
  char? (0x10000 + 1024 * (high - 0xD800) + (low - 0xDC00))

/-- What a character after a backslash stands for. -/
def escaped? (c : Char) : Option Char :=
  if c = '"' ∨ c = '\\' ∨ c = '/' then some c
  else if c = 'b' then some (Char.ofNat 8)
  else if c = 'f' then some (Char.ofNat 12)
  else if c = 'n' then some '\n'
  else if c = 'r' then some '\r'
  else if c = 't' then some '\t'
  else none

/-- The characters up to the closing quote, after those that were read, the last one first. -/
def stringFrom (read : List Char) : Parse String
  | '"' :: cs => some (String.ofList read.reverse, cs)
  | '\\' :: 'u' :: a :: b :: c :: d :: '\\' :: 'u' :: e :: f :: g :: h :: cs => do
    let first ← unit? a b c d
    match char? first with
    | some x => stringFrom (x :: read) ('\\' :: 'u' :: e :: f :: g :: h :: cs)
    | none => stringFrom ((← pair? first (← unit? e f g h)) :: read) cs
  | '\\' :: 'u' :: a :: b :: c :: d :: cs => do
    stringFrom ((← char? (← unit? a b c d)) :: read) cs
  | '\\' :: c :: cs => do
    stringFrom ((← escaped? c) :: read) cs
  | c :: cs => if c.toNat < 32 then none else stringFrom (c :: read) cs
  | [] => none
termination_by cs => cs.length

def mostWhole : Nat := 18446744073709551615

/-- Takes digits as long as the value fits, and tells how many were not taken. -/
def takeDigits (n : Nat) : List Char → Nat × Nat
  | [] => (n, 0)
  | c :: cs =>
    let m := 10 * n + (c.toNat - 48)
    if m ≤ mostWhole then takeDigits m cs else (n, cs.length + 1)

def digits : Parse (List Char) := fun cs =>
  match cs.takeWhile Text.Ascii.isDigit with
  | [] => none
  | ds => some (ds, cs.dropWhile Text.Ascii.isDigit)

/-- The digits before the point, of which the first is no zero unless it stands alone. -/
def wholeDigits : Parse (List Char)
  | '0' :: cs => if cs.head?.any Text.Ascii.isDigit then none else some (['0'], cs)
  | cs => digits cs

/-- The digits after the point, if there is one. -/
def fractionDigits : Parse (Option (List Char))
  | '.' :: cs => (digits cs).map fun r => (some r.1, r.2)
  | cs => some (none, cs)

def exponent : Parse (Option Int)
  | c :: cs =>
    if c = 'e' ∨ c = 'E' then
      let (sign, cs) : Int × List Char := match cs with
        | '+' :: cs => (1, cs)
        | '-' :: cs => (-1, cs)
        | cs => (1, cs)
      (digits cs).map fun r => (some (sign * ((Text.Decimal.value? r.1).getD 0 : Nat)), r.2)
    else some (none, c :: cs)
  | [] => some (none, [])

/-- A whole number, if it fits 64 bits; negative zero does not count as one. -/
def whole? (isNegative : Bool) (n : Nat) : Option Int :=
  if isNegative then if 0 < n ∧ n ≤ Nat.pow 2 63 then some (-Int.ofNat n) else none
  else some (Int.ofNat n)

/-- The largest exponent that is looked at; beyond it only the direction counts. -/
def mostExponent : Int := 2147483647

/-- The number of the given digits. -/
def numberOf (isNegative : Bool) (whole : List Char) (fraction : Option (List Char))
    (exponent : Option Int) : Option Number :=
  let (n, dropped) := takeDigits 0 whole
  match fraction, exponent, whole? isNegative n with
  | none, none, some k => if dropped = 0 then some (.integer k) else real n dropped
  | _, _, _ =>
    let places := fraction.getD []
    let (m, ignored) := takeDigits n places
    let power := Int.ofNat dropped - Int.ofNat (places.length - ignored) + exponent.getD 0
    real m power
where
  /-- A binary number from digits and the power of ten of the last one. -/
  real (n : Nat) (power : Int) : Option Number :=
    let power := if mostExponent < power then mostExponent else max (-mostExponent) power
    (Binary64.scaled? isNegative n power).map .real

def number : Parse Value := fun cs => do
  let (isNegative, cs) := match cs with
    | '-' :: cs => (true, cs)
    | cs => (false, cs)
  let (whole, cs) ← wholeDigits cs
  let (fraction, cs) ← fractionDigits cs
  let (power, cs) ← exponent cs
  return (.number (← numberOf isNegative whole fraction power), cs)

mutual

/-- A value after blanks. Each value, item and member uses up one step. -/
def value : Nat → Parse Value
  | 0, _ => none
  | steps + 1, cs =>
    match skipBlanks cs with
    | 'n' :: cs => word "ull" .null cs
    | 't' :: cs => word "rue" (.bool true) cs
    | 'f' :: cs => word "alse" (.bool false) cs
    | '"' :: cs => (stringFrom [] cs).map fun r => (.string r.1, r.2)
    | '[' :: cs =>
      match skipBlanks cs with
      | ']' :: cs => some (.array [], cs)
      | cs => (items steps [] cs).map fun r => (.array r.1, r.2)
    | '\x7b' :: cs =>
      match skipBlanks cs with
      | '\x7d' :: cs => some (.object [], cs)
      | cs => (members steps [] cs).map fun r => (.object (Dict.ofList r.1).entries, r.2)
    | cs => number cs

/-- The items up to the closing bracket, after those that were read, the last one first. -/
def items : Nat → List Value → Parse (List Value)
  | 0, _, _ => none
  | steps + 1, read, cs => do
    let (v, cs) ← value steps cs
    match skipBlanks cs with
    | ',' :: cs => items steps (v :: read) cs
    | ']' :: cs => some ((v :: read).reverse, cs)
    | _ => none

/-- The members up to the closing brace, after those that were read, the last one first. -/
def members : Nat → List (String × Value) → Parse (List (String × Value))
  | 0, _, _ => none
  | steps + 1, read, cs => do
    let '"' :: cs := skipBlanks cs | none
    let (name, cs) ← stringFrom [] cs
    let ':' :: cs := skipBlanks cs | none
    let (v, cs) ← value steps cs
    match skipBlanks cs with
    | ',' :: cs => members steps ((name, v) :: read) cs
    | '\x7d' :: cs => some (((name, v) :: read).reverse, cs)
    | _ => none

end

end Parser

def Value.parse? (text : String) : Option Value := do
  let (v, rest) ← Parser.value (text.length + 1) text.toList
  guard (Parser.skipBlanks rest).isEmpty
  return v

end RepoCatalog.Json
