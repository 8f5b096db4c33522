/-!
# Punycode

Names of hosts hold characters past the basic ones as a run of basic letters and digits: first the
basic characters of the label, then, in order of their code points, where the others stand, as
numbers of variable length whose digits adapt to what came before.
-/
namespace RepoCatalog.Url.Punycode

def base : Nat := 36

def leastDigit : Nat := 1

def mostDigit : Nat := 26

def digit (n : Nat) : Char :=
  if n < 26 then Char.ofNat (97 + n) else Char.ofNat (22 + n)

def value? (c : Char) : Option Nat :=
  if 'a' ≤ c ∧ c ≤ 'z' then some (c.toNat - 97)
  else if 'A' ≤ c ∧ c ≤ 'Z' then some (c.toNat - 65)
  else if '0' ≤ c ∧ c ≤ '9' then some (c.toNat - 22)
  else none

def threshold (bias place : Nat) : Nat :=
  min mostDigit (max leastDigit (place - bias))

/-- Scales a difference down until the bias is near it. -/
def scale (delta places : Nat) : Nat × Nat :=
  if h : (base - leastDigit) * mostDigit / 2 < delta then
    have : delta / (base - leastDigit) < delta := Nat.div_lt_self (by omega) (by decide)
    scale (delta / (base - leastDigit)) (places + base)
  else (delta, places)
termination_by delta

/-- The bias after a difference, when `points` characters have been handled. -/
def adapt (delta points : Nat) (isFirst : Bool) : Nat :=
  let delta := if isFirst then delta / 700 else delta / 2
  let (delta, places) := scale (delta + delta / points) 0
  places + (base - leastDigit + 1) * delta / (delta + 38)

def digits (bias place n : Nat) : List Char :=
  let t := threshold bias place
  if h : n < t then [digit n]
  else
    have ht : 1 ≤ t := Nat.le_min.mpr ⟨by decide, Nat.le_max_left _ _⟩
    have : (n - t) / (base - t) < n :=
      Nat.lt_of_le_of_lt (Nat.div_le_self _ _) (by omega)
    digit (t + (n - t) % (base - t)) :: digits bias (place + base) ((n - t) / (base - t))
termination_by n

/-- What has been written so far. -/
structure Writer where
  output : List Char
  delta : Nat
  bias : Nat
  handled : Nat

/-- Passes one character of the label while the code point `n` is handled. -/
def Writer.pass (basic n : Nat) (w : Writer) (c : Char) : Writer :=
  if c.toNat < n then { w with delta := w.delta + 1 }
  else if c.toNat = n then
    { output := w.output ++ digits w.bias base w.delta
      delta := 0
      bias := adapt w.delta (w.handled + 1) (w.handled == basic)
      handled := w.handled + 1 }
  else w

/-- Handles code points in increasing order. -/
def encodeFrom (label : List Char) (basic : Nat) : Nat → Writer → List Nat → Writer
  | _, w, [] => w
  | last, w, n :: ns =>
    let w := { w with delta := w.delta + (n - last) * (w.handled + 1) }
    let w := label.foldl (Writer.pass basic n) w
    encodeFrom label basic (n + 1) { w with delta := w.delta + 1 } ns

def encode (label : List Char) : List Char :=
  let basic := label.filter (·.toNat < 128)
  let others := ((label.filter (128 ≤ ·.toNat)).map Char.toNat).mergeSort.eraseDups
  let head := if basic.isEmpty then [] else basic ++ ['-']
  let w := encodeFrom label basic.length 128 ⟨[], 0, 72, basic.length⟩ others
  head ++ w.output

def number (bias : Nat) : Nat → Nat → Nat → List Char → Option (Nat × List Char)
  | _, _, _, [] => none
  | place, weight, n, c :: cs => do
    let d ← value? c
    let t := threshold bias place
    let n := n + d * weight
    if d < t then return (n, cs)
    else number bias (place + base) (weight * (base - t)) n cs

/-- Reads the positions of characters past the basic ones. -/
def decodeFrom : Nat → Nat → Nat → Nat → List Char → List Char → Option (List Char)
  | 0, _, _, _, _, _ => none
  | _ + 1, _, _, _, output, [] => some output
  | fuel + 1, n, i, bias, output, cs => do
    let (j, rest) ← number bias base 1 i cs
    let length := output.length + 1
    let code := n + j / length
    guard (code < 0x110000 ∧ ¬ (0xD800 ≤ code ∧ code < 0xE000))
    let place := j % length
    let output := output.take place ++ Char.ofNat code :: output.drop place
    decodeFrom fuel code (place + 1) (adapt (j - i) length (i == 0)) output rest

def decode? (cs : List Char) : Option (List Char) :=
  let tail := (cs.reverse.takeWhile (· != '-')).reverse
  let head := (cs.take (cs.length - tail.length)).dropLast
  if head.all (·.toNat < 128) then decodeFrom (tail.length + 1) 128 0 72 head tail else none

end RepoCatalog.Url.Punycode
