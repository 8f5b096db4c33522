import RepoCatalog.Text.Blank
import RepoCatalog.Text.Decimal
import RepoCatalog.Time.Instant

/-!
# Written points in time

The internet date and time format. Writing gives universal time with `Z` and a fraction of none,
three, six or nine places, the fewest that lose nothing. Reading takes any offset, any number of
places (those after the ninth are dropped), and is free about the width of numbers and the blanks
between the parts of the date and of the time. The second 60 is the first of the next minute.
-/
namespace RepoCatalog.Time.Timestamp

open RepoCatalog.Text

/-- Four digits for the years 0 to 9999; a sign and at least four digits for all others. -/
def yearText (year : Int) : String :=
  if 0 ≤ year ∧ year ≤ 9999 then Decimal.padded 4 year.toNat
  else (if year < 0 then "-" else "+") ++ Decimal.padded 4 year.natAbs

/-- The fraction of a second with its point, empty if there is none. -/
def fractionText (nanoseconds : Nat) : String :=
  if nanoseconds == 0 then ""
  else if nanoseconds % 1000000 == 0 then "." ++ Decimal.padded 3 (nanoseconds / 1000000)
  else if nanoseconds % 1000 == 0 then "." ++ Decimal.padded 6 (nanoseconds / 1000)
  else "." ++ Decimal.padded 9 nanoseconds

/-- The written form with `zone` at its end. -/
def writeIn (zone : String) (t : Instant) : String :=
  let seconds := t.nanoseconds.fdiv Duration.nanosecondsPerSecond
  let fraction := (t.nanoseconds - seconds * Duration.nanosecondsPerSecond).toNat
  let days := seconds.fdiv Instant.secondsPerDay
  let clock := (seconds - days * Instant.secondsPerDay).toNat
  let date := Date.ofDays days
  yearText date.year ++ "-" ++ Decimal.padded 2 date.month ++ "-" ++ Decimal.padded 2 date.day ++
    "T" ++ Decimal.padded 2 (clock / 3600) ++ ":" ++ Decimal.padded 2 (clock / 60 % 60) ++ ":" ++
    Decimal.padded 2 (clock % 60) ++ fractionText fraction ++ zone

/-- The written form in universal time. -/
def write (t : Instant) : String :=
  writeIn "Z" t

inductive Error where
  | tooShort
  | invalid
  | outOfRange
  | tooLong
deriving DecidableEq, Inhabited

def Error.message : Error → String
  | .tooShort => "premature end of input"
  | .invalid => "input contains invalid characters"
  | .outOfRange => "input is out of range"
  | .tooLong => "trailing input"

/-- The longest run of at most `width` digits and what follows it. -/
def digitRun : Nat → List Char → List Char × List Char
  | 0, cs => ([], cs)
  | _ + 1, [] => ([], [])
  | width + 1, c :: cs =>
    if Ascii.isDigit c then
      let (run, rest) := digitRun width cs
      (c :: run, rest)
    else ([], c :: cs)

/-- A number of one to `width` digits, and what follows it. -/
def number (width : Nat) (cs : List Char) : Except Error (Nat × List Char) :=
  match cs, digitRun width cs with
  | [], _ => .error .tooShort
  | _, ([], _) => .error .invalid
  | _, (run, rest) => .ok ((Decimal.value? run).getD 0, rest)

/-- A number of at most two digits from `least` to `most`, with blanks before it. -/
def field (least most : Nat) (cs : List Char) : Except Error (Nat × List Char) := do
  let (n, rest) ← number 2 (cs.dropWhile isBlank)
  if least ≤ n ∧ n ≤ most then return (n, rest) else throw .outOfRange

/-- What follows the character `c`, which may have blanks before it. -/
def literal (c : Char) (cs : List Char) : Except Error (List Char) :=
  match cs.dropWhile isBlank with
  | [] => .error .tooShort
  | d :: rest => if c = d then .ok rest else .error .invalid

/-- A year: four digits at most, or a sign and any number of digits. -/
def yearField (cs : List Char) : Except Error (Int × List Char) :=
  match cs.dropWhile isBlank with
  | '-' :: rest => do
    let (n, rest) ← number rest.length rest
    return (-Int.ofNat n, rest)
  | '+' :: rest => do
    let (n, rest) ← number rest.length rest
    return (Int.ofNat n, rest)
  | rest => do
    let (n, rest) ← number 4 rest
    return (Int.ofNat n, rest)

/-- The fraction of a second in nanoseconds, if a point starts one. -/
def fractionField : List Char → Except Error (Nat × List Char)
  | '.' :: cs =>
    match cs, digitRun 9 cs with
    | [], _ => .error .tooShort
    | _, ([], _) => .error .invalid
    | _, (run, rest) =>
      .ok ((Decimal.value? run).getD 0 * Nat.pow 10 (9 - run.length), rest.dropWhile Ascii.isDigit)
  | cs => .ok (0, cs)

/-- The seconds by which local time is ahead of universal time. -/
def offsetField : List Char → Except Error (Int × List Char)
  | [] => .error .tooShort
  | c :: cs =>
    if c = 'Z' ∨ c = 'z' then .ok (0, cs)
    else if c = '+' ∨ c = '-' ∨ c.toNat = 0x2212 then do
      let (hours, rest) ← pair cs
      let (minutes, rest) ← pair (rest.dropWhile fun d => d == ':' || isBlank d)
      if 60 ≤ minutes then throw .outOfRange
      let seconds := Int.ofNat (hours * 3600 + minutes * 60)
      return (if c = '+' then seconds else -seconds, rest)
    else .error .invalid
where
  /-- Exactly two digits. -/
  pair : List Char → Except Error (Nat × List Char)
    | a :: b :: rest =>
      if Ascii.isDigit a ∧ Ascii.isDigit b then
        .ok (10 * (a.toNat - 48) + (b.toNat - 48), rest)
      else .error .invalid
    | _ => .error .tooShort

/-- The zone: universal time by its name, or an offset. -/
def zoneField (cs : List Char) : Except Error (Int × List Char) :=
  match cs.dropWhile isBlank with
  | a :: b :: c :: rest =>
    if Ascii.upper (String.ofList [a, b, c]) = "UTC" then .ok (0, rest)
    else offsetField (a :: b :: c :: rest)
  | rest => offsetField rest

def read (s : String) : Except Error Instant := do
  let (year, rest) ← yearField s.toList
  let rest ← literal '-' rest
  let (month, rest) ← field 1 12 rest
  let rest ← literal '-' rest
  let (day, rest) ← field 1 31 rest
  let rest ← match rest with
    | [] => throw .tooShort
    | c :: rest => if c = 'T' ∨ c = 't' ∨ c = ' ' then pure rest else throw .invalid
  let (hour, rest) ← field 0 23 rest
  let rest ← literal ':' rest
  let (minute, rest) ← field 0 59 rest
  let rest ← literal ':' rest
  let (second, rest) ← field 0 60 rest
  let (fraction, rest) ← fractionField rest
  let (offset, rest) ← zoneField rest
  if !(rest.dropWhile isBlank).isEmpty then throw .tooLong
  let date : Date := ⟨year, month, day⟩
  let clock := Int.ofNat (hour * 3600 + minute * 60 + second)
  let seconds := date.toDays * Instant.secondsPerDay + clock - offset
  let t : Instant := ⟨seconds * Duration.nanosecondsPerSecond + Int.ofNat fraction⟩
  if date.isValid && -86400 < offset && offset < 86400 && t.inRange then return t
  else throw .outOfRange

end RepoCatalog.Time.Timestamp
