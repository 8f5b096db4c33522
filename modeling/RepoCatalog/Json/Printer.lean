import RepoCatalog.Json.Value

/-!
# Printed JSON

The indented form: two blanks a level, one item a line, `{}` and `[]` for what is empty. Quotes,
backslashes and control characters are escaped and nothing else is.
-/
namespace RepoCatalog.Json

def hexDigit (n : Nat) : Char :=
  if n < 10 then Char.ofNat (48 + n) else Char.ofNat (87 + n)

/-- The characters that stand for `c` inside quotes. -/
def escapeChar (c : Char) : List Char :=
  if c = '"' then ['\\', '"']
  else if c = '\\' then ['\\', '\\']
  else if c.toNat = 8 then ['\\', 'b']
  else if c.toNat = 12 then ['\\', 'f']
  else if c = '\n' then ['\\', 'n']
  else if c = '\r' then ['\\', 'r']
  else if c = '\t' then ['\\', 't']
  else if c.toNat < 32 then
    ['\\', 'u', '0', '0', hexDigit (c.toNat / 16), hexDigit (c.toNat % 16)]
  else [c]

def quote (s : String) : String :=
  String.ofList ('"' :: s.toList.flatMap escapeChar ++ ['"'])

/-- The written form of a number. One that may have a fraction has a point. -/
def Number.text : Number → String
  | .integer n => toString n
  | .real x => x.text

def lineBreak (level : Nat) : String :=
  "\n" ++ String.ofList (List.replicate (2 * level) ' ')

namespace Value

mutual

/-- The printed form of a value whose first line stands at `level`. -/
def prettyAt (level : Nat) : Value → String
  | .null => "null"
  | .bool b => if b then "true" else "false"
  | .number n => n.text
  | .string s => quote s
  | .array [] => "[]"
  | .array (v :: vs) =>
    "[" ++ lineBreak (level + 1) ++ prettyAt (level + 1) v ++ prettyItems level vs
  | .object [] => "\x7b\x7d"
  | .object (m :: ms) =>
    "\x7b" ++ lineBreak (level + 1) ++ quote m.1 ++ ": " ++ prettyAt (level + 1) m.2 ++
      prettyMembers level ms

/-- The items after the first of an array at `level`, and its end. -/
def prettyItems (level : Nat) : List Value → String
  | [] => lineBreak level ++ "]"
  | v :: vs => "," ++ lineBreak (level + 1) ++ prettyAt (level + 1) v ++ prettyItems level vs

/-- The members after the first of an object at `level`, and its end. -/
def prettyMembers (level : Nat) : List (String × Value) → String
  | [] => lineBreak level ++ "\x7d"
  | m :: ms =>
    "," ++ lineBreak (level + 1) ++ quote m.1 ++ ": " ++ prettyAt (level + 1) m.2 ++
      prettyMembers level ms

end

def pretty (v : Value) : String :=
  prettyAt 0 v

end Value

end RepoCatalog.Json
