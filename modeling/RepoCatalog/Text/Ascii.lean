/-!
# Letters of the basic alphabet

Case folding that touches `A`–`Z` and `a`–`z` and nothing else. Stored names, kinds of services and
log formats are compared this way; full Unicode lower case is in `RepoCatalog.Text.LowerCase`.
-/
namespace RepoCatalog.Text.Ascii

/-- Lower case of a letter of the basic alphabet; every other character stays. -/
def lowerChar (c : Char) : Char :=
  if 'A' ≤ c ∧ c ≤ 'Z' then Char.ofNat (c.toNat + 32) else c

def upperChar (c : Char) : Char :=
  if 'a' ≤ c ∧ c ≤ 'z' then Char.ofNat (c.toNat - 32) else c

def lower (s : String) : String :=
  String.ofList (s.toList.map lowerChar)

def upper (s : String) : String :=
  String.ofList (s.toList.map upperChar)

def eqIgnoringCase (s t : String) : Bool :=
  lower s == lower t

def isDigit (c : Char) : Bool :=
  '0' ≤ c && c ≤ '9'

def isLetter (c : Char) : Bool :=
  ('a' ≤ c && c ≤ 'z') || ('A' ≤ c && c ≤ 'Z')

def isAlphanumeric (c : Char) : Bool :=
  isLetter c || isDigit c

def isHexDigit (c : Char) : Bool :=
  isDigit c || ('a' ≤ c && c ≤ 'f') || ('A' ≤ c && c ≤ 'F')

def hexValue? (c : Char) : Option Nat :=
  if isDigit c then some (c.toNat - 48)
  else if 'a' ≤ c ∧ c ≤ 'f' then some (c.toNat - 87)
  else if 'A' ≤ c ∧ c ≤ 'F' then some (c.toNat - 55)
  else none

end RepoCatalog.Text.Ascii
