import RepoCatalog.Text.HiddenTable

/-!
# Quoted texts in messages

A message shows a text between double quotes. Quotes, backslashes, tabs and line ends are escaped
with a backslash, and characters that cannot be seen are shown by number, as in `\u{200b}`.
-/
namespace RepoCatalog.Text

def hexDigits (n : Nat) : List Char :=
  (Nat.toDigits 16 n)

def isHidden (c : Char) : Bool :=
  c.toNat < 32 || c.toNat == 127 || (128 ≤ c.toNat && inRanges hiddenRanges c)

/-- The characters that stand for `c` in a quoted text. -/
def quotedChar (c : Char) : List Char :=
  if c = '"' then ['\\', '"']
  else if c = '\\' then ['\\', '\\']
  else if c = '\t' then ['\\', 't']
  else if c = '\r' then ['\\', 'r']
  else if c = '\n' then ['\\', 'n']
  else if c.toNat = 0 then ['\\', '0']
  else if isHidden c then ['\\', 'u', '\x7b'] ++ hexDigits c.toNat ++ ['\x7d']
  else [c]

/-- A text as a message shows it. -/
def quoted (s : String) : String :=
  String.ofList ('"' :: s.toList.flatMap quotedChar ++ ['"'])

end RepoCatalog.Text
