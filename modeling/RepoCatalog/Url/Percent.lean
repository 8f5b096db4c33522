import RepoCatalog.Text.Ascii

/-!
# Percent-encoding

Parts of a URL hold characters that would end the part, and all that is not basic text, as a percent
sign and two digits for each byte. Which characters these are depends on the part.
-/
namespace RepoCatalog.Url

/-- Characters that a part of a URL does not hold as they are. -/
abbrev EncodeSet := Char → Bool

namespace EncodeSet

/-- Control characters and everything past the basic characters. -/
def control : EncodeSet := fun c =>
  c.toNat < 32 || 126 < c.toNat

def fragment : EncodeSet := fun c =>
  control c || c == ' ' || c == '"' || c == '<' || c == '>' || c.toNat == 0x60

def query : EncodeSet := fun c =>
  control c || c == ' ' || c == '"' || c == '#' || c == '<' || c == '>'

/-- As `query`, where the scheme has rules of its own. -/
def specialQuery : EncodeSet := fun c =>
  query c || c.toNat == 0x27

def path : EncodeSet := fun c =>
  fragment c || c == '#' || c == '?' || c == '\x7b' || c == '\x7d'

def userinfo : EncodeSet := fun c =>
  path c || c == '/' || c == ':' || c == ';' || c == '=' || c == '@' || c == '[' || c == '\\' ||
    c == ']' || c == '^' || c == '|'

end EncodeSet

def upperHex (n : Nat) : Char :=
  if n < 10 then Char.ofNat (48 + n) else Char.ofNat (55 + n)

def encodeByte (b : UInt8) : List Char :=
  ['%', upperHex (b.toNat / 16), upperHex (b.toNat % 16)]

def encodeChar (set : EncodeSet) (c : Char) : List Char :=
  if set c then (String.singleton c).toUTF8.toList.flatMap encodeByte else [c]

/-- A text as a part of a URL holds it. -/
def percentEncode (set : EncodeSet) (cs : List Char) : String :=
  String.ofList (cs.flatMap (encodeChar set))

/-- The bytes of a text in which every percent sign with two digits stands for a byte. -/
def decodedBytes : List Char → List UInt8
  | '%' :: a :: b :: cs =>
    match Text.Ascii.hexValue? a, Text.Ascii.hexValue? b with
    | some m, some n => UInt8.ofNat (16 * m + n) :: decodedBytes cs
    | _, _ => 37 :: decodedBytes (a :: b :: cs)
  | c :: cs => (String.singleton c).toUTF8.toList ++ decodedBytes cs
  | [] => []
termination_by cs => cs.length

/-- The text in which every percent sign with two digits stands for a byte, if it is one. -/
def percentDecode? (cs : List Char) : Option (List Char) :=
  (String.fromUTF8? (decodedBytes cs).toByteArray).map String.toList

end RepoCatalog.Url
