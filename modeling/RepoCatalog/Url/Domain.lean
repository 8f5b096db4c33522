import RepoCatalog.Text.CodeRange
import RepoCatalog.Text.LowerCase
import RepoCatalog.Text.Split
import RepoCatalog.Url.Punycode

/-!
# Names of hosts

A name of basic characters is lowered. Any other one is read by tables of all characters, and then
written in basic characters: a label past them as its written form, after `xn--`. How that is done is
left open, but for what no name may hold. The instance here goes by the cases of letters only: it
lowers a name, takes forms of full width for basic characters and leaves out what cannot be seen.
-/
namespace RepoCatalog.Url

namespace Domain

/-- Basic characters that no name of a host may hold. -/
def isForbidden (c : Char) : Bool :=
  c.toNat ≤ 32 || c.toNat == 127 || "%#/:<>?@[\\]^|".toList.contains c

def isWrittenForm (label : List Char) : Bool :=
  "xn--".toList.isPrefixOf (label.map Text.Ascii.lowerChar)

/-- Whether a name is of basic characters, and none of its labels is a written form. -/
def isPlain (cs : List Char) : Bool :=
  cs.all (·.toNat < 128) && (Text.splitAll '.' cs).all (!isWrittenForm ·)

end Domain

/-- How names of hosts that are not plain are written in basic characters. -/
class HostNames where
  toBasic? : List Char → Option (List Char)
  toBasic?_of_forbidden : ∀ {cs : List Char} {c : Char}, c ∈ cs → Domain.isForbidden c = true →
    toBasic? cs = none

namespace Domain

def toBasic? [HostNames] (cs : List Char) : Option (List Char) :=
  if isPlain cs then
    if cs.any isForbidden then none else some (cs.map Text.Ascii.lowerChar)
  else HostNames.toBasic? cs

theorem toBasic?_of_forbidden [HostNames] {cs : List Char} {c : Char} (hc : c ∈ cs)
    (h : isForbidden c = true) : toBasic? cs = none := by
  unfold toBasic?
  split
  · rw [if_pos (List.any_eq_true.mpr ⟨c, hc, h⟩)]
  · exact HostNames.toBasic?_of_forbidden hc h

/-- Characters that are left out of a name. -/
def isIgnored (c : Char) : Bool :=
  let n := c.toNat
  n == 0xAD || n == 0x34F || n == 0x200B || n == 0x2060 || n == 0x2064 || n == 0xFEFF ||
    (0x180B ≤ n && n ≤ 0x180D) || n == 0x180F || (0xFE00 ≤ n && n ≤ 0xFE0F) ||
    (0xE0100 ≤ n && n ≤ 0xE01EF)

/-- Past the basic characters, blanks, controls, private characters and those that are none, which no
name may hold. -/
def refusedRanges : List Text.CodeRange := [
  ⟨0x80, 0xA0⟩, ⟨0x61C, 0x61C⟩, ⟨0x1680, 0x1680⟩, ⟨0x2000, 0x200A⟩, ⟨0x200C, 0x200F⟩,
  ⟨0x2028, 0x202F⟩, ⟨0x205F, 0x205F⟩, ⟨0x2061, 0x2063⟩, ⟨0x2065, 0x206F⟩, ⟨0x3000, 0x3000⟩,
  ⟨0xE000, 0xF8FF⟩, ⟨0xFDD0, 0xFDEF⟩, ⟨0xFFF0, 0xFFFF⟩, ⟨0xE0000, 0xE00FF⟩, ⟨0xE01F0, 0x10FFFF⟩]

def isRefused (c : Char) : Bool :=
  Text.inRanges refusedRanges c

/-- What a character of a name stands for. -/
def mapChar (c : Char) : List Char :=
  let n := c.toNat
  if isIgnored c then []
  else if n == 0x3002 || n == 0xFF0E || n == 0xFF61 then ['.']
  else if 0xFF01 ≤ n ∧ n ≤ 0xFF5E then [Text.Ascii.lowerChar (Char.ofNat (n - 0xFEE0))]
  else if n == 0x1E9E then ['ß']
  else if c = 'İ' then ['i', Char.ofNat 0x307]
  else [Text.lowerSimple c]

/-- Whether a label that begins with `xn--` is the written form of another one. -/
def isWrittenLabel (label : List Char) : Bool :=
  match Punycode.decode? (label.drop 4) with
  | none => false
  | some decoded =>
    decoded.any (128 ≤ ·.toNat) && Punycode.encode decoded == label.drop 4 &&
      decoded.flatMap mapChar == decoded

def labelText? (label : List Char) : Option (List Char) :=
  if label.all (·.toNat < 128) then
    if isWrittenForm label && !isWrittenLabel label then none else some label
  else some ("xn--".toList ++ Punycode.encode label)

def lettersToBasic? (cs : List Char) : Option (List Char) := do
  let mapped := cs.flatMap mapChar
  guard (!mapped.any fun c => isForbidden c || isRefused c)
  let written ← (Text.splitAll '.' mapped).mapM labelText?
  return ['.'].intercalate written

theorem toNat_of_forbidden {c : Char} (h : isForbidden c = true) : c.toNat < 128 := by
  simp only [isForbidden, Bool.or_eq_true, decide_eq_true_eq, beq_iff_eq] at h
  rcases h with (h | h) | h
  · omega
  · omega
  · have hall : ("%#/:<>?@[\\]^|".toList.all fun d => d.toNat < 128) = true := by decide
    exact of_decide_eq_true (List.all_eq_true.mp hall c (List.contains_iff_mem.mp h))

theorem mem_mapChar_of_forbidden {c : Char} (h : isForbidden c = true) : c ∈ mapChar c := by
  have hall : ∀ n < 128, isForbidden (Char.ofNat n) = true →
      Char.ofNat n ∈ mapChar (Char.ofNat n) := by
    decide +kernel
  have hc := hall c.toNat (toNat_of_forbidden h)
  rw [Char.ofNat_toNat] at hc
  exact hc h

theorem lettersToBasic?_of_forbidden {cs : List Char} {c : Char} (hc : c ∈ cs)
    (h : isForbidden c = true) : lettersToBasic? cs = none := by
  have hany : ((cs.flatMap mapChar).any fun c => isForbidden c || isRefused c) = true :=
    List.any_eq_true.mpr ⟨c, List.mem_flatMap.mpr ⟨c, hc, mem_mapChar_of_forbidden h⟩,
      Bool.or_eq_true_iff.mpr (.inl h)⟩
  unfold lettersToBasic?
  dsimp only
  rw [hany]
  rfl

instance : HostNames := ⟨lettersToBasic?, lettersToBasic?_of_forbidden⟩

end Domain

end RepoCatalog.Url
