/-!
# White space

The characters with the Unicode property `White_Space`, and trimming by them.
-/
namespace RepoCatalog.Text

/-- Whether `c` has the Unicode property `White_Space`. -/
def isBlank (c : Char) : Bool :=
  let n := c.toNat
  (9 ≤ n && n ≤ 13) || n == 32 || n == 0x85 || n == 0xA0 || n == 0x1680 ||
    (0x2000 ≤ n && n ≤ 0x200A) || n == 0x2028 || n == 0x2029 || n == 0x202F ||
    n == 0x205F || n == 0x3000

/-- The list without the longest run at its end that satisfies `p`. -/
def dropEndWhile (p : Char → Bool) (cs : List Char) : List Char :=
  (cs.reverse.dropWhile p).reverse

/-- The list without the longest runs at both ends that satisfy `p`. -/
def dropBothEndsWhile (p : Char → Bool) (cs : List Char) : List Char :=
  dropEndWhile p (cs.dropWhile p)

def trim (s : String) : String :=
  String.ofList (dropBothEndsWhile isBlank s.toList)

end RepoCatalog.Text
