import RepoCatalog.Text.Ascii
import RepoCatalog.Text.CaseTable

/-!
# Lower case

Full lower case of a text. A character becomes its simple lower case, with two exceptions: `İ`
becomes `i` with a dot above, and `Σ` becomes `ς` at the end of a word and `σ` elsewhere. A word
ends after the `Σ` if a cased letter stands before it and none after it, looking past characters
that case ignores.
-/
namespace RepoCatalog.Text

def lowerSimple (c : Char) : Char :=
  if c.toNat < 128 then Ascii.lowerChar c
  else match lowerRuns.findSome? fun r => r.apply? c.toNat with
    | some n => Char.ofNat n
    | none => c

/-- Whether a cased letter comes first, looking past characters that case ignores. -/
def leadsWithCased (cs : List Char) : Bool :=
  match cs.dropWhile (inRanges caseIgnorableRanges) with
  | [] => false
  | c :: _ => inRanges casedRanges c

/-- The lower case of the rest of a text, whose part before, read backwards, is `before`. -/
def lowerAfter (before : List Char) : List Char → List Char
  | [] => []
  | c :: cs =>
    let rest := lowerAfter (c :: before) cs
    if c = 'Σ' then
      (if leadsWithCased before && !leadsWithCased cs then 'ς' else 'σ') :: rest
    else if c = 'İ' then 'i' :: Char.ofNat 0x307 :: rest
    else lowerSimple c :: rest

def lowerCase (s : String) : String :=
  String.ofList (lowerAfter [] s.toList)

end RepoCatalog.Text
