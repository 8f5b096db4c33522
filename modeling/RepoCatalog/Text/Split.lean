/-!
# Splitting texts
-/
namespace RepoCatalog.Text

/-- The parts between occurrences of `sep`; there is always at least one. -/
def splitAll (sep : Char) (cs : List Char) : List (List Char) :=
  cs.foldr (fun c parts =>
    if c = sep then [] :: parts
    else match parts with
      | [] => [[c]]
      | part :: rest => (c :: part) :: rest) [[]]

/-- What stands before the first occurrence of `sep`, and what after it. -/
def splitFirst? (sep : Char) (cs : List Char) : Option (List Char × List Char) :=
  match cs.dropWhile (· != sep) with
  | [] => none
  | _ :: rest => some (cs.takeWhile (· != sep), rest)

end RepoCatalog.Text
