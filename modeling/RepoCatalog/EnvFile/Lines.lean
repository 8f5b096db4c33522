import RepoCatalog.EnvFile.Error
import RepoCatalog.Text.Blank

/-!
# Lines of an environment file

A line goes on over a line end that is quoted or escaped. A comment begins with `#` after a single
blank, or as the first character of a line that is not blank, and takes the rest of the line.
-/
namespace RepoCatalog.EnvFile

/-- What the characters so far leave open. -/
inductive Openness where
  | closed
  /-- After a blank, where a comment may begin. -/
  | blank
  | escape
  | weak
  | weakEscape
  | strong
  | strongEscape
deriving DecidableEq, Inhabited

/-- What a character that begins something opens. -/
def Openness.opening (c : Char) : Openness :=
  if c = '\\' then .escape
  else if c = '"' then .weak
  else if c = '\'' then .strong
  else .closed

/-- What is open after one more character, unless that begins a comment. -/
def Openness.next? (s : Openness) (c : Char) : Option Openness :=
  match s with
  | .closed =>
    some (if Text.isBlank c ∧ c ≠ '\n' ∧ c ≠ '\r' then .blank else opening c)
  | .blank => if c = '#' then none else some (opening c)
  | .escape => some .closed
  | .weak => some (if c = '\\' then .weakEscape else if c = '"' then .closed else .weak)
  | .weakEscape => some .weak
  | .strong => some (if c = '\\' then .strongEscape else if c = '\'' then .closed else .strong)
  | .strongEscape => some .strong

/-- What stands before a comment, or what is open at the end. -/
def scan (s : Openness) (before : List Char) : List Char → List Char ⊕ Openness
  | [] => .inr s
  | c :: cs =>
    match s.next? c with
    | none => .inl before
    | some s => scan s (before ++ [c]) cs

def rawLines (cs : List Char) : List (List Char) :=
  cs.foldr (fun c lines =>
    if c = '\n' then [c] :: lines
    else match lines with
      | line :: rest => (c :: line) :: rest
      | [] => [[c]]) []

def stripLineEnd (cs : List Char) : List Char :=
  match cs.reverse with
  | '\n' :: '\r' :: rest => rest.reverse
  | '\n' :: rest => rest.reverse
  | _ => cs

def byteSize (cs : List Char) : Nat :=
  cs.foldl (fun n c => n + c.utf8Size) 0

/-- Puts lines together until nothing is open. Something that is still open at the end of the text
is an error, which comes after all lines before it. -/
def joinLines (held : List Char) (s : Openness) :
    List (List Char) → List (List Char) × Option Error
  | [] =>
    if s = .closed then ([], none)
    else ([], some (.badLine (String.ofList held) (byteSize held)))
  | line :: rest =>
    let whole := held ++ line
    let before (kept : List Char) : List (List Char) × Option Error :=
      let (lines, failure) := joinLines [] .closed rest
      (kept :: lines, failure)
    if (whole.dropWhile Text.isBlank).head? = some '#' then joinLines [] .closed rest
    else match scan s held line with
      | .inl kept => before kept
      | .inr .closed => before (stripLineEnd whole)
      | .inr s => joinLines whole s rest

end RepoCatalog.EnvFile
