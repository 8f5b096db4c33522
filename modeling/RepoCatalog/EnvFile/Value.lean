import RepoCatalog.EnvFile.Lines
import RepoCatalog.Text.WordTable

/-!
# Values in an environment file

A value may be quoted in whole or in part. Single quotes keep what they hold. Outside of them a
backslash escapes a quote, a backslash, `$` or a blank and makes a line end of `n`, and `$NAME` or
`${NAME}` stands for an earlier value. A blank outside of quotes ends the value; only a comment may
follow.
-/
namespace RepoCatalog.EnvFile

/-- Where in a value the reader is. `weak` tells whether a double quote is open. -/
inductive Place where
  | text (weak : Bool)
  | escaped (weak : Bool)
  | strong
  /-- Inside `$NAME`. -/
  | name (weak : Bool) (soFar : List Char)
  /-- Inside braces after `$`. -/
  | bracedName (weak : Bool) (soFar : List Char)
  | ended
deriving DecidableEq, Inhabited

/-- A step of the reader: what is added to the value, and where the reader is then. -/
inductive ValueStep where
  | go (added : List Char) (place : Place)
  | stop
  | fail

/-- Reads one character. `valueOf` gives what a name stands for. -/
def valueStep (valueOf : List Char → List Char) (c : Char) : Place → ValueStep
  | .ended => if c = ' ' ∨ c = '\t' then .go [] .ended else if c = '#' then .stop else .fail
  | .escaped weak =>
    if ['\\', '\'', '"', '$', ' '].contains c then .go [c] (.text weak)
    else if c = 'n' then .go ['\n'] (.text weak)
    else .fail
  | .strong => if c = '\'' then .go [] (.text false) else .go [c] .strong
  | .name weak soFar =>
    if Text.isWordChar c then .go [] (.name weak (soFar ++ [c]))
    else if c = '\x7b' ∧ soFar = [] then .go [] (.bracedName weak [])
    else if c = '$' then .go (valueOf soFar) (.name weak [])
    else .go (valueOf soFar ++ [c]) (.text weak)
  | .bracedName weak soFar =>
    if c = '\x7d' then .go (valueOf soFar) (.text weak)
    else .go [] (.bracedName weak (soFar ++ [c]))
  | .text weak =>
    if c = '$' then .go [] (.name weak [])
    else if c = '\\' then .go [] (.escaped weak)
    else if c = '"' then .go [] (.text !weak)
    else if weak then .go [c] (.text true)
    else if c = '\'' then .go [] .strong
    else if c = ' ' ∨ c = '\t' then .go [] .ended
    else .go [c] (.text false)

/-- The value, if the reader may stop where it is. -/
def valueAtEnd? (valueOf : List Char → List Char) (value : List Char) : Place → Option (List Char)
  | .text true | .escaped true | .name true _ | .bracedName _ _ | .strong => none
  | .name false soFar => some (value ++ valueOf soFar)
  | .text false | .escaped false | .ended => some value

/-- Reads a value from a given place on, or tells at which character it has no meaning. -/
def readValue (valueOf : List Char → List Char) (whole : List Char) (index : Nat)
    (value : List Char) (place : Place) : List Char → Except Nat (List Char)
  | [] => atEnd place
  | c :: cs =>
    match valueStep valueOf c place with
    | .go added place => readValue valueOf whole (index + 1) (value ++ added) place cs
    | .stop => atEnd place
    | .fail => .error index
where
  /-- What the end of the value means. -/
  atEnd (place : Place) : Except Nat (List Char) :=
    match valueAtEnd? valueOf value place with
    | some value => .ok value
    | none => .error (byteSize whole - 1)

end RepoCatalog.EnvFile
