import RepoCatalog.Dict
import RepoCatalog.EnvFile.Value

/-!
# Entries of an environment file

A line is blank, a comment, or an entry `NAME=value`, with the word `export` before the name if one
likes. A name that a value mentions is looked up in the environment first, then among the earlier
entries of the same file.
-/
namespace RepoCatalog.EnvFile

abbrev Variables := Dict String String

/-- A place in a line: what follows, and how many bytes come before. -/
structure Cursor where
  rest : List Char
  position : Nat

namespace Cursor

/-- Passes over the characters that satisfy `p`. -/
def skip (c : Cursor) (p : Char → Bool) : Cursor :=
  ⟨c.rest.dropWhile p, c.position + byteSize (c.rest.takeWhile p)⟩

def skipBlanks (c : Cursor) : Cursor :=
  c.skip Text.isBlank

/-- Whether a comment or nothing follows. -/
def isAtEnd (c : Cursor) : Bool :=
  c.rest.isEmpty || c.rest.head? == some '#'

def name (c : Cursor) : Except Nat (List Char × Cursor) :=
  let isInside (d : Char) : Bool := Text.Ascii.isAlphanumeric d || d == '_' || d == '.'
  match c.rest with
  | d :: _ =>
    if Text.Ascii.isLetter d || d == '_' then .ok (c.rest.takeWhile isInside, c.skip isInside)
    else .error c.position
  | [] => .error c.position

def equalsSign (c : Cursor) : Except Nat Cursor :=
  match c.rest with
  | '=' :: rest => .ok ⟨rest, c.position + 1⟩
  | _ => .error c.position

/-- Reads a name with the equals sign after it, and perhaps `export` before it. -/
def assignment (c : Cursor) : Except Nat (List Char × Cursor) := do
  let (key, c) ← c.name
  match c.skipBlanks.equalsSign with
  | .ok c => return (key, c)
  | .error position =>
    if key = "export".toList then
      let (key, c) ← c.skipBlanks.name
      return (key, ← c.skipBlanks.equalsSign)
    else throw position

end Cursor

def valueOfName (environment known : Variables) (name : List Char) : List Char :=
  let name := String.ofList name
  (((environment.get? name) <|> (known.get? name)).getD "").toList

def readLine (environment known : Variables) (line : List Char) :
    Except Error (Option (String × String)) :=
  let start : Cursor := (Cursor.mk (Text.dropEndWhile Text.isBlank line) 0).skipBlanks
  if start.isAtEnd then .ok none
  else match start.assignment with
    | .error position => .error (.badLine (String.ofList line) position)
    | .ok (key, c) =>
      let input := c.skipBlanks
      if input.isAtEnd then .ok (some (String.ofList key, ""))
      else
        match readValue (valueOfName environment known) input.rest 0 [] (.text false) input.rest with
        | .ok value => .ok (some (String.ofList key, String.ofList value))
        | .error index => .error (.badLine (String.ofList input.rest) index)

/-- Reads lines into entries; `known` holds the entries before them. -/
def readLines (environment known : Variables) (failure : Option Error) :
    List (List Char) → Except Error (List (String × String))
  | [] =>
    match failure with
    | none => .ok []
    | some e => .error e
  | line :: rest => do
    match ← readLine environment known line with
    | none => readLines environment known failure rest
    | some entry =>
      return entry :: (← readLines environment (known.insert entry.1 entry.2) failure rest)

def read (environment : Variables) (text : String) : Except Error (List (String × String)) :=
  let (lines, failure) := joinLines [] .closed (rawLines text.toList)
  readLines environment ∅ failure lines

end RepoCatalog.EnvFile
