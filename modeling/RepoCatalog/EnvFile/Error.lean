/-!
# What is wrong with an environment file
-/
namespace RepoCatalog.EnvFile

/-- Why an environment file cannot be read. -/
inductive Error where
  /-- A line has no meaning, from a certain place on. -/
  | badLine (line : String) (position : Nat)
  | isFolder
  /-- The path leads through something that is no folder. -/
  | notFolder
deriving DecidableEq, Inhabited

def Error.message : Error → String
  | .badLine line position => s!"Error parsing line: '{line}', error at line index: {position}"
  | .isFolder => "Is a directory (os error 21)"
  | .notFolder => "Not a directory (os error 20)"

end RepoCatalog.EnvFile
