import RepoCatalog.Dict
import RepoCatalog.EnvFile.Error
import RepoCatalog.Text.Split

/-!
# Folders of environment files
-/
namespace RepoCatalog.EnvFile

/-- A folder, with what it holds by name. -/
structure Folder where
  path : String
  files : Dict String String
  folders : List String

namespace Folder

def pathOf (f : Folder) (name : String) : String :=
  f.path ++ "/" ++ name

/-- The text of a file in the folder, if there is such a file. A name with slashes leads through
folders. -/
def read? (f : Folder) (name : String) : Except Error (Option String) :=
  match (Text.splitAll '/' name.toList).map String.ofList with
  | [] => .ok none
  | first :: further =>
    match f.files.get? first with
    | some text => if further.isEmpty then .ok (some text) else .error .notFolder
    | none =>
      if f.folders.contains first ∧ further.all (fun part => part == "" || part == ".") then
        .error .isFolder
      else .ok none

end Folder

end RepoCatalog.EnvFile
