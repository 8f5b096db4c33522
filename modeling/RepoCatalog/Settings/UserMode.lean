import RepoCatalog.Text.Ascii
import RepoCatalog.Text.Blank

/-!
# What users may add
-/
namespace RepoCatalog

/-- Who may add services, and what those may hold. -/
inductive UserMode where
  | disabled
  /-- Public repositories only. -/
  | publicOnly
  | all
deriving DecidableEq, Inhabited

namespace UserMode

def modes : List UserMode :=
  [.disabled, .publicOnly, .all]

def name : UserMode → String
  | .disabled => "disabled"
  | .publicOnly => "public"
  | .all => "all"

/-- The text by which a mode is looked up: without blanks around it and in lower case. -/
def key (s : String) : String :=
  Text.Ascii.lower (Text.trim s)

/-- The mode that a text names, in any case and with any blanks around it. -/
def ofText? (s : String) : Option UserMode :=
  modes.find? fun m => m.name == key s

end UserMode

end RepoCatalog
