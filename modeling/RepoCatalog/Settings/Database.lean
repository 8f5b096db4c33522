import RepoCatalog.Json.Printer
import RepoCatalog.Settings.Record
import RepoCatalog.Url.Parser

/-!
# The database address in the settings

The address must not be empty. It may hold a password, which is replaced before settings are shown.
-/
namespace RepoCatalog

inductive DatabaseAddressError where
  | empty
deriving DecidableEq, Inhabited

def DatabaseAddressError.message : DatabaseAddressError → String
  | .empty => "Invalid database configuration: Database URL cannot be empty"

namespace Settings

variable [Url.HostNames]

def checkDatabase (s : Settings) : Except DatabaseAddressError Unit :=
  if s.databaseUrl.isEmpty then .error .empty else .ok ()

def passwordMask : String :=
  "[REDACTED]"

/-- The URL in its normal form with its password masked. A text without a password that can be
masked is kept as it is. -/
def maskPassword (address : String) : String :=
  match Url.parse address with
  | .ok url =>
    match url.password?, url.withPassword? passwordMask with
    | some _, some masked => masked.text
    | _, _ => address
  | .error _ => address

def redacted (s : Settings) : Settings :=
  { s with databaseUrl := maskPassword s.databaseUrl }

def redactedText (s : Settings) : String :=
  s.redacted.encode.pretty

end Settings

end RepoCatalog
