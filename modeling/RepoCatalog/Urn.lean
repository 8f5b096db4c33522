import RepoCatalog.Kind
import RepoCatalog.Text.Decimal
import RepoCatalog.Text.Split

/-!
# Names of services

A service is named `extsvc:<kind>:<id>` wherever a repository lists the services that claim it, the
kind in lower case. Reading a name takes any kind without a colon, and an id with an optional sign.
-/
namespace RepoCatalog.Urn

def leastId : Int := -2147483648

def mostId : Int := 2147483647

def format (kind : Kind) (id : Int) : String :=
  "extsvc:" ++ Text.Ascii.lower kind.name ++ ":" ++ toString id

/-- The kind and the id that a name gives. -/
def parse? (s : String) : Option (String × Int) := do
  let (scheme, rest) ← Text.splitFirst? ':' s.toList
  guard (scheme = "extsvc".toList)
  let (kind, id) ← Text.splitFirst? ':' rest
  let id ← Text.Decimal.signed? leastId mostId (String.ofList id)
  return (String.ofList kind, id)

def serviceId? (s : String) : Option Int :=
  (parse? s).map (·.2)

end RepoCatalog.Urn
