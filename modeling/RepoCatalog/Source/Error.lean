/-!
# Failures of a source

What can go wrong while a code host is listed, for one repository or for the whole listing. Three
kinds are failures of credentials: an HTTP status 401 counts as unauthorized and 403 as forbidden.
-/
namespace RepoCatalog

inductive SourceError where
  | unauthorized (detail : String)
  | forbidden (detail : String)
  | accountSuspended (detail : String)
  | http (status : Nat) (body : String)
  | network (detail : String)
  | configuration (detail : String)
  | unsupported (kind : String)
  | cancelled
deriving DecidableEq, Inhabited

namespace SourceError

def message : SourceError → String
  | .unauthorized detail => s!"unauthorized: {detail}"
  | .forbidden detail => s!"forbidden: {detail}"
  | .accountSuspended detail => s!"account suspended: {detail}"
  | .http status body => s!"HTTP error {status}: {body}"
  | .network detail => s!"network error: {detail}"
  | .configuration detail => s!"invalid configuration: {detail}"
  | .unsupported kind => s!"no source available for external service kind {kind}"
  | .cancelled => "listing cancelled"

def isUnauthorized : SourceError → Bool
  | .unauthorized _ => true
  | .http status _ => status == 401
  | _ => false

def isForbidden : SourceError → Bool
  | .forbidden _ => true
  | .http status _ => status == 403
  | _ => false

def isAccountSuspended : SourceError → Bool
  | .accountSuspended _ => true
  | _ => false

end SourceError

end RepoCatalog
