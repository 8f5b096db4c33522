import RepoCatalog.Quota
import RepoCatalog.Source.Error
import RepoCatalog.Store.Error

/-!
# Failures of a pass

A pass fails with one error, which may bundle several. Failures of credentials are found wherever
they stand inside a bundle, so that a caller can be told of them by their own name.
-/
namespace RepoCatalog

inductive SyncError where
  | unauthorized
  | forbidden
  | accountSuspended
  | source (service : String) (error : SourceError)
  | store (context : String) (error : StoreError)
  | quota (error : QuotaError)
  | cancelled
  | multi (errors : List SyncError)
deriving Inhabited

namespace SyncError

/-- The first line of a bundle of `n` errors. -/
def bundleHead (n : Nat) : String :=
  let noun := if n == 1 then "error" else "errors"
  s!"{n} {noun} occurred:"

mutual

def message : SyncError → String
  | .unauthorized => "bad credentials"
  | .forbidden => "forbidden"
  | .accountSuspended => "account suspended"
  | .source service error => s!"fetching from code host {service}: {error.message}"
  | .store context error => s!"{context}: {error.message}"
  | .quota error => error.message
  | .cancelled => "reconciliation cancelled"
  | .multi errors => bundleHead errors.length ++ bundleItems errors

def bundleItems : List SyncError → String
  | [] => ""
  | e :: es => "\n\t* " ++ message e ++ bundleItems es

end

mutual

/-- Whether some error in the tree satisfies `p`; bundles are looked into, not tested. -/
def anyLeaf (p : SyncError → Bool) : SyncError → Bool
  | .multi errors => anyLeafOf p errors
  | e => p e

def anyLeafOf (p : SyncError → Bool) : List SyncError → Bool
  | [] => false
  | e :: es => anyLeaf p e || anyLeafOf p es

end

def isUnauthorized : SyncError → Bool :=
  anyLeaf fun
    | .unauthorized => true
    | .source _ error => error.isUnauthorized
    | _ => false

def isForbidden : SyncError → Bool :=
  anyLeaf fun
    | .forbidden => true
    | .source _ error => error.isForbidden
    | _ => false

def isAccountSuspended : SyncError → Bool :=
  anyLeaf fun
    | .accountSuspended => true
    | .source _ error => error.isAccountSuspended
    | _ => false

def isQuota : SyncError → Bool :=
  anyLeaf fun
    | .quota _ => true
    | _ => false

/-- The failure of credentials that an error amounts to, the gravest first. -/
def credentialFailure? (e : SyncError) : Option SyncError :=
  if e.isUnauthorized then some .unauthorized
  else if e.isForbidden then some .forbidden
  else if e.isAccountSuspended then some .accountSuspended
  else none

/-- Success if nothing was collected, and else the bundle. -/
def bundle : List SyncError → Except SyncError Unit
  | [] => .ok ()
  | errors => .error (.multi errors)

/-- A failure of the store outside any step that has a name. -/
def ofStore (e : StoreError) : SyncError :=
  .store "store" e

end SyncError

end RepoCatalog
