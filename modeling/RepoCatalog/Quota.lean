/-!
# Quotas

Users may add repositories through services of their own, up to a ceiling for each user and one for
the site. A counter holds back a single listing: it refuses to go past its limit.
-/
namespace RepoCatalog

inductive QuotaError where
  | siteLimitReached (limit : Nat)
  | userLimitExceeded (limit : Nat)
  | insertRejected (site siteLimit user userLimit : Nat)
deriving DecidableEq, Inhabited

def QuotaError.message : QuotaError → String
  | .siteLimitReached limit => s!"reached maximum allowed user added repos: {limit}"
  | .userLimitExceeded limit => s!"per user repo count has exceeded allowed limit: {limit}"
  | .insertRejected site siteLimit user userLimit =>
    s!"reached maximum allowed user added repos: site:{site}/{siteLimit}, user:{user}/{userLimit}"

structure Quota where
  perUser : Nat
  perSite : Nat
deriving DecidableEq, Inhabited

namespace Quota

/-- Refuses a whole pass once the site has reached its ceiling. -/
def checkSite (q : Quota) (site : Nat) : Except QuotaError Unit :=
  if q.perSite ≤ site then .error (.siteLimitReached q.perSite) else .ok ()

/-- Refuses one more repository once either ceiling is reached. -/
def checkInsert (q : Quota) (site user : Nat) : Except QuotaError Unit :=
  if q.perSite ≤ site ∨ q.perUser ≤ user then
    .error (.insertRejected site q.perSite user q.perUser)
  else .ok ()

end Quota

/-- A count that never passes its limit. -/
structure Counter where
  count : Nat
  limit : Nat
deriving DecidableEq, Inhabited

namespace Counter

def upTo (limit : Nat) : Counter := ⟨0, limit⟩

def increment (c : Counter) : Except QuotaError Counter :=
  if c.count < c.limit then .ok { c with count := c.count + 1 }
  else .error (.userLimitExceeded c.limit)

end Counter

end RepoCatalog
