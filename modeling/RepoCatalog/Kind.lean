import RepoCatalog.Text.Ascii

/-!
# Kinds of services

The code hosts that a service can connect to. A kind has three names: its own, the one written into
records, and the type that the repositories of such a host carry in their identity.
-/
namespace RepoCatalog

inductive Kind where
  | gitHub
  | gitLab
  | bitbucketCloud
  | other
deriving DecidableEq, Inhabited

namespace Kind

def all : List Kind :=
  [.gitHub, .gitLab, .bitbucketCloud, .other]

def name : Kind → String
  | .gitHub => "GITHUB"
  | .gitLab => "GITLAB"
  | .bitbucketCloud => "BITBUCKETCLOUD"
  | .other => "OTHER"

def recordName : Kind → String
  | .gitHub => "GIT_HUB"
  | .gitLab => "GIT_LAB"
  | .bitbucketCloud => "BITBUCKET_CLOUD"
  | .other => "OTHER"

/-- The service type in the identity of a repository of such a host. -/
def serviceType : Kind → String
  | .gitHub => "github"
  | .gitLab => "gitlab"
  | .bitbucketCloud => "bitbucketCloud"
  | .other => "other"

/-- The kind of this name, in any case. -/
def ofName? (s : String) : Option Kind :=
  all.find? fun k => k.name == Text.Ascii.upper s

/-- The kind whose repositories carry this service type, in any case. -/
def ofServiceType? (s : String) : Option Kind :=
  all.find? fun k => Text.Ascii.eqIgnoringCase k.serviceType s

def unknownMessage (s : String) : String :=
  s!"unknown external service kind {Text.Ascii.upper s}"

theorem ofName?_name (k : Kind) : ofName? k.name = some k := by
  cases k <;> decide +kernel

end Kind

end RepoCatalog
