import RepoCatalog.Json.Decode
import RepoCatalog.Listing.Relay
import RepoCatalog.Service
import RepoCatalog.Text.Quoted
import RepoCatalog.Url.Parser

/-!
# Static sources

A plain host is not asked for its repositories. The service's settings name a base URL and the
paths of the repositories below it, and the listing is made from these.
-/
namespace RepoCatalog

open Json

/-- The settings of a service for a plain host. -/
structure StaticConfig where
  url : String
  paths : List String
deriving DecidableEq, Inhabited

def StaticConfig.decode : Decoder StaticConfig := fun v => do
  let m ← Members.ofValue "OtherConfig"
    [.of "url" Decoder.string, .of "repos" Decoder.string.array] v
  return {
    url := ← m.required "url" Decoder.string
    paths := ← m.withDefault "repos" Decoder.string.array [] }

/-- A host whose repositories are known beforehand. -/
structure StaticSource where
  /-- The name of the service. -/
  urn : String
  /-- Where the repositories are; its path ends with a slash. -/
  base : Url
  paths : List String

namespace StaticSource

variable [Url.HostNames]

def trimSlashesEnd (s : String) : String :=
  String.ofList (s.toList.reverse.dropWhile (· == '/')).reverse

def trimSlashes (s : String) : String :=
  trimSlashesEnd (String.ofList (s.toList.dropWhile (· == '/')))

def ofService (svc : Service) : Except SourceError StaticSource := do
  let config ← (StaticConfig.decode svc.config).mapError fun e =>
    SourceError.configuration s!"external service {svc.id}: {e.message}"
  let base ← (Url.parse config.url).mapError fun e =>
    SourceError.configuration s!"invalid url {Text.quoted config.url}: {e.message}"
  if base.hostText?.isNone then
    throw (.configuration s!"url {Text.quoted config.url} has no host")
  return ⟨svc.urn, base.asFolder, config.paths⟩

/-- What the name of every repository begins with. -/
def namePrefix (source : StaticSource) : String :=
  let port := source.base.port?.elim "" fun n => s!":{n}"
  source.base.hostText?.getD "" ++ port ++ trimSlashesEnd source.base.pathText

def repoAt (source : StaticSource) (path : String) : Item := do
  let path := trimSlashes path
  if path.isEmpty then
    throw (.configuration "empty repository path")
  let cloneUrl ← (source.base.join path).mapError fun e =>
    SourceError.configuration s!"invalid repository path {Text.quoted path}: {e.message}"
  let name := source.namePrefix ++ "/" ++ path
  return { Repo.blank with
    name := name
    uri := name
    spec := ⟨Kind.other.serviceType, source.base.text, path⟩
    claims := Dict.ofList [(source.urn, ⟨source.urn, cloneUrl.text⟩)] }

def items (source : StaticSource) : List Item :=
  source.paths.map source.repoAt

end StaticSource

end RepoCatalog
