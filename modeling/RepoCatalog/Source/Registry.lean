import RepoCatalog.Dict
import RepoCatalog.Source.Static

/-!
# Registry of sources

Tells how the services of a kind are listed. Kinds are kept in the order of their names.
-/
namespace RepoCatalog

/-- How the services of one kind are listed: the items, or why there is no source. -/
abbrev SourceFactory := Service → Except SourceError (List Item)

/-- The kinds that can be listed, each with its factory. -/
structure Registry where
  factories : Dict String (Kind × SourceFactory)

namespace Registry

def empty : Registry := ⟨∅⟩

def register (r : Registry) (kind : Kind) (factory : SourceFactory) : Registry :=
  ⟨r.factories.insert kind.name (kind, factory)⟩

/-- The registry that knows plain hosts. -/
def standard [Url.HostNames] : Registry :=
  empty.register .other fun svc => (StaticSource.ofService svc).map StaticSource.items

def isRegistered (r : Registry) (kind : Kind) : Bool :=
  (r.factories.get? kind.name).isSome

def kinds (r : Registry) : List Kind :=
  r.factories.entries.map fun e => e.2.1

/-- What the source of a service sends. -/
def items (r : Registry) : SourceFactory := fun svc =>
  match r.factories.get? svc.kind.name with
  | some (_, factory) => factory svc
  | none => .error (.unsupported svc.kind.name)

end Registry

end RepoCatalog
