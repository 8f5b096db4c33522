import RepoCatalog.Sync.Batch
import RepoCatalog.Sync.Stream

/-!
# Passes over services
-/
namespace RepoCatalog.Syncer

open Time (Duration)

/-- A pass that asks for a wider channel than there is gets no further than to its source. -/
def unopened (y : Syncer) (svc : Service) : Pass Unit := do
  if y.isStreaming then
    let _ ← y.allowsPrivate svc
  else
    let counter ← y.counterFor svc
    let _ ← y.knownFor counter
  let _ ← y.itemsOf svc
  Effect.breakOff .channelTooWide

def syncService (y : Syncer) (id : Int) (least : Duration) : Pass Unit := do
  let svc ← Effect.store "fetching external service" .getService (Store.getService id)
  if Relay.widest < y.settings.channelCapacity then y.unopened svc
  else if y.isStreaming then y.stream svc least
  else y.batch svc least

/-- Publishes all live repositories as unmodified, so that the audience knows where it starts. -/
def publishStored (y : Syncer) : Pass Unit := do
  if y.settings.cloudMode ∨ y.audience = .nobody then return
  let repos ← Effect.store "listing stored repos" .listRepos (Store.listRepos .all)
  y.publish { Diff.empty with unmodified := repos }.sort

end RepoCatalog.Syncer
