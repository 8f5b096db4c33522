import RepoCatalog.Quota
import RepoCatalog.Settings.Basic
import RepoCatalog.Source.Registry
import RepoCatalog.Store.Services
import RepoCatalog.Sync.World

/-!
# What passes have in common

A syncer is set up once and makes passes over services: settings, the clock, the sources, and who
listens to differences.
-/
namespace RepoCatalog

open Time (Instant Duration)

/-- Who listens to the differences that passes publish. -/
inductive Audience where
  /-- Nobody can listen. -/
  | nobody
  /-- Those who listened have gone. -/
  | gone
  | listening
deriving DecidableEq, Inhabited

/-- How passes are made. -/
structure Syncer where
  settings : SyncSettings
  /-- Whether passes work repository by repository. -/
  isStreaming : Bool
  audience : Audience
  /-- What the clock of the pass shows. -/
  now : Instant
  /-- What the source of a service sends. -/
  sourceOf : SourceFactory

namespace Syncer

def quota (y : Syncer) : Quota :=
  ⟨y.settings.userReposMaxPerUser, y.settings.userReposMaxPerSite⟩

/-- Tells the audience of a difference. One that comes up once the pass has been told to stop may
be heard or not, as chance will have it; here it is not. -/
def publish (y : Syncer) (d : Diff) : Pass Unit := fun w =>
  if y.audience = .listening ∧ !w.isCancelled then
    (.ok (), { w with published := w.published ++ [d] })
  else (.ok (), w)

def checkQuota (r : Except QuotaError Unit) : Pass Unit :=
  (Effect.ofExcept r).mapError .quota

def itemsOf (y : Syncer) (svc : Service) : Pass (List Item) :=
  (Effect.ofExcept (y.sourceOf svc)).mapError (.source svc.displayName)

/-- Whether the service may hold private repositories. Services of the site may, and so may those
of users if the settings say so for all, or the user for the own. -/
def allowsPrivate (y : Syncer) (svc : Service) : Pass Bool :=
  match svc.owner? with
  | none => pure true
  | some user =>
    if y.settings.userMode = .all then pure true
    else Effect.store "checking private code permission" .allowsPrivateCode
      (Store.allowsPrivateCode user)

/-- Records that the service was looked at now and is due again after `interval`. -/
def recordVisit (y : Syncer) (svc : Service) (interval : Duration) : Pass Unit :=
  match y.now.add? interval with
  | none => Effect.breakOff .timeAfterEnd
  | some next => do
    let visited := { svc with lastSyncAt := some y.now, nextSyncAt := some next }
    let _ ← Effect.store "updating external service" .putService (Store.putService visited)

end Syncer

end RepoCatalog
