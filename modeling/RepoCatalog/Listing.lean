import RepoCatalog.Listing.Relay

/-!
# Listings

A listing is read to its end before anything is done with it. A hook sees each repository as it
arrives and may refuse it, which stops the reading; failures of the source are collected and stop
nothing.
-/
namespace RepoCatalog

/-- What a source listed, each part in the order of the source. -/
structure Listing where
  repos : List Repo
  errors : List SourceError
deriving DecidableEq, Inhabited

namespace Listing

def empty : Listing := ⟨[], []⟩

/-- What is told of each repository when it arrives; a failure stops the reading. -/
abbrev Hook (σ ε : Type) := Repo → ExceptT ε (StateM σ) Unit

/-- A reading in progress: what the hook acts on, what has arrived, and why the hook stopped it. -/
structure Progress (σ ε : Type) where
  state : σ
  listing : Listing
  failure : Option ε

def Progress.take {σ ε : Type} (hook : Hook σ ε) (p : Progress σ ε) : Item → Progress σ ε × Bool
  | .ok repo =>
    match hook repo p.state with
    | (.ok _, s) =>
      ({ p with state := s, listing := { p.listing with repos := p.listing.repos ++ [repo] } }, true)
    | (.error e, s) => ({ p with state := s, failure := some e }, false)
  | .error e => ({ p with listing := { p.listing with errors := p.listing.errors ++ [e] } }, true)

/-- What a reading answers that came to its end, and in which state. A reading that was cancelled
answers `cancelled`. -/
def answer {σ ε : Type} (cancelled : ε) (relay : Relay (Progress σ ε)) : Except ε Listing × σ :=
  match relay.ending?, relay.state.failure with
  | some .cancelled, _ => (.error cancelled, relay.state.state)
  | _, some e => (.error e, relay.state.state)
  | _, none => (.ok relay.state.listing, relay.state.state)

/-- Who reads a listing. Nothing more is read once `isCancelled` says so. -/
def collector {σ ε : Type} (hook : Hook σ ε) (isCancelled : σ → Bool) : Reader (Progress σ ε) :=
  ⟨Progress.take hook, fun p => isCancelled p.state⟩

/-- Reads everything that a source sends through an open channel of the given capacity. -/
def collect {σ ε : Type} (hook : Hook σ ε) (isCancelled : σ → Bool) (cancelled : ε)
    (capacity : Nat) (items : List Item) : ExceptT ε (StateM σ) Listing := fun s =>
  answer cancelled
    ((Relay.start capacity items ⟨s, empty, none⟩).run (collector hook isCancelled))

/-- Opens a channel of the given capacity and reads everything that a source sends. No channel is
wider than the widest. -/
def collect? {σ ε : Type} (hook : Hook σ ε) (isCancelled : σ → Bool) (cancelled : ε)
    (capacity : Nat) (items : List Item) (s : σ) : Option (Except ε Listing × σ) :=
  if capacity ≤ Relay.widest then some (collect hook isCancelled cancelled capacity items s)
  else none

end Listing

end RepoCatalog
