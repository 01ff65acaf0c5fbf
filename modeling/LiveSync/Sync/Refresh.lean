import LiveSync.Engine.Cache

/-!
# Refreshing the cache

The cache is refreshed by a **fetch**. An ordinary fetch sends the validator
of the server's latest entry, so that the server may answer that nothing
has changed; a forced one sends none. What comes back is reconciled by
version, like everything that comes from the server, and a fetch that
fails leaves the cache as it is.

After a handshake all entities of interest are fetched at once, because
what was pushed in the meantime is lost. The fetches may end in any order;
the failures are told in the order of the entities (`Resync.failures`).
-/

namespace LiveSync

/-- **What a fetch brings.** -/
inductive FetchOutcome where
  /-- The latest state is unchanged. -/
  | notModified
  | modified (entry : Entry)
deriving DecidableEq, Repr

/-- **What a refresh did to the cache.** -/
inductive RefreshOutcome where
  | notModified
  | applied (outcome : ApplyOutcome)
deriving DecidableEq, Repr, Inhabited

namespace Cache

/-- The validator that a fetch sends. -/
def fetchValidator (c : Cache) (id : EntityId) (force : Bool) : Option Validator :=
  if force then none else (c.authoritative? id).bind Entry.validator

/-- **Reconciles what a fetch brought.** -/
def reconcile (c : Cache) (id : EntityId) (now : Instant) :
    Except Failure.Fetch FetchOutcome → Update Cache (Except Failure.Fetch RefreshOutcome)
  | .error f => .silent c (.error f)
  | .ok .notModified => (c.markNotModified id now).answer fun _ => .ok .notModified
  | .ok (.modified e) => (c.apply e).answer fun o => .ok (.applied o)

end Cache

/-- **A resynchronization**: the entities that are fetched, and what their
fetches came to. -/
structure Resync where
  /-- The connection it is made for. -/
  epoch : Nat
  /-- Each entity, and for one whose fetch has ended the failure or none. -/
  results : List (EntityId × Option (Option Failure.Fetch))
deriving DecidableEq, Repr

namespace Resync

/-- A resynchronization of which nothing has ended yet. -/
def start (epoch : Nat) (ids : List EntityId) : Resync := ⟨epoch, ids.map fun id => (id, none)⟩

/-- The fetch of an entity has ended. -/
def record (r : Resync) (id : EntityId) (failure : Option Failure.Fetch) : Resync :=
  { r with results := r.results.map fun p => if p.1 = id then (id, some failure) else p }

/-- Whether all fetches have ended. -/
def isDone (r : Resync) : Bool := r.results.all fun p => p.2.isSome

/-- **The failures**, in the order of the entities. -/
def failures (r : Resync) : List (EntityId × Failure.Fetch) :=
  r.results.filterMap fun p => p.2.join.map fun f => (p.1, f)

end Resync

end LiveSync
