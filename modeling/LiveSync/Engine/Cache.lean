import LiveSync.Failure
import LiveSync.Table
import LiveSync.Update

/-!
# The cache

The cache holds, for each entity it has heard of, the entry that is shown
and the latest one that came from the server. The two differ only while
the shown one is a guess.

**Reconciliation** is by version: what comes from the server replaces what
is there exactly when it is newer (`Cache.apply`). A guess stands at the
version it is based on, so the server's next state replaces it too.

A guess is written by `Cache.beginOptimistic`, which hands out the entry it
replaces. `Cache.rollback` puts that entry back while the guess is still
there, and `Cache.revert` falls back to the server's entry. A slot is
**pending** while a command was dispatched and the server's answer to it
has not shown up in the cache.
-/

namespace LiveSync

/-- **What the cache knows of an entity.** -/
structure Slot where
  /-- The entry that is shown. -/
  current : Entry
  /-- The latest entry that came from the server. -/
  authoritative : Entry
  /-- Whether the outcome of a command is awaited. -/
  pending : Bool
deriving DecidableEq, Repr

/-- Whether the entry that is shown is a guess that rests on a version. -/
def Slot.guessesOn (s : Slot) (base : Version) : Bool :=
  s.current.isOptimistic && s.current.baseVersion == base

/-- **What became of a state that came from the server.** -/
inductive ApplyOutcome where
  /-- It is the first of its entity. -/
  | created
  /-- It replaced one that rests on an older version. -/
  | replaced (previous : Version)
  /-- It is no newer than what is there. -/
  | stale (current : Version)
deriving DecidableEq, Repr, Inhabited

/-- Whether the state was taken up. -/
def ApplyOutcome.isApplied : ApplyOutcome → Bool
  | .created | .replaced _ => true
  | .stale _ => false

/-- **The cache.** -/
structure Cache where
  slots : Table EntityId Slot
deriving DecidableEq, Repr

namespace Cache

/-- A cache that has heard of nothing. -/
def empty : Cache := ⟨.empty⟩

instance : Inhabited Cache := ⟨empty⟩

/-! ### Reading -/

/-- What the cache knows of an entity. -/
def slot? (c : Cache) (id : EntityId) : Option Slot := c.slots.get? id

/-- The entry that is shown. -/
def current? (c : Cache) (id : EntityId) : Option Entry := (c.slot? id).map Slot.current

/-- The latest entry that came from the server. -/
def authoritative? (c : Cache) (id : EntityId) : Option Entry :=
  (c.slot? id).map Slot.authoritative

/-- The version that is shown. -/
def version? (c : Cache) (id : EntityId) : Option Version := (c.current? id).map Entry.version

/-- Whether the outcome of a command is awaited. -/
def isPending (c : Cache) (id : EntityId) : Bool := (c.slot? id).any Slot.pending

/-- The entities the cache has heard of. -/
def ids (c : Cache) : List EntityId := c.slots.keys

/-! ### Writing -/

/-- Writes what the cache knows of an entity. -/
def write (c : Cache) (id : EntityId) (s : Slot) : Cache := ⟨c.slots.insert id s⟩

/-- The event that announces a new entry. -/
def updated (e : Entry) : Event := .entityUpdated e.entityId e.version e.provenance

/-- **Reconciles a state that came from the server.** -/
def apply (c : Cache) (e : Entry) : Update Cache ApplyOutcome :=
  match c.slot? e.entityId with
  | none => ⟨c.write e.entityId ⟨e, e, false⟩, .created, [updated e]⟩
  | some s =>
    if s.current.baseVersion < e.version then
      ⟨c.write e.entityId ⟨e, e, false⟩, .replaced s.current.baseVersion, [updated e]⟩
    else .silent c (.stale s.current.baseVersion)

/-- Reconciles a pushed state. -/
def applyPush (c : Cache) (id : EntityId) (version : Version) (payload : Json) (now : Instant) :
    Update Cache ApplyOutcome :=
  c.apply (.push id version payload now)

/-- The server says that the latest state is unchanged: its time moves, and
nothing else. The answer is whether there is such a state. -/
def markNotModified (c : Cache) (id : EntityId) (now : Instant) : Update Cache Bool :=
  match c.slot? id with
  | none => .silent c false
  | some s =>
    let current := if s.current.isOptimistic then s.current
      else { s.current with receivedAt := now }
    .silent
      (c.write id ⟨current, { s.authoritative with receivedAt := now }, s.pending⟩) true

/-- **Writes a guess**: an edit of what is shown. The answer is the entry it
replaces, which is needed to take the guess back. -/
def beginOptimistic (c : Cache) (id : EntityId) (edit : Json → Json) (now : Instant) :
    Update Cache (Except Failure.Command Entry) :=
  match c.slot? id with
  | none => .silent c (.error (.notLoaded id))
  | some s =>
    let guess := s.current.optimistic (edit s.current.payload) now
    ⟨c.write id ⟨guess, s.authoritative, true⟩, .ok s.current, [updated guess]⟩

/-- **Takes a guess back** by putting back the entry it replaced. If the
guess is no longer there nothing is put back. The answer is whether it
was; in either case nothing is awaited any more. -/
def rollback (c : Cache) (previous : Entry) : Update Cache Bool :=
  match c.slot? previous.entityId with
  | none => .silent c false
  | some s =>
    if s.guessesOn previous.baseVersion then
      let authoritative := if previous.isOptimistic then s.authoritative else previous
      ⟨c.write previous.entityId ⟨previous, authoritative, false⟩, true,
        [.entityRolledBack previous.entityId previous.version]⟩
    else .silent (c.write previous.entityId { s with pending := false }) false

/-- **Falls back to the server's entry**, if the entry that is shown is a
guess that rests on `base`. The answer is whether it is. -/
def revert (c : Cache) (id : EntityId) (base : Version) : Update Cache Bool :=
  match c.slot? id with
  | none => .silent c false
  | some s =>
    if s.guessesOn base then
      ⟨c.write id ⟨s.authoritative, s.authoritative, false⟩, true,
        [.entityRolledBack id s.authoritative.version]⟩
    else .silent (c.write id { s with pending := false }) false

/-- Nothing is awaited any more. -/
def clearPending (c : Cache) (id : EntityId) : Update Cache Unit :=
  match c.slot? id with
  | none => .silent c ()
  | some s => .silent (c.write id { s with pending := false }) ()

@[simp] theorem slot?_write (c : Cache) (id j : EntityId) (s : Slot) :
    (c.write id s).slot? j = if id = j then some s else c.slot? j :=
  Table.get?_insert c.slots id j s

end Cache

end LiveSync
