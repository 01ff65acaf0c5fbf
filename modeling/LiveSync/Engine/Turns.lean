import LiveSync.Broadcast
import LiveSync.Engine.Cache
import LiveSync.Game.View

/-!
# Whose turn it is

The client announces when it becomes the viewer's turn. It looks at the
server's states only, never at a guess, and announces the **edge**: a
state that shows the turn after one that did not.

A **watch** remembers for one entity the viewer's seat, whether it was the
viewer's turn in the last state that was looked at, and the version of
that state. It starts from what the cache holds, so that the first look is
never taken for an edge.

The server may also hint at a turn. A hint is announced unless a command
of the viewer is awaited or the turn was announced already, and the state
that follows it does not announce the same turn again.
-/

namespace LiveSync

/-- **What is remembered of a watched entity.** -/
structure TurnWatch where
  /-- The viewer's seat, as soon as it is known. -/
  seat : Option Seat
  /-- Whether it was the viewer's turn, as soon as that is known. -/
  isTurn : Option Bool
  /-- The version that was looked at last. -/
  version : Option Version
deriving DecidableEq, Repr, Inhabited

namespace TurnWatch

/-- The watch that starts from the server's latest entry. -/
def seeded (seat : Option Seat) : Option Entry → TurnWatch
  | none => ⟨seat, none, none⟩
  | some e =>
    let seat := seat <|> Game.viewerSeat? e.payload
    ⟨seat, seat.map (Game.isTurnOf e.payload), some e.version⟩

/-- A watch after a look at an entry that is newer. -/
def after (w : TurnWatch) (e : Entry) : TurnWatch :=
  let seat := w.seat <|> Game.viewerSeat? e.payload
  ⟨seat, (seat.map (Game.isTurnOf e.payload)) <|> w.isTurn, some e.version⟩

/-- Whether an entry is newer than what a watch has looked at. -/
def isNews (w : TurnWatch) (e : Entry) : Bool :=
  match w.version with
  | none => true
  | some v => v < e.version

/-- Whether a look at an entry shows the turn after a look that did not. -/
def isEdge (w : TurnWatch) (e : Entry) : Bool :=
  match w.seat <|> Game.viewerSeat? e.payload with
  | none => false
  | some seat => Game.isTurnOf e.payload seat && w.isTurn == some false

end TurnWatch

/-- **The watched entities.** -/
structure Turns where
  watches : Table EntityId TurnWatch
deriving DecidableEq, Repr

namespace Turns

/-- Nothing is watched. -/
def empty : Turns := ⟨.empty⟩

instance : Inhabited Turns := ⟨empty⟩

/-- Whether an entity is watched. -/
def isWatching (t : Turns) (id : EntityId) : Bool := t.watches.contains id

/-- Whether it is the viewer's turn, if that is known. -/
def isTurn? (t : Turns) (id : EntityId) : Option Bool := (t.watches.get? id).bind TurnWatch.isTurn

/-- **Starts a watch**, or starts it anew. The seat is the viewer's, if it
is known beforehand. -/
def watch (t : Turns) (cache : Cache) (id : EntityId) (seat : Option Seat) : Turns :=
  ⟨t.watches.insert id (.seeded seat (cache.authoritative? id))⟩

/-- Ends a watch. -/
def unwatch (t : Turns) (id : EntityId) : Turns := ⟨t.watches.erase id⟩

/-- **Looks at the server's latest entry** of an entity. The answer is
whether a turn was announced. -/
def observe (t : Turns) (cache : Cache) (id : EntityId) : Update Turns Bool :=
  match cache.authoritative? id, t.watches.get? id with
  | some e, some w =>
    if w.isNews e then
      let edge := w.isEdge e
      ⟨⟨t.watches.insert id (w.after e)⟩, edge,
        if edge then [.turnStarted id .snapshot] else []⟩
    else .silent t false
  | _, _ => .silent t false

/-- **Takes a hint** of the server. The answer is whether it was announced. -/
def hint (t : Turns) (cache : Cache) (id : EntityId) : Update Turns Bool :=
  if cache.isPending id then .silent t false
  else
    match t.watches.get? id with
    | none => ⟨t, true, [.turnStarted id .hint]⟩
    | some w =>
      if w.isTurn = some true then .silent t false
      else
        ⟨⟨t.watches.insert id { w with isTurn := some true }⟩, true, [.turnStarted id .hint]⟩

/-- Looks at several entities. -/
def observeAll (t : Turns) (cache : Cache) (ids : List EntityId) : Update Turns Unit :=
  ids.foldl (fun u id => u.andThen fun t _ => (t.observe cache id).answer fun _ => ())
    (.silent t ())

/-- **Follows the events of the client**: looks at an entity when a state of
it came from the server, and at all watched ones when events were lost. -/
def follow (t : Turns) (cache : Cache) : Reading Event → Update Turns Unit
  | .item (.entityUpdated id _ provenance) =>
    if provenance.isAuthoritative then (t.observe cache id).answer fun _ => ()
    else .silent t ()
  | .item _ | .empty => .silent t ()
  | .lagged _ => t.observeAll cache t.watches.keys

end Turns

end LiveSync
