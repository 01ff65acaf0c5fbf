import LiveSync.Connection.Status
import LiveSync.Entity.Entry

/-!
# Events

The client tells its observers what happens by **events**. Most of them
concern one entity. An event is a notice and not a copy of the state: an
observer that missed some reads the cache.
-/

namespace LiveSync

/-- **Why a turn was announced.** -/
inductive TurnSource where
  /-- A state of the server shows the turn. -/
  | snapshot
  /-- The server said so. -/
  | hint
deriving DecidableEq, Repr, Inhabited

namespace TurnSource

/-- The name of a source. -/
def name : TurnSource → String
  | .snapshot => "snapshot"
  | .hint => "hint"

/-- The source of a name. -/
def ofName? (s : String) : Option TurnSource := [snapshot, hint].find? fun t => t.name = s

end TurnSource

/-- **What observers are told.** -/
inductive Event where
  /-- The status or the number of retries changed. -/
  | connectionChanged (status : ConnectionStatus) (attempt : UInt32)
  /-- An entry was replaced. -/
  | entityUpdated (id : EntityId) (version : Version) (provenance : Provenance)
  /-- A guess was taken back. -/
  | entityRolledBack (id : EntityId) (version : Version)
  /-- It has become the viewer's turn. -/
  | turnStarted (id : EntityId) (source : TurnSource)
  /-- A long wait is over. -/
  | waitInvalidated (id : Option EntityId)
  /-- The server reported an error. -/
  | serverError (code message : String)
  /-- The error that is shown to the user changed. -/
  | syncErrorChanged (error : Option String)
deriving DecidableEq, Repr, Inhabited

namespace Event

/-- The name of an event's kind. -/
def kind : Event → String
  | .connectionChanged _ _ => "connection_changed"
  | .entityUpdated _ _ _ => "entity_updated"
  | .entityRolledBack _ _ => "entity_rolled_back"
  | .turnStarted _ _ => "turn_started"
  | .waitInvalidated _ => "wait_invalidated"
  | .serverError _ _ => "server_error"
  | .syncErrorChanged _ => "sync_error_changed"

/-- **The entity an event concerns.** -/
def entityId? : Event → Option EntityId
  | .entityUpdated id _ _ | .entityRolledBack id _ | .turnStarted id _ => some id
  | .waitInvalidated id => id
  | .connectionChanged _ _ | .serverError _ _ | .syncErrorChanged _ => none

/-- The fields of an event besides its kind. -/
def fields : Event → List (String × Json)
  | .connectionChanged status attempt =>
    [("status", .str status.name), ("attempt", Json.ofUInt32 attempt)]
  | .entityUpdated id version provenance =>
    [("entity_id", Json.ofInt64 id), ("version", Json.ofInt64 version),
      ("provenance", provenance.toJson)]
  | .entityRolledBack id version =>
    [("entity_id", Json.ofInt64 id), ("version", Json.ofInt64 version)]
  | .turnStarted id source => [("entity_id", Json.ofInt64 id), ("source", .str source.name)]
  | .waitInvalidated id => [("entity_id", Json.ofOption Json.ofInt64 id)]
  | .serverError code message => [("code", .str code), ("message", .str message)]
  | .syncErrorChanged error => [("error", Json.ofOption Json.str error)]

/-- The JSON form of an event. -/
def toJson (e : Event) : Json := .obj (("kind", .str e.kind) :: e.fields)

/-- Reads an event. -/
def ofJson? (v : Json) : Option Event :=
  match Json.tagged? .outermost "kind" [] v with
  | some ("connection_changed", fields) => do
    let (status, fields) ← fields.required ["status"] (ConnectionStatus.ofJson? .inner)
    let (attempt, fields) ← fields.required ["attempt"] Json.uint32?
    fields.finish? (.connectionChanged status attempt)
  | some ("entity_updated", fields) => do
    let (id, fields) ← fields.required ["entity_id"] Json.int64?
    let (version, fields) ← fields.required ["version"] Json.int64?
    let (provenance, fields) ← fields.required ["provenance"] (Provenance.ofJson? .inner)
    fields.finish? (.entityUpdated id version provenance)
  | some ("entity_rolled_back", fields) => do
    let (id, fields) ← fields.required ["entity_id"] Json.int64?
    let (version, fields) ← fields.required ["version"] Json.int64?
    fields.finish? (.entityRolledBack id version)
  | some ("turn_started", fields) => do
    let (id, fields) ← fields.required ["entity_id"] Json.int64?
    let (source, fields) ← fields.required ["source"] fun v =>
      (Json.plainVariant? .inner v).bind TurnSource.ofName?
    fields.finish? (.turnStarted id source)
  | some ("wait_invalidated", fields) => do
    let (id, fields) ← fields.optional ["entity_id"] Json.int64?
    fields.finish? (.waitInvalidated id)
  | some ("server_error", fields) => do
    let (code, fields) ← fields.required ["code"] Json.str?
    let (message, fields) ← fields.required ["message"] Json.str?
    fields.finish? (.serverError code message)
  | some ("sync_error_changed", fields) => do
    let (error, fields) ← fields.optional ["error"] Json.str?
    fields.finish? (.syncErrorChanged error)
  | _ => none

end Event

end LiveSync
