import LiveSync.Game.Action
import LiveSync.RequestId

/-!
# Frames

Client and server exchange **frames** over the live connection. Each is
one JSON object with a `type`; the rest of its members depend on it.

A frame is written with its type first and its other fields in a fixed
order, absent ones as `null`. It is read from its fields in any order, or
from a list of them, and some frames have an older name for a field or for
themselves.
-/

namespace LiveSync.Wire

/-- **What a client sends.** -/
inductive ClientFrame where
  /-- The first frame of a connection. -/
  | hello (protocol : UInt32)
  | subscribe (topic : Topic)
  | unsubscribe (topic : Topic)
  /-- An action, issued against a version of an entity. -/
  | command (request : RequestId) (id : EntityId) (version : Version) (action : Action)
deriving DecidableEq, Repr, Inhabited

/-- **What a server sends.** -/
inductive ServerFrame where
  /-- The answer to `hello`. -/
  | helloAck (protocol : Option UInt32) (user : Option Int64)
  | ack (message : String)
  /-- The state of an entity. -/
  | stateUpdate (topic : Topic) (version : Version) (payload : Json)
  /-- A hint that it is the viewer's turn. -/
  | yourTurn (id : EntityId) (version : Option Version)
  /-- A long wait is over. -/
  | invalidated (id : Option EntityId)
  /-- A command was applied. -/
  | commandAck (request : RequestId) (version : Option Version)
  | error (code message : String) (request : Option RequestId)
deriving DecidableEq, Repr, Inhabited

/-- The JSON form of a request identifier. -/
def requestJson (r : RequestId) : Json := .str r.text

/-- Reads a request identifier. -/
def request? (v : Json) : Option RequestId := v.str?.bind RequestId.parse?

namespace ClientFrame

/-- The type of a frame. -/
def kind : ClientFrame → String
  | .hello _ => "hello"
  | .subscribe _ => "subscribe"
  | .unsubscribe _ => "unsubscribe"
  | .command _ _ _ _ => "command"

/-- The fields of a frame besides its type. -/
def fields : ClientFrame → List (String × Json)
  | .hello protocol => [("protocol", Json.ofUInt32 protocol)]
  | .subscribe topic | .unsubscribe topic => [("topic", topic.toJson)]
  | .command request id version action =>
    [("request_id", requestJson request), ("entity_id", Json.ofInt64 id),
      ("version", Json.ofInt64 version), ("action", action.toJson)]

/-- The JSON form of a frame. -/
def toJson (f : ClientFrame) : Json := .obj (("type", .str f.kind) :: f.fields)

/-- Reads a frame. -/
def ofJson? (v : Json) : Option ClientFrame :=
  match Json.tagged? .outermost "type" [] v with
  | some ("hello", fields) => do
    let (protocol, fields) ← fields.required ["protocol"] Json.uint32?
    fields.finish? (.hello protocol)
  | some ("subscribe", fields) => do
    let (topic, fields) ← fields.required ["topic"] (Topic.ofJson? .inner)
    fields.finish? (.subscribe topic)
  | some ("unsubscribe", fields) => do
    let (topic, fields) ← fields.required ["topic"] (Topic.ofJson? .inner)
    fields.finish? (.unsubscribe topic)
  | some ("command", fields) => do
    let (request, fields) ← fields.required ["request_id"] request?
    let (id, fields) ← fields.required ["entity_id"] Json.int64?
    let (version, fields) ← fields.required ["version"] Json.int64?
    let (action, fields) ← fields.required ["action"] (Action.ofJson? .inner)
    fields.finish? (.command request id version action)
  | _ => none

end ClientFrame

namespace ServerFrame

/-- The type of a frame. -/
def kind : ServerFrame → String
  | .helloAck _ _ => "hello_ack"
  | .ack _ => "ack"
  | .stateUpdate _ _ _ => "state_update"
  | .yourTurn _ _ => "your_turn"
  | .invalidated _ => "invalidated"
  | .commandAck _ _ => "command_ack"
  | .error _ _ _ => "error"

/-- The fields of a frame besides its type. -/
def fields : ServerFrame → List (String × Json)
  | .helloAck protocol user =>
    [("protocol", Json.ofOption Json.ofUInt32 protocol),
      ("user_id", Json.ofOption Json.ofInt64 user)]
  | .ack message => [("message", .str message)]
  | .stateUpdate topic version payload =>
    [("topic", topic.toJson), ("version", Json.ofInt64 version), ("payload", payload)]
  | .yourTurn id version =>
    [("entity_id", Json.ofInt64 id), ("version", Json.ofOption Json.ofInt64 version)]
  | .invalidated id => [("entity_id", Json.ofOption Json.ofInt64 id)]
  | .commandAck request version =>
    [("request_id", requestJson request), ("version", Json.ofOption Json.ofInt64 version)]
  | .error code message request =>
    [("code", .str code), ("message", .str message),
      ("request_id", Json.ofOption requestJson request)]

/-- The JSON form of a frame. -/
def toJson (f : ServerFrame) : Json := .obj (("type", .str f.kind) :: f.fields)

/-- The names of the field that holds a frame's entity. -/
def entityNames : List String := ["entity_id", "game_id"]

/-- The fields of an invalidation. -/
def invalidated? (fields : Json.Fields) : Option ServerFrame := do
  let (id, fields) ← fields.defaulted none entityNames (Json.Fields.orNull Json.int64?)
  fields.finish? (.invalidated id)

/-- Reads a frame. -/
def ofJson? (v : Json) : Option ServerFrame :=
  match Json.tagged? .outermost "type" [] v with
  | some ("hello_ack", fields) => do
    let (protocol, fields) ←
      fields.defaulted none ["protocol"] (Json.Fields.orNull Json.uint32?)
    let (user, fields) ← fields.defaulted none ["user_id"] (Json.Fields.orNull Json.int64?)
    fields.finish? (.helloAck protocol user)
  | some ("ack", fields) => do
    let (message, fields) ← fields.required ["message"] Json.str?
    fields.finish? (.ack message)
  | some ("state_update", fields) => do
    let (topic, fields) ← fields.required ["topic"] (Topic.ofJson? .inner)
    let (version, fields) ← fields.required ["version"] Json.int64?
    let (payload, fields) ← fields.required ["payload"] Json.any?
    fields.finish? (.stateUpdate topic version payload)
  | some ("your_turn", fields) => do
    let (id, fields) ← fields.required entityNames Json.int64?
    let (version, fields) ← fields.defaulted none ["version"] (Json.Fields.orNull Json.int64?)
    fields.finish? (.yourTurn id version)
  | some ("invalidated", fields) => invalidated? fields
  | some ("long_wait_invalidated", fields) => invalidated? fields
  | some ("command_ack", fields) => do
    let (request, fields) ← fields.required ["request_id"] request?
    let (version, fields) ← fields.defaulted none ["version"] (Json.Fields.orNull Json.int64?)
    fields.finish? (.commandAck request version)
  | some ("error", fields) => do
    let (code, fields) ← fields.required ["code"] Json.str?
    let (message, fields) ← fields.required ["message"] Json.str?
    let (request, fields) ←
      fields.defaulted none ["request_id"] (Json.Fields.orNull request?)
    fields.finish? (.error code message request)
  | _ => none

/-- Reads a state that comes in two halves, the game and its viewer. -/
def ofHalves? (fields : Json.Fields) : Option ServerFrame := do
  let (topic, fields) ← fields.required ["topic"] (Topic.ofJson? .outermost)
  let (version, fields) ← fields.required ["version"] Json.int64?
  let (game, fields) ← fields.required ["game"] Json.any?
  let (viewer, fields) ← fields.defaulted .null ["viewer"] Json.any?
  fields.finish? (.stateUpdate topic version (Json.object [("game", game), ("viewer", viewer)]))

end ServerFrame

end LiveSync.Wire
