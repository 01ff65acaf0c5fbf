import LiveSync.Json.Shape
import LiveSync.Text.Decimal

/-!
# Entities and topics

The server owns **entities** – games – and numbers them. Each state of an
entity has a **version**, and versions only grow. A **topic** is what a
client subscribes to; the one kind of topic there is carries the states of
one game.
-/

namespace LiveSync

/-- The number of an entity. -/
abbrev EntityId := Int64

/-- The number of an entity's state. -/
abbrev Version := Int64

/-- **A stream of states** to subscribe to. -/
inductive Topic where
  | game (id : EntityId)
deriving DecidableEq, Repr, Inhabited

namespace Topic

/-- The entity whose states a topic carries. -/
def entityId : Topic → EntityId
  | .game id => id

/-- The short text of a topic. -/
def text : Topic → String
  | .game id => "game:" ++ Decimal.intText id.toInt

/-- The kinds of topic. -/
def kinds : List String := ["game"]

/-- Reads a topic. -/
def ofJson? (depth : Json.Depth) (v : Json) : Option Topic :=
  match Json.tagged? depth "kind" kinds v with
  | some ("game", fields) => do
    let (id, fields) ← fields.required ["id"] Json.int64?
    fields.finish? (.game id)
  | _ => none

/-- The JSON form of a topic. -/
def toJson : Topic → Json
  | .game id => .obj [("kind", .str "game"), ("id", Json.ofInt64 id)]

/-- **What was written is read back.** -/
theorem ofJson?_toJson (depth : Json.Depth) (t : Topic) : ofJson? depth t.toJson = some t := by
  cases t with
  | game id =>
    simp [ofJson?, toJson, Json.tagged?, Json.Fields.called, Json.variant?,
      Json.Fields.required, Json.Fields.take?, Json.Fields.finish?]

end Topic

end LiveSync
