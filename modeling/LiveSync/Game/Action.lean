import LiveSync.Game.View
import LiveSync.Entity.Topic

/-!
# Actions and mutations

An **action** is what a player does: bid, choose the trump, play a card,
or say whether they are ready. A **mutation** is an action in one game.

Before the server has answered, the client shows what the action will
presumably lead to (`Mutation.speculate`). That is a guess about structure
and not about rules: a field that is not where it is expected is left
alone, and nothing else is touched. In particular neither the phase nor
the seat that is to act is changed, so a guess never moves the turn.
-/

namespace LiveSync

/-- **What a player does.** -/
inductive Action where
  | bid (n : UInt8)
  | trump (suit : String)
  | play (card : String)
  | ready (isReady : Bool)
deriving DecidableEq, Repr, Inhabited

namespace Action

/-- The name of the command for an action. -/
def command : Action → String
  | .bid _ => "bid"
  | .trump _ => "trump"
  | .play _ => "play"
  | .ready _ => "ready"

/-- The field that an action has besides its kind. -/
def field : Action → String × Json
  | .bid n => ("bid", Json.ofUInt8 n)
  | .trump suit => ("trump", .str suit)
  | .play card => ("card", .str card)
  | .ready isReady => ("is_ready", .bool isReady)

/-- The body of the request that carries an action. -/
def body (a : Action) : Json := .obj [a.field]

/-- The kinds of action. -/
def kinds : List String := ["bid", "trump", "play", "ready"]

/-- The JSON form of an action. -/
def toJson (a : Action) : Json := .obj [("kind", .str a.command), a.field]

/-- Reads an action. -/
def ofJson? (depth : Json.Depth) (v : Json) : Option Action :=
  match Json.tagged? depth "kind" kinds v with
  | some ("bid", fields) => do
    let (n, fields) ← fields.required ["bid"] Json.uint8?
    fields.finish? (.bid n)
  | some ("trump", fields) => do
    let (suit, fields) ← fields.required ["trump"] Json.str?
    fields.finish? (.trump suit)
  | some ("play", fields) => do
    let (card, fields) ← fields.required ["card"] Json.str?
    fields.finish? (.play card)
  | some ("ready", fields) => do
    let (isReady, fields) ← fields.required ["is_ready"] Json.bool?
    fields.finish? (.ready isReady)
  | _ => none

/-- **What was written is read back.** -/
theorem ofJson?_toJson (depth : Json.Depth) (a : Action) :
    ofJson? depth a.toJson = some a := by
  cases a <;>
    simp [ofJson?, toJson, command, field, Json.tagged?, Json.Fields.called, Json.variant?,
      Json.Fields.required, Json.Fields.take?, Json.Fields.finish?, Json.str?, Json.bool?]

end Action

/-- **An action in one game.** -/
structure Mutation where
  entityId : EntityId
  action : Action
deriving DecidableEq, Repr, Inhabited

namespace Mutation

/-- A step of a path into an array or object of seats. -/
def seatStep (seat : Seat) : String := Decimal.natText seat.toNat

/-- Takes a card out of an array of cards. -/
def withoutCard (card : String) : Json → Json
  | .arr items => .arr (items.filter fun v => v ≠ .str card)
  | v => v

/-- Puts a card that was played from a seat onto a trick. -/
def withPlayed (seat : Seat) (card : String) : Json → Json
  | .arr items => .arr (items ++ [.arr [Json.ofUInt8 seat, .str card]])
  | v => v

/-- Writes a round's trump. -/
def withTrump (suit : String) : Json → Json
  | .obj members => .obj (Json.insertMember "trump" (.str suit) members)
  | v => v

/-- **The presumable effect of an action** on a payload. -/
def speculate (action : Action) (payload : Json) : Json :=
  let data (field : String) : List String := ["game", "phase", "data", field]
  match action with
  | .bid n =>
    match Game.viewerSeat? payload with
    | some seat => payload.adjust (data "bids" ++ [seatStep seat]) fun _ => Json.ofUInt8 n
    | none => payload
  | .trump suit => payload.adjust (data "round") (withTrump suit)
  | .play card =>
    let held := payload.adjust ["viewer", "hand"] (withoutCard card)
    let playable := held.adjust (data "playable") (withoutCard card)
    match Game.viewerSeat? payload with
    | some seat => playable.adjust (data "current_trick") (withPlayed seat card)
    | none => playable
  | .ready _ => payload

end Mutation

end LiveSync
