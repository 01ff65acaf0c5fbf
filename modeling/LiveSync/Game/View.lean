import LiveSync.Json.Pointer
import LiveSync.Json.Shape

/-!
# What a payload says about the game

A payload shows a game to one viewer:

    { "game":   { "phase": { "phase": "Bidding", "data": { "to_act": 2, … } }, … },
      "viewer": { "seat": 2, "hand": […], … } }

The rules of the game are the server's. The client reads off three
things only: in which phase the game is, which seat is to act, and at which
seat the viewer sits. It is a seat's turn when the phase waits for a player
and that seat is the one to act (`Game.isTurnOf`).
-/

namespace LiveSync

/-- A seat at the table. -/
abbrev Seat := UInt8

namespace Game

/-- **The phases of a game.** -/
inductive Phase where
  | init
  | bidding
  | trumpSelect
  | trick
  | scoring
  | complete
  | gameOver
deriving DecidableEq, Repr, Inhabited

namespace Phase

/-- The name of a phase. -/
def name : Phase → String
  | .init => "Init"
  | .bidding => "Bidding"
  | .trumpSelect => "TrumpSelect"
  | .trick => "Trick"
  | .scoring => "Scoring"
  | .complete => "Complete"
  | .gameOver => "GameOver"

/-- All phases, in the order of a game. -/
def all : List Phase := [.init, .bidding, .trumpSelect, .trick, .scoring, .complete, .gameOver]

/-- The phase of a name. -/
def ofName? (s : String) : Option Phase := all.find? fun p => p.name = s

/-- Whether the phase waits for one player. -/
def awaitsPlayer : Phase → Bool
  | .bidding | .trumpSelect | .trick => true
  | .init | .scoring | .complete | .gameOver => false

theorem ofName?_name (p : Phase) : ofName? p.name = some p := by
  cases p <;> decide

end Phase

/-- The phase a payload is in. -/
def phase? (payload : Json) : Option Phase :=
  ((payload.at? ["game", "phase", "phase"]).bind Json.str?).bind Phase.ofName?

/-- The seat that is to act. -/
def toAct? (payload : Json) : Option Seat :=
  (payload.at? ["game", "phase", "data", "to_act"]).bind Json.uint8?

/-- The seat of the viewer. -/
def viewerSeat? (payload : Json) : Option Seat :=
  (payload.at? ["viewer", "seat"]).bind Json.uint8?

/-- Whether the payload is rendered for a viewer. -/
def hasViewer (payload : Json) : Bool :=
  match payload.get? "viewer" with
  | none | some .null => false
  | some _ => true

/-- **Whether it is a seat's turn.** -/
def isTurnOf (payload : Json) (seat : Seat) : Bool :=
  (phase? payload).any Phase.awaitsPlayer && toAct? payload == some seat

end Game

end LiveSync
