import LiveSync.Connection.Machine
import LiveSync.Wire.Codec

/-!
# One attempt to connect

An attempt owns one transport from the moment it asks for it until it is
closed. It sends what it is given, reports what it hears, and ends in one
of four ways: the transport could not be opened, the server closed it, the
server was silent for too long, or the attempt was retired from this side.

What it reports are inputs of the connection's life, all with the
attempt's own epoch. A retired attempt closes its transport and reports
nothing more.
-/

namespace LiveSync.Connection

/-- **What arrives on a transport.** -/
inductive Message where
  | text (text : String)
  /-- A sign of life without content. -/
  | heartbeat
deriving DecidableEq, Repr, Inhabited

namespace Attempt

/-- **How far an attempt has come.** -/
inductive Stage where
  /-- It has asked for a transport. -/
  | connecting
  /-- It has one, and expects to hear something by the deadline. -/
  | live (deadline : Clock)
  | over
deriving DecidableEq, Repr, Inhabited

/-- **What an attempt takes up.** -/
inductive Happening where
  /-- The answer to its request for a transport. -/
  | answered (failure : Option Failure)
  /-- A text to be sent, and why that fails, if it does. -/
  | outbound (text : String) (failure : Option Failure.Transport)
  /-- There will be nothing more to send. -/
  | retired
  | incoming (message : Message)
  | transportError (error : Failure.Transport)
  /-- The server closed the transport. -/
  | hungUp
  /-- The deadline has passed. -/
  | silence
deriving DecidableEq, Repr, Inhabited

/-- **What an attempt does.** -/
inductive Deed where
  | report (input : Input)
  | send (text : String)
  | close
deriving DecidableEq, Repr, Inhabited

end Attempt

/-- **An attempt to connect.** -/
structure Attempt where
  epoch : Epoch
  /-- The silence that is put up with. -/
  patience : Duration
  stage : Attempt.Stage
deriving DecidableEq, Repr

namespace Attempt

/-- An attempt that has just asked for a transport. -/
def start (epoch : Epoch) (patience : Duration) : Attempt := ⟨epoch, patience, .connecting⟩

/-- Whether an attempt is not over. -/
def isRunning (a : Attempt) : Bool := a.stage ≠ .over

/-- An attempt that has just heard something. -/
def heard (a : Attempt) (now : Clock) : Attempt :=
  { a with stage := .live (now + a.patience.nanos) }

/-- An attempt that is over. -/
def ended (a : Attempt) : Attempt := { a with stage := .over }

/-- What is reported of a message: the frame it holds, if it holds one. -/
def reportOf (epoch : Epoch) : Message → List Deed
  | .heartbeat => []
  | .text text =>
    match Wire.decode? text with
    | some frame => [.report (.frame epoch frame)]
    | none => []

/-- What is done with a text to be sent. -/
def sendDeeds (epoch : Epoch) (text : String) : Option Failure.Transport → List Deed
  | none => [.send text]
  | some error => [.report (.transportError epoch error)]

/-- An attempt with a transport takes something up. -/
def liveStep (a : Attempt) (deadline now : Clock) : Happening → Attempt × List Deed
  | .answered _ => (a, [])
  | .outbound text failure => (a, sendDeeds a.epoch text failure)
  | .retired => (a.ended, [.close])
  | .incoming message => (a.heard now, reportOf a.epoch message)
  | .transportError error => (a.heard now, [.report (.transportError a.epoch error)])
  | .hungUp => (a.ended, [.report (.closed a.epoch)])
  | .silence =>
    if deadline ≤ now then (a.ended, [.report (.stalled a.epoch), .close]) else (a, [])

/-- **An attempt takes something up.** What does not fit its stage changes
nothing. -/
def step (a : Attempt) (now : Clock) (h : Happening) : Attempt × List Deed :=
  match a.stage, h with
  | .connecting, .answered none => (a.heard now, [.report (.opened a.epoch)])
  | .connecting, .answered (some error) => (a.ended, [.report (.openFailed a.epoch error)])
  | .connecting, _ => (a, [])
  | .live deadline, h => a.liveStep deadline now h
  | .over, _ => (a, [])

end Attempt

end LiveSync.Connection
