import LiveSync.Json.Shape

/-!
# The status of a connection

What a user of the client sees of its connection: one of four statuses,
the number of retries since the last handshake, and the number of the
attempt – the **epoch** – that was current when the status last changed.
-/

namespace LiveSync

/-- The number of an attempt to connect. It is counted without a bound: a
counter of 64 bits has room for more attempts than a client can ever make, and
its overflow is left out. -/
abbrev Epoch := Nat

/-- **How a connection stands.** -/
inductive ConnectionStatus where
  | disconnected
  | connecting
  | connected
  | reconnecting
deriving DecidableEq, Repr, Inhabited

namespace ConnectionStatus

/-- The name of a status. -/
def name : ConnectionStatus → String
  | .disconnected => "disconnected"
  | .connecting => "connecting"
  | .connected => "connected"
  | .reconnecting => "reconnecting"

/-- All statuses. -/
def all : List ConnectionStatus := [.disconnected, .connecting, .connected, .reconnecting]

/-- The status of a name. -/
def ofName? (s : String) : Option ConnectionStatus := all.find? fun c => c.name = s

/-- Reads a status. -/
def ofJson? (depth : Json.Depth) (v : Json) : Option ConnectionStatus :=
  (Json.plainVariant? depth v).bind ofName?

theorem ofName?_name (c : ConnectionStatus) : ofName? c.name = some c := by
  cases c <;> decide

end ConnectionStatus

/-- **What observers of a connection see.** -/
structure ConnectionState where
  status : ConnectionStatus
  /-- Retries since the last handshake. -/
  attempt : UInt32
  /-- The attempt that was current when the status was reported. -/
  epoch : Epoch
deriving DecidableEq, Repr

/-- Before the first report. -/
def ConnectionState.initial : ConnectionState := ⟨.disconnected, 0, 0⟩

instance : Inhabited ConnectionState := ⟨.initial⟩

end LiveSync
