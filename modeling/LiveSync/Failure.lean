import LiveSync.Entity.Topic
import LiveSync.Time.Duration

/-!
# What can go wrong

Failures are grouped by where they arise, because that is what decides
what is done about them: a transport that fails is reconnected, a command
that fails is rolled back, a fetch that fails leaves the cache as it is,
and a session that fails needs the user.

Each cause has a code, which is stable, and a message, which is for
people. A failure is **terminal** when trying again cannot help: the
session is gone, or all retries have been used (`Failure.isTerminal`). A
command or fetch that failed *because of* its session is not terminal in
this sense; it is over anyway.
-/

namespace LiveSync

/-- The live connection failed. -/
inductive Failure.Transport where
  | connect (reason : String)
  | send (reason : String)
  | receive (reason : String)
  | closed
deriving DecidableEq, Repr, Inhabited

/-- The connection timed out or was given up. -/
inductive Failure.Connection where
  | handshakeTimeout (ms : UInt64)
  | stalled (ms : UInt64)
  | attemptsExhausted (attempts : UInt32)
  | notConnected
  | shutdown
deriving DecidableEq, Repr, Inhabited

/-- The credentials are no longer accepted. -/
inductive Failure.Session where
  | expired
  | tokenUnavailable (reason : String)
deriving DecidableEq, Repr, Inhabited

/-- A command was not applied. -/
inductive Failure.Command where
  /-- The server found the command invalid. -/
  | rejected (code message : String)
  | forbidden (message : String)
  /-- The command was issued against an outdated version. -/
  | conflict (message : String)
  | notLoaded (id : EntityId)
  | timeout (ms : UInt64)
  | delivery (reason : String)
  | server (status : UInt16) (message : String)
  | session (cause : Failure.Session)
deriving DecidableEq, Repr, Inhabited

/-- A state could not be fetched. -/
inductive Failure.Fetch where
  | network (reason : String)
  | status (n : UInt16)
  | notFound (id : EntityId)
  | timeout (ms : UInt64)
  | decode (reason : String)
  | session (cause : Failure.Session)
deriving DecidableEq, Repr, Inhabited

/-- The configuration is unusable. -/
inductive Failure.Config where
  | io (path message : String)
  | parse (reason : String)
  | invalid (reason : String)
deriving DecidableEq, Repr, Inhabited

/-- **Everything that can go wrong.** -/
inductive Failure where
  | transport (cause : Failure.Transport)
  | connection (cause : Failure.Connection)
  | command (cause : Failure.Command)
  | fetch (cause : Failure.Fetch)
  | session (cause : Failure.Session)
  | config (cause : Failure.Config)
  | internal (reason : String)
deriving DecidableEq, Repr, Inhabited

namespace Failure

/-! ### Codes -/

/-- The code of a transport failure. -/
def Transport.code : Transport → String
  | .connect _ => "TRANSPORT_CONNECT_FAILED"
  | .send _ => "TRANSPORT_SEND_FAILED"
  | .receive _ => "TRANSPORT_RECEIVE_FAILED"
  | .closed => "TRANSPORT_CLOSED"

/-- The code of a connection failure. -/
def Connection.code : Connection → String
  | .handshakeTimeout _ => "HANDSHAKE_TIMEOUT"
  | .stalled _ => "CONNECTION_STALLED"
  | .attemptsExhausted _ => "RECONNECT_EXHAUSTED"
  | .notConnected => "NOT_CONNECTED"
  | .shutdown => "CONNECTION_SHUTDOWN"

/-- The code of a session failure. -/
def Session.code : Session → String
  | .expired => "SESSION_EXPIRED"
  | .tokenUnavailable _ => "TOKEN_UNAVAILABLE"

/-- The code of a command failure. -/
def Command.code : Command → String
  | .rejected _ _ => "COMMAND_REJECTED"
  | .forbidden _ => "COMMAND_FORBIDDEN"
  | .conflict _ => "VERSION_CONFLICT"
  | .notLoaded _ => "ENTITY_NOT_LOADED"
  | .timeout _ => "COMMAND_TIMEOUT"
  | .delivery _ => "COMMAND_DELIVERY_FAILED"
  | .server _ _ => "COMMAND_SERVER_ERROR"
  | .session cause => cause.code

/-- The code of a fetch failure. -/
def Fetch.code : Fetch → String
  | .network _ => "FETCH_NETWORK_ERROR"
  | .status _ => "FETCH_FAILED"
  | .notFound _ => "ENTITY_NOT_FOUND"
  | .timeout _ => "FETCH_TIMEOUT"
  | .decode _ => "FETCH_DECODE_ERROR"
  | .session cause => cause.code

/-- **The code of a failure.** -/
def code : Failure → String
  | .transport cause => cause.code
  | .connection cause => cause.code
  | .command cause => cause.code
  | .fetch cause => cause.code
  | .session cause => cause.code
  | .config _ => "CONFIG_ERROR"
  | .internal _ => "INTERNAL_ERROR"

/-! ### Messages -/

/-- A number of milliseconds with its unit. -/
def msText (ms : UInt64) : String := Decimal.natText ms.toNat ++ "ms"

/-- The message of a transport failure. -/
def Transport.message : Transport → String
  | .connect reason => "Failed to open connection: " ++ reason
  | .send reason => "Failed to send frame: " ++ reason
  | .receive reason => "Failed to receive frame: " ++ reason
  | .closed => "Connection closed"

/-- The message of a connection failure. -/
def Connection.message : Connection → String
  | .handshakeTimeout ms => "Server did not acknowledge the handshake within " ++ msText ms
  | .stalled ms => "No traffic from server for " ++ msText ms
  | .attemptsExhausted n =>
    "Gave up reconnecting after " ++ Decimal.natText n.toNat ++ " attempts"
  | .notConnected => "Not connected"
  | .shutdown => "Connection manager has shut down"

/-- The message of a session failure. -/
def Session.message : Session → String
  | .expired => "Session expired, sign in again"
  | .tokenUnavailable reason => "Could not obtain a connection token: " ++ reason

/-- The message of a command failure. -/
def Command.message : Command → String
  | .rejected code message => "Command rejected (" ++ code ++ "): " ++ message
  | .forbidden message => "Command forbidden: " ++ message
  | .conflict message => "Version conflict: " ++ message
  | .notLoaded id => "Entity " ++ Decimal.intText id.toInt ++ " is not loaded"
  | .timeout ms => "No response to command within " ++ msText ms
  | .delivery reason => "Command could not be delivered: " ++ reason
  | .server status message =>
    "Server error " ++ Decimal.natText status.toNat ++ ": " ++ message
  | .session cause => cause.message

/-- The message of a fetch failure. -/
def Fetch.message : Fetch → String
  | .network reason => "Network error: " ++ reason
  | .status n => "Snapshot request failed with status " ++ Decimal.natText n.toNat
  | .notFound id => "Entity " ++ Decimal.intText id.toInt ++ " not found"
  | .timeout ms => "Snapshot fetch timed out after " ++ msText ms
  | .decode reason => "Malformed snapshot: " ++ reason
  | .session cause => cause.message

/-- The message of a configuration failure. -/
def Config.message : Config → String
  | .io path message => "Failed to read config file '" ++ path ++ "': " ++ message
  | .parse reason => "Failed to parse config: " ++ reason
  | .invalid reason => "Invalid config: " ++ reason

/-- **The message of a failure.** -/
def message : Failure → String
  | .transport cause => cause.message
  | .connection cause => cause.message
  | .command cause => cause.message
  | .fetch cause => cause.message
  | .session cause => cause.message
  | .config cause => cause.message
  | .internal reason => "Internal error: " ++ reason

/-! ### Kinds of failure -/

/-- **Whether trying again cannot help.** -/
def isTerminal : Failure → Bool
  | .session _ => true
  | .connection (.attemptsExhausted _) => true
  | _ => false

/-- A command that was not answered in time. -/
def Command.timedOut (after : Duration) : Command := .timeout after.millis

/-- A fetch that was not answered in time. -/
def Fetch.timedOut (after : Duration) : Fetch := .timeout after.millis

end Failure

end LiveSync
