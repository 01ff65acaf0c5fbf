import LiveSync.Entity.Topic
import LiveSync.Time.Duration

/-!
# Settings

The settings of a client: where the server is, and how patient the client
is with it. All but the two addresses have defaults.

Spans of time are kept in milliseconds, as they are written; `Config` has a
function for each that is needed as a `Duration`.
-/

namespace LiveSync

/-- **The settings of a client.** -/
structure Config where
  /-- The address of the API: states, commands, tokens. -/
  apiBaseUrl : String
  /-- The address of the live connection. -/
  wsUrl : String
  /-- Where tokens for the live connection are issued. -/
  tokenPath : String
  /-- The protocol that is announced in `hello`. -/
  protocolVersion : UInt32
  handshakeTimeoutMs : UInt64
  fetchTimeoutMs : UInt64
  commandTimeoutMs : UInt64
  /-- The delay before the first retry. -/
  backoffInitialMs : UInt64
  /-- The delay that is not exceeded. -/
  backoffMaxMs : UInt64
  /-- How many retries there are before the connection is given up. -/
  maxAttempts : UInt32
  /-- The silence after which a connection counts as stalled. -/
  livenessTimeoutMs : UInt64
  /-- How long an accepted command may wait for the state it led to. -/
  confirmTimeoutMs : UInt64
  /-- How many events an observer can be behind. -/
  eventCapacity : UInt64
deriving DecidableEq, Repr

namespace Config

/-- The defaults for a server at the given addresses. -/
def forEndpoints (apiBaseUrl wsUrl : String) : Config where
  apiBaseUrl := apiBaseUrl
  wsUrl := wsUrl
  tokenPath := "/api/ws/token"
  protocolVersion := 1
  handshakeTimeoutMs := 10000
  fetchTimeoutMs := 10000
  commandTimeoutMs := 10000
  backoffInitialMs := 1000
  backoffMaxMs := 30000
  maxAttempts := 10
  livenessTimeoutMs := 45000
  confirmTimeoutMs := 5000
  eventCapacity := 1024

/-- The defaults for a server on this machine. -/
def default : Config := forEndpoints "http://127.0.0.1:3001" "ws://127.0.0.1:3001/ws"

instance : Inhabited Config := ⟨default⟩

/-! ### Addresses -/

/-- The address of a path of the API: the base without slashes at its end,
and the path. -/
def apiUrl (c : Config) (path : String) : String :=
  String.ofList ((c.apiBaseUrl.toList.reverse.dropWhile (· = '/')).reverse ++ path.toList)

/-- Where tokens are issued. -/
def tokenUrl (c : Config) : String := c.apiUrl c.tokenPath

/-- Where the state of an entity is. -/
def snapshotUrl (c : Config) (id : EntityId) : String :=
  c.apiUrl ("/api/games/" ++ Decimal.intText id.toInt ++ "/snapshot")

/-- Where a command is submitted. -/
def commandUrl (c : Config) (id : EntityId) (command : String) : String :=
  c.apiUrl ("/api/games/" ++ Decimal.intText id.toInt ++ "/" ++ command)

/-! ### Spans of time -/

/-- How long the server may take to answer `hello`. -/
def handshakeTimeout (c : Config) : Duration := .ofMillis c.handshakeTimeoutMs

/-- How long a fetch may take. -/
def fetchTimeout (c : Config) : Duration := .ofMillis c.fetchTimeoutMs

/-- How long a command may take. -/
def commandTimeout (c : Config) : Duration := .ofMillis c.commandTimeoutMs

/-- The delay before the first retry. -/
def backoffInitial (c : Config) : Duration := .ofMillis c.backoffInitialMs

/-- The delay that is not exceeded. -/
def backoffMax (c : Config) : Duration := .ofMillis c.backoffMaxMs

/-- The silence after which a connection counts as stalled. -/
def livenessTimeout (c : Config) : Duration := .ofMillis c.livenessTimeoutMs

/-- How long an accepted command may wait for the state it led to. -/
def confirmTimeout (c : Config) : Duration := .ofMillis c.confirmTimeoutMs

end Config

end LiveSync
