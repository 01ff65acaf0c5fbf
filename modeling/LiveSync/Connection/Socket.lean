import LiveSync.Failure
import LiveSync.Http.Status
import LiveSync.Url.Basic

/-!
# Web sockets

The live connection runs over a **web socket**. To open one, a fresh token is
asked for and sent as a field of the address; an upgrade that is refused for
want of authorization means that the session is over, any other refusal that
this attempt failed.

What arrives is text, or a sign of life that has no content of its own.
Bytes that are a text count as one, other bytes are passed over. The
connection ends in order when the server closes it; when it breaks off, that
is told once, and then it has ended too.
-/

namespace LiveSync.Socket

/-! ### Opening -/

/-- An attempt to open a socket that failed. -/
def openFailed (reason : String) : Failure := .transport (.connect reason)

/-- **The address to open**, with the token that was issued, if one is
needed. -/
def endpoint (address : String) (token : Option (Except Failure String)) :
    Except Failure Url :=
  match Url.parse address with
  | .error flaw =>
    .error (openFailed ("invalid url '" ++ address ++ "': " ++ flaw.message))
  | .ok url =>
    match token with
    | none => .ok url
    | some (.error f) => .error f
    | some (.ok t) => .ok (url.appendField "token" t)

/-- The schemes of web sockets. -/
def schemes : List String := ["ws", "wss"]

/-- What is said of another scheme. -/
def unsupportedScheme : String := "URL error: URL scheme not supported"

/-- **What becomes of an upgrade**: it is refused with a status, or it is
carried out. -/
def upgrade (url : Url) (refusal : Option Http.Status) : Except Failure Unit :=
  if url.scheme ∉ schemes then .error (openFailed unsupportedScheme)
  else
    match refusal with
    | none => .ok ()
    | some status =>
      if status = 401 then .error (.session .expired)
      else .error (openFailed ("HTTP error: " ++ status.text))

/-! ### Receiving and sending -/

/-- **What a server sends.** -/
inductive Message where
  | text (s : String)
  | binary (bytes : List UInt8)
  | ping
  | pong
  /-- The connection is closed in order. -/
  | close
deriving DecidableEq, Repr

/-- **What arrives.** -/
inductive Arrival where
  | text (s : String)
  /-- A sign of life. -/
  | heartbeat
  | failed (cause : Failure.Transport)
  /-- The connection has ended. -/
  | ended
deriving DecidableEq, Repr

/-- The state of a socket at its client's end. -/
inductive Phase where
  | isOpen
  /-- One side has closed it. -/
  | closed
  /-- It has broken off. -/
  | broken
deriving DecidableEq, Repr

end Socket

/-- **A socket at its client's end**: what is on its way to it, and its
state. When nothing is on its way any more, it breaks off. -/
structure Socket where
  incoming : List Socket.Message
  phase : Socket.Phase
deriving DecidableEq, Repr

namespace Socket

/-- A socket that was opened. -/
def opened (incoming : List Message) : Socket := ⟨incoming, .isOpen⟩

/-- What is told when a connection breaks off. -/
def brokenOff : String :=
  "WebSocket protocol error: Connection reset without closing handshake"

/-- **The next arrival** among messages on their way, what is left of them,
and the state after it. -/
def next : List Message → Arrival × List Message × Phase
  | [] => (.failed (.receive brokenOff), [], .broken)
  | .text s :: rest => (.text s, rest, .isOpen)
  | .binary bytes :: rest =>
    match String.fromUTF8? ⟨bytes.toArray⟩ with
    | some s => (.text s, rest, .isOpen)
    | none => next rest
  | .ping :: rest => (.heartbeat, rest, .isOpen)
  | .pong :: rest => (.heartbeat, rest, .isOpen)
  | .close :: _ => (.ended, [], .closed)

/-- **Receives.** -/
def receive (s : Socket) : Socket × Arrival :=
  if s.phase = .isOpen then
    let (arrival, incoming, phase) := next s.incoming
    (⟨incoming, phase⟩, arrival)
  else (s, .ended)

/-- Receives until the end, or so many times. -/
def receiveUpTo : Nat → Socket → Socket × List Arrival
  | 0, s => (s, [])
  | n + 1, s =>
    match s.receive with
    | (s, .ended) => (s, [.ended])
    | (s, a) =>
      let (s, more) := receiveUpTo n s
      (s, a :: more)

/-- Receives until the end. -/
def receiveAll (s : Socket) : Socket × List Arrival := receiveUpTo (s.incoming.length + 2) s

/-- Closes the socket. -/
def close (s : Socket) : Socket :=
  if s.phase = .isOpen then { s with phase := .closed } else s

/-- **Sends**, which is possible while the socket is open. -/
def send (s : Socket) : Except Failure.Transport Unit :=
  match s.phase with
  | .isOpen => .ok ()
  | .closed =>
    .error (.send "WebSocket protocol error: Sending after closing is not allowed")
  | .broken => .error (.send "Trying to work with closed connection")

/-- **After closing nothing arrives any more.** -/
theorem receive_close (s : Socket) : s.close.receive = (s.close, .ended) := by
  have h : s.close.phase ≠ .isOpen := by
    unfold close
    split
    · simp
    · assumption
  simp [receive, h]

end Socket

end LiveSync
