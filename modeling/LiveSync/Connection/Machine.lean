import LiveSync.Connection.Backoff
import LiveSync.Connection.Status
import LiveSync.Failure
import LiveSync.Wire.Frame

/-!
# The life of a connection

                  connect
    disconnected ────────▶ connecting ──hello_ack──▶ connected
         ▲                     │                         │
         │ exhausted,          │ close, timeout,         │ close, stall
         │ disconnect          ▼ failure                 ▼
         └──────────────── reconnecting ◀────────────────┘

The life of a connection is a pure machine. It takes **inputs** – what the
user wants, what the host does, what happened to an attempt – and answers
with **effects**, which somebody else carries out in their order.

Each attempt to connect has a number of its own, its **epoch**, and what
happened to an attempt is told with that number. An input about an attempt
that is over changes nothing and has no effect, whenever it arrives.

A user who wants to be connected always is on the way to it
(`Machine.desired`): an attempt is under way, or a retry is waiting for its
timer, or one is waiting for the host to become active.
-/

namespace LiveSync.Connection

open LiveSync.Wire

/-- **What can happen to a connection.** -/
inductive Input where
  /-- The user wants to be connected. -/
  | connect
  /-- The user no longer wants to be connected. -/
  | disconnect
  /-- The transport of an attempt is open. -/
  | opened (epoch : Epoch)
  /-- The transport of an attempt could not be opened. -/
  | openFailed (epoch : Epoch) (error : Failure)
  /-- A frame arrived. -/
  | frame (epoch : Epoch) (frame : ServerFrame)
  /-- The transport reported an error, which need not be the end of it. -/
  | transportError (epoch : Epoch) (error : Failure.Transport)
  /-- The transport closed. -/
  | closed (epoch : Epoch)
  /-- Nothing was heard of the server for too long. -/
  | stalled (epoch : Epoch)
  | handshakeTimedOut (epoch : Epoch)
  | retryFired (epoch : Epoch)
  /-- The host has become active or inactive, or says so again. -/
  | host (active : Bool)
deriving DecidableEq, Repr, Inhabited

/-- **What is to be done.** -/
inductive Effect where
  | open (epoch : Epoch)
  | send (epoch : Epoch) (frame : ClientFrame)
  | close (epoch : Epoch)
  | startHandshakeTimer (epoch : Epoch) (timeout : Duration)
  | cancelHandshakeTimer
  | scheduleRetry (epoch : Epoch) (delay : Duration)
  | cancelRetry
  /-- The handshake is done. -/
  | established (epoch : Epoch) (user : Option Int64)
  /-- A frame is to be handed on. -/
  | deliver (frame : ServerFrame)
  /-- An attempt is over. -/
  | attemptEnded (epoch : Epoch)
  | statusChanged (status : ConnectionStatus) (attempt : UInt32)
  /-- The connection is given up. -/
  | failed (error : Failure)
deriving DecidableEq, Repr, Inhabited

/-- **How far an attempt has come.** -/
inductive Phase where
  | opening
  | handshaking
  | established
deriving DecidableEq, Repr, Inhabited

/-- **Whether a retry is waiting**, and for what. -/
inductive Retry where
  | idle
  /-- It waits for its timer. -/
  | scheduled
  /-- It waits for the host. -/
  | deferred
deriving DecidableEq, Repr, Inhabited

/-- **The state of a connection's life.** -/
structure Machine where
  /-- The number of the latest attempt. -/
  epoch : Epoch
  /-- The status that was reported last. -/
  status : ConnectionStatus
  /-- The number of retries that was reported with that status. -/
  reported : UInt32
  /-- Whether the user wants to be connected. -/
  desired : Bool
  hostActive : Bool
  /-- How far the latest attempt has come, unless it is over. -/
  phase : Option Phase
  retry : Retry
  backoff : Backoff
  protocol : UInt32
  handshakeTimeout : Duration
deriving DecidableEq, Repr, Inhabited

namespace Machine

/-- A connection that nobody wants yet. -/
def initial (backoff : Backoff) (protocol : UInt32) (handshakeTimeout : Duration)
    (hostActive : Bool) : Machine where
  epoch := 0
  status := .disconnected
  reported := 0
  desired := false
  hostActive := hostActive
  phase := none
  retry := .idle
  backoff := backoff
  protocol := protocol
  handshakeTimeout := handshakeTimeout

/-- The connection of a client with the given settings. -/
def ofConfig (c : Config) (hostActive : Bool) : Machine :=
  initial (.ofConfig c) c.protocolVersion c.handshakeTimeout hostActive

/-- Whether the handshake of the latest attempt is done. -/
def isEstablished (m : Machine) : Bool := m.phase = some .established

/-- Whether a retry waits for the host. -/
def isRetryDeferred (m : Machine) : Bool := m.retry = .deferred

/-- Whether `epoch` is an attempt that has come to one of the given phases
and is not over. -/
def isAt (m : Machine) (epoch : Epoch) (phases : List Phase) : Bool :=
  epoch = m.epoch && m.phase.any (· ∈ phases)

/-! ### Steps -/

/-- A machine, and what is to be done. -/
abbrev Step := Machine × List Effect

/-- One step after another. -/
def Step.andThen (s : Step) (f : Machine → Step) : Step :=
  ((f s.1).1, s.2 ++ (f s.1).2)

/-- Something is to be done. -/
def Step.effect (s : Step) (e : Effect) : Step := (s.1, s.2 ++ [e])

/-- Nothing is to be done. -/
def still (m : Machine) : Step := (m, [])

/-- Takes on a status and reports it, unless it was reported just so. -/
def setStatus (status : ConnectionStatus) (m : Machine) : Step :=
  if m.status ≠ status ∨ m.reported ≠ m.backoff.attempts then
    ({ m with status := status, reported := m.backoff.attempts },
      [.statusChanged status m.backoff.attempts])
  else (m, [])

/-- Starts an attempt. -/
def startAttempt (status : ConnectionStatus) (m : Machine) : Step :=
  let m := { m with epoch := m.epoch + 1, phase := some .opening, retry := .idle }
  Step.andThen (m, [.open m.epoch]) (setStatus status)

/-- Ends the attempt that is under way. -/
def endAttempt (m : Machine) : Step :=
  ({ m with phase := none },
    (if m.phase = some .handshaking then [.cancelHandshakeTimer] else [])
      ++ [.attemptEnded m.epoch])

/-- Gives the connection up. -/
def terminate (error : Failure) (m : Machine) : Step :=
  let m := { m with desired := false, retry := .idle }
  (Step.andThen (m, [.cancelRetry]) (setStatus .disconnected)).effect (.failed error)

/-- Waits for the next retry, or gives up if there is none. -/
def scheduleRetry (m : Machine) : Step :=
  if m.desired then
    match m.backoff.next? with
    | some (delay, backoff) =>
      Step.andThen ({ m with backoff := backoff, retry := .scheduled },
        [.scheduleRetry m.epoch delay]) (setStatus .reconnecting)
    | none => terminate (.connection (.attemptsExhausted m.backoff.attempts)) m
  else setStatus .disconnected m

/-- Ends the attempt and waits for the next retry. -/
def retryAfterEnd (m : Machine) : Step := Step.andThen m.endAttempt scheduleRetry

/-! ### Inputs -/

/-- The user wants to be connected. -/
def onConnect (m : Machine) : Step :=
  if m.desired ∧ (m.phase ≠ none ∨ m.retry ≠ .idle) then m.still
  else
    let m := { m with desired := true, backoff := m.backoff.reset }
    if m.hostActive then m.startAttempt .connecting
    else setStatus .connecting { m with retry := .deferred }

/-- Ends the attempt that is under way, if there is one. -/
def abandonAttempt (m : Machine) : Step :=
  if m.phase = none then m.still
  else Step.andThen (m, [.close m.epoch]) endAttempt

/-- The user no longer wants to be connected. The epoch moves on, so that
nothing is heard any more of the attempt that was under way. -/
def onDisconnect (m : Machine) : Step :=
  let m := { m with desired := false, retry := .idle }
  (Step.andThen (m, [.cancelRetry]) abandonAttempt).andThen fun m =>
    setStatus .disconnected { m with epoch := m.epoch + 1, backoff := m.backoff.reset }

/-- The status of an attempt that the host's return starts. -/
def statusOnReturn (m : Machine) : ConnectionStatus :=
  match m.status with
  | .connecting => .connecting
  | .disconnected | .connected | .reconnecting => .reconnecting

/-- The host has become active or inactive. -/
def onHost (active : Bool) (m : Machine) : Step :=
  let m := { m with hostActive := active }
  if active ∧ m.desired ∧ m.phase = none then
    let m := { m with backoff := m.backoff.reset }
    Step.andThen (m, [.cancelRetry]) fun m => m.startAttempt m.statusOnReturn
  else m.still

/-- The transport of an attempt is open. -/
def onOpened (epoch : Epoch) (m : Machine) : Step :=
  if m.isAt epoch [.opening] then
    ({ m with phase := some .handshaking },
      [.send epoch (.hello m.protocol), .startHandshakeTimer epoch m.handshakeTimeout])
  else m.still

/-- The transport of an attempt could not be opened. -/
def onOpenFailed (epoch : Epoch) (error : Failure) (m : Machine) : Step :=
  if m.isAt epoch [.opening] then
    Step.andThen m.endAttempt fun m =>
      if error.isTerminal then m.terminate error else m.scheduleRetry
  else m.still

/-- The server has answered `hello`. -/
def onHelloAck (user : Option Int64) (m : Machine) : Step :=
  if m.phase = some .handshaking then
    let m := { m with phase := some .established, backoff := m.backoff.reset }
    (Step.andThen (m, [.cancelHandshakeTimer]) (setStatus .connected)).effect
      (.established m.epoch user)
  else m.still

/-- A frame arrived. -/
def onFrame (epoch : Epoch) (frame : ServerFrame) (m : Machine) : Step :=
  if m.isAt epoch [.handshaking, .established] then
    match frame with
    | .helloAck _ user => m.onHelloAck user
    | frame => (m, [.deliver frame])
  else m.still

/-- The transport closed. -/
def onClosed (epoch : Epoch) (m : Machine) : Step :=
  if m.isAt epoch [.opening, .handshaking, .established] then m.retryAfterEnd else m.still

/-- An attempt in one of the given phases has to be closed. -/
def onLost (epoch : Epoch) (phases : List Phase) (m : Machine) : Step :=
  if m.isAt epoch phases then Step.andThen (m, [.close epoch]) retryAfterEnd else m.still

/-- The timer of a retry has fired. -/
def onRetryFired (epoch : Epoch) (m : Machine) : Step :=
  if epoch = m.epoch ∧ m.retry = .scheduled then
    if m.hostActive then m.startAttempt .reconnecting
    else ({ m with retry := .deferred }, [])
  else m.still

/-- **Takes one input**: the state after it, and what is to be done. -/
def handle (m : Machine) : Input → Step
  | .connect => m.onConnect
  | .disconnect => m.onDisconnect
  | .opened epoch => m.onOpened epoch
  | .openFailed epoch error => m.onOpenFailed epoch error
  | .frame epoch frame => m.onFrame epoch frame
  | .transportError _ _ => m.still
  | .closed epoch => m.onClosed epoch
  | .stalled epoch => m.onLost epoch [.handshaking, .established]
  | .handshakeTimedOut epoch => m.onLost epoch [.handshaking]
  | .retryFired epoch => m.onRetryFired epoch
  | .host active => m.onHost active

/-- Takes inputs one after another: the state after them, and all that is
to be done. -/
def run (m : Machine) (inputs : List Input) : Step :=
  inputs.foldl (fun s i => s.andThen (handle · i)) (m, [])

end Machine

end LiveSync.Connection
