import LiveSync.Connection.Machine
import LiveSync.Event
import LiveSync.Receipt
import LiveSync.Table

/-!
# The manager of a connection

The manager carries out what the life of a connection asks for. Everything
that can affect the connection reaches it as one message after another: a
command of the user, an input of an attempt or a timer, or the activity of
the host. It answers each with **orders**: to open an attempt, to transmit
a frame on it or to retire it, to arm or disarm a timer, to publish an
event, to report to the rest of the client, and to answer callers.

A command that was transmitted is **pending** until its answer arrives or
its attempt ends, and belongs to that attempt. Frames that are to be sent
while no handshake is done are dropped; subscriptions are replayed when
one is done.
-/

namespace LiveSync

/-- The number of a call that waits for an answer. -/
abbrev CallId := Nat

namespace Connection

open LiveSync.Wire

/-- **What a user asks of a connection.** -/
inductive Command where
  | connect
  | disconnect
  /-- Sends a frame, if there is a connection. -/
  | send (frame : ClientFrame)
  /-- Sends an action and answers the caller. -/
  | submit (request : RequestId) (id : EntityId) (version : Version) (action : Action)
    (caller : CallId)
  | shutdown
deriving DecidableEq, Repr, Inhabited

/-- **What reaches the manager.** -/
inductive ManagerMessage where
  | command (c : Command)
  | input (i : Input)
  | host (active : Bool)
deriving DecidableEq, Repr, Inhabited

/-- **What the manager tells the rest of the client.** -/
inductive Report where
  /-- A handshake is done and the subscriptions were replayed. -/
  | established (epoch : Epoch) (user : Option Int64)
  | frame (frame : ServerFrame)
  /-- The connection was given up. -/
  | failed (error : Failure)
deriving DecidableEq, Repr, Inhabited

/-- **What the manager orders.** -/
inductive Order where
  | openAttempt (epoch : Epoch)
  | transmit (epoch : Epoch) (frame : ClientFrame)
  /-- Nothing more will be transmitted on an attempt. -/
  | retire (epoch : Epoch)
  | armHandshake (epoch : Epoch) (timeout : Duration)
  | disarmHandshake
  | armRetry (epoch : Epoch) (delay : Duration)
  | disarmRetry
  | publish (event : Event)
  | report (report : Report)
  | reply (caller : CallId) (result : Except Failure.Command Receipt)
deriving Repr

/-- A command whose answer is awaited. -/
structure PendingCommand where
  /-- The attempt it was transmitted on. -/
  epoch : Epoch
  caller : CallId
deriving DecidableEq, Repr, Inhabited

/-- **What the manager sees of its surroundings** at a step. -/
structure Surroundings where
  /-- The topics that somebody is interested in. -/
  topics : List Topic
  /-- Whether a caller still waits. -/
  waiting : CallId → Bool
  /-- Whether an attempt still takes what is transmitted. -/
  listening : Epoch → Bool

/-- **The manager.** -/
structure Manager where
  machine : Machine
  /-- The attempt that frames are transmitted on. -/
  attempt : Option Epoch
  /-- The attempt that the handshake timer is armed for. -/
  handshakeTimer : Option Epoch
  /-- The attempt that the retry timer follows. -/
  retryTimer : Option Epoch
  pending : Table RequestId PendingCommand
  /-- What observers see. -/
  published : ConnectionState
  stopped : Bool
deriving DecidableEq, Repr

namespace Manager

/-- The manager of a connection that nobody wants yet. -/
def start (machine : Machine) : Manager where
  machine := machine
  attempt := none
  handshakeTimer := none
  retryTimer := none
  pending := .empty
  published := .initial
  stopped := false

/-- A manager, and its orders. -/
abbrev Step := Manager × List Order

/-- One step after another. -/
def Step.andThen (s : Step) (f : Manager → Step) : Step := ((f s.1).1, s.2 ++ (f s.1).2)

/-- Whether a frame can be transmitted. -/
def canTransmit (env : Surroundings) (m : Manager) : Bool := m.attempt.any env.listening

/-- The order to transmit a frame, if it can be. -/
def transmit (env : Surroundings) (m : Manager) (frame : ClientFrame) : List Order :=
  match m.attempt with
  | some epoch => if env.listening epoch then [.transmit epoch frame] else []
  | none => []

/-- The failure that a code of the server names. -/
def commandFailure (code message : String) : Failure.Command :=
  match code with
  | "forbidden" => .forbidden message
  | "conflict" | "version_conflict" => .conflict message
  | _ => .rejected code message

/-- The failure of a command whose connection was lost. -/
def lost : Failure.Command := .delivery "connection lost before acknowledgement"

/-- The failure of a command that finds no connection. -/
def unconnected : Failure.Command := .delivery Failure.Connection.notConnected.message

/-- The failure of a command that finds no manager. -/
def gone : Failure.Command := .delivery Failure.Connection.shutdown.message

/-- Answers a pending command. -/
def answer (m : Manager) (request : RequestId) (p : PendingCommand)
    (result : Except Failure.Command Receipt) : Step :=
  ({ m with pending := m.pending.erase request }, [.reply p.caller result])

/-- **Hands a frame on**: to the caller it answers, if it is the answer to a
pending command, and otherwise to the rest of the client. -/
def deliver (m : Manager) (frame : ServerFrame) : Step :=
  match frame with
  | .commandAck request version =>
    match m.pending.get? request with
    | some p => m.answer request p (.ok ⟨version⟩)
    | none => (m, [])
  | .error code message (some request) =>
    match m.pending.get? request with
    | some p => m.answer request p (.error (commandFailure code message))
    | none => (m, [.report (.frame frame)])
  | frame => (m, [.report (.frame frame)])

/-- Lets go of an attempt. -/
def retire (m : Manager) (epoch : Epoch) : Step :=
  if m.attempt = some epoch then ({ m with attempt := none }, [.retire epoch]) else (m, [])

/-- Answers the commands that are pending on an attempt. -/
def failPending (m : Manager) (epoch : Epoch) : Step :=
  ({ m with pending := m.pending.filter fun _ p => p.epoch ≠ epoch },
    (m.pending.pairs.filter fun p => p.2.epoch = epoch).map fun p =>
      .reply p.2.caller (.error lost))

/-- **Carries out one effect.** -/
def execute (env : Surroundings) (m : Manager) : Effect → Step
  | .open epoch => ({ m with attempt := some epoch },
      .openAttempt epoch :: (m.attempt.map Order.retire).toList)
  | .send epoch frame => (m, if m.attempt = some epoch then m.transmit env frame else [])
  | .close epoch => m.retire epoch
  | .startHandshakeTimer epoch timeout =>
    ({ m with handshakeTimer := some epoch }, [.armHandshake epoch timeout])
  | .cancelHandshakeTimer => ({ m with handshakeTimer := none }, [.disarmHandshake])
  | .scheduleRetry epoch delay => ({ m with retryTimer := some epoch }, [.armRetry epoch delay])
  | .cancelRetry => ({ m with retryTimer := none }, [.disarmRetry])
  | .established epoch user =>
    (m, env.topics.flatMap (fun topic => m.transmit env (.subscribe topic))
      ++ [.report (.established epoch user)])
  | .deliver frame => m.deliver frame
  | .attemptEnded epoch => Step.andThen (m.retire epoch) (failPending · epoch)
  | .statusChanged status attempt =>
    ({ m with published := ⟨status, attempt, m.machine.epoch⟩ },
      [.publish (.connectionChanged status attempt)])
  | .failed error => (m, [.report (.failed error)])

/-- Carries out effects in their order. -/
def executeAll (env : Surroundings) (m : Manager) (effects : List Effect) : Step :=
  effects.foldl (fun s e => s.andThen (execute env · e)) (m, [])

/-- Feeds an input to the life of the connection. -/
def feed (env : Surroundings) (m : Manager) (input : Input) : Step :=
  let (machine, effects) := m.machine.handle input
  executeAll env { m with machine := machine } effects

/-- Sends an action, if there is a connection. The callers that no longer
wait are forgotten then. -/
def submit (env : Surroundings) (m : Manager) (request : RequestId) (id : EntityId)
    (version : Version) (action : Action) (caller : CallId) : Step :=
  if m.machine.isEstablished ∧ m.canTransmit env then
    let waiting := m.pending.filter fun _ p => env.waiting p.caller
    ({ m with pending := waiting.insert request ⟨m.machine.epoch, caller⟩ },
      m.transmit env (.command request id version action))
  else (m, [.reply caller (.error unconnected)])

/-- Disconnects and stops. Disconnecting lets go of the attempt, of the
timers and of all pending commands, so that nothing is left to be done. -/
def stop (env : Surroundings) (m : Manager) : Step :=
  (m.feed env .disconnect).andThen fun m => ({ m with stopped := true }, [])

/-- Obeys a command. -/
def obey (env : Surroundings) (m : Manager) : Command → Step
  | .connect => m.feed env .connect
  | .disconnect => m.feed env .disconnect
  | .send frame => (m, if m.machine.isEstablished then m.transmit env frame else [])
  | .submit request id version action caller => m.submit env request id version action caller
  | .shutdown => m.stop env

/-- **Takes one message.** A manager that has stopped takes none. -/
def handle (env : Surroundings) (m : Manager) (message : ManagerMessage) : Step :=
  if m.stopped then (m, [])
  else
    match message with
    | .command c => m.obey env c
    | .input i => m.feed env i
    | .host active => m.feed env (.host active)

end Manager

end Connection

end LiveSync
