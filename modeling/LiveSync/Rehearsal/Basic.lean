import LiveSync.Client.Step

/-!
# Rehearsals

A **rehearsal** runs a client against a world that follows a script: servers
that accept connections or refuse them, and an API that answers after a
given time or not at all. Nothing in it takes real time. The clock stands
still while anything can move, and then goes to the next deadline.

This module holds the parts of the world: pipes between the client and a
server, and what the API was told to answer.
-/

namespace LiveSync

open LiveSync.Connection

namespace Rehearsal

/-- **A connection between the client and a server.** -/
structure Pipe where
  /-- What the client has sent and the server has not read. -/
  toServer : List String
  /-- What the server has sent and the client has not heard. -/
  toClient : List Message
  serverUp : Bool
  clientUp : Bool
deriving DecidableEq, Repr

/-- A connection on which nothing was sent. -/
def Pipe.fresh : Pipe := ⟨[], [], true, true⟩

/-- **What the API answers to a fetch.** -/
structure FetchScript where
  /-- How long it takes; nothing, if there is no answer ever. -/
  latency : Option Clock
  error : Option Failure.Fetch
  /-- Whether the answer is that nothing has changed, whatever was asked. -/
  unchanged : Bool
  /-- Whether the state is sent even to a client that has it. -/
  always : Bool
  version : Version
  payload : Json
  validator : Option Validator
deriving Repr

namespace FetchScript

/-- Whether the answer is that nothing has changed. -/
def isUnchanged (s : FetchScript) (asked : Option Validator) : Bool :=
  s.unchanged || (!s.always && (asked.bind Validator.version?) == some s.version)

/-- The answer to a fetch of an entity. -/
def answer (s : FetchScript) (id : EntityId) (asked : Option Validator) (now : Instant) :
    Except Failure.Fetch FetchOutcome :=
  match s.error with
  | some f => .error f
  | none =>
    if s.isUnchanged asked then .ok .notModified
    else .ok (.modified (.http id s.version s.payload s.validator now))

end FetchScript

/-- **What the API answers to a command.** -/
structure SubmitScript where
  /-- How long it takes; nothing, if there is no answer ever. -/
  latency : Option Clock
  result : Except Failure.Command Receipt
deriving Repr

/-- The API accepts a command at once. -/
def SubmitScript.accept : SubmitScript := ⟨some 0, .ok ⟨none⟩⟩

/-- An answer that is on its way. -/
structure Due (κ α : Type) where
  key : κ
  deadline : Clock
  answer : α
deriving Repr

/-- **What is seen of an entity.** -/
structure View where
  /-- The entry that is shown; its time is left out. -/
  current : Entry
  /-- The version of the server's latest entry. -/
  authoritative : Version
  pending : Bool
  isTurn : Option Bool
  watching : Bool
deriving DecidableEq, Repr

/-- A command that the API got. -/
structure Submitted where
  entity : EntityId
  action : Action
  ifMatch : Option Validator
deriving DecidableEq, Repr

end Rehearsal

/-- **A rehearsal.** -/
structure Rehearsal where
  client : Client
  pipes : Table Epoch Rehearsal.Pipe
  /-- The transports that were asked for. -/
  requested : List Epoch
  /-- How the next requests for a transport fail. -/
  refusals : List Failure
  /-- How many transports were asked for. -/
  attempts : Nat
  /-- The connections that no server has accepted yet. -/
  opened : List Epoch
  acceptorUp : Bool
  /-- The connections that were accepted. -/
  servers : List Epoch
  fetchScripts : Table EntityId Rehearsal.FetchScript
  submitScripts : List Rehearsal.SubmitScript
  fetchesDue : List (Rehearsal.Due FetchId (EntityId × Rehearsal.FetchScript × Option Validator))
  submitsDue : List (Rehearsal.Due CallId (Except Failure.Command Receipt))
  /-- The identifiers of requests, in the order in which they arrived. -/
  requests : List RequestId
  /-- In which scene each call was made. -/
  scenes : Table CallId Nat
  /-- The fetches of this scene. -/
  fetches : List (EntityId × Option Validator)
  /-- The commands of this scene that the API got. -/
  submits : List Rehearsal.Submitted
  /-- The calls that ended in this scene. -/
  done : List (Nat × CallResult)
  /-- How many moves the client has made. -/
  moves : Nat
  /-- The number of the scene. -/
  scene : Nat
  /-- The servers whose client is known to be gone. -/
  deserted : List Nat
  /-- What was seen last of each entity. -/
  shown : Table EntityId Rehearsal.View
deriving Repr

namespace Rehearsal

/-- The observer's number among the receivers of the client's events. -/
def observer : Nat := 1

/-- A rehearsal that is about to begin, with a client nobody observes yet. -/
def start (client : Client) : Rehearsal where
  client := { client with bus := client.bus.subscribe.1 }
  pipes := .empty
  requested := []
  refusals := []
  attempts := 0
  opened := []
  acceptorUp := true
  servers := []
  fetchScripts := .empty
  submitScripts := []
  fetchesDue := []
  submitsDue := []
  requests := []
  scenes := .empty
  fetches := []
  submits := []
  done := []
  moves := 0
  scene := 0
  deserted := []
  shown := .empty

/-! ### The world -/

/-- Writes a pipe. -/
def setPipe (r : Rehearsal) (epoch : Epoch) (p : Pipe) : Rehearsal :=
  { r with pipes := r.pipes.insert epoch p }

/-- Changes a pipe. -/
def onPipe (r : Rehearsal) (epoch : Epoch) (f : Pipe → Pipe) : Rehearsal :=
  match r.pipes.get? epoch with
  | some p => r.setPipe epoch (f p)
  | none => r

/-- The API gets a fetch. -/
def takeFetch (r : Rehearsal) (id : FetchId) (entity : EntityId) (asked : Option Validator) :
    Rehearsal :=
  let r := { r with fetches := r.fetches ++ [(entity, asked)] }
  let script := (r.fetchScripts.get? entity).getD
    ⟨some 0, some (.notFound entity), false, false, 0, .null, none⟩
  match script.latency with
  | none => r
  | some latency =>
    { r with
      fetchesDue := r.fetchesDue ++ [⟨id, r.client.now + latency, (entity, script, asked)⟩] }

/-- The API gets a command. -/
def takeSubmit (r : Rehearsal) (caller : CallId) (s : Submitted) : Rehearsal :=
  let r := { r with submits := r.submits ++ [s] }
  let script := r.submitScripts.head?.getD .accept
  let r := { r with submitScripts := r.submitScripts.tail }
  match script.latency with
  | none => r
  | some latency =>
    { r with submitsDue := r.submitsDue ++ [⟨caller, r.client.now + latency, script.result⟩] }

/-- **The world takes up what concerns it.** -/
def act (r : Rehearsal) : ClientAction → Rehearsal
  | .connect epoch => { r with requested := r.requested ++ [epoch] }
  | .send epoch text => r.onPipe epoch fun p => { p with toServer := p.toServer ++ [text] }
  | .close epoch => r.onPipe epoch fun p => { p with clientUp := false }
  | .fetch id entity validator => r.takeFetch id entity validator
  | .submit caller entity action ifMatch => r.takeSubmit caller ⟨entity, action, ifMatch⟩
  | .finish caller result =>
    { r with
      done := r.done ++ ((r.scenes.get? caller).map fun n => (n, result)).toList
      scenes := r.scenes.erase caller }

/-- **The client makes a move.** -/
def move (r : Rehearsal) (m : Move) : Rehearsal :=
  let (c, actions) := r.client.step m
  actions.foldl act { r with client := c, moves := r.moves + 1 }

end Rehearsal

end LiveSync
