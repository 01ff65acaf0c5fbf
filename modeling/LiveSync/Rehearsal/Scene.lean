import LiveSync.Rehearsal.Settle

/-!
# Scenes

A rehearsal goes scene by scene. A **cue** starts a scene: the user does
something, the world does something, or time passes. Then everything
settles, and the **observation** says what could be seen of it: the state
of the connection, what servers and the API got, which calls ended, which
events were published, and what has changed in the cache.
-/

namespace LiveSync.Rehearsal

open LiveSync.Connection

/-- **What starts a scene.** -/
inductive Cue where
  | connect
  | disconnect
  /-- The next request for a transport will fail. -/
  | refuse (failure : Failure)
  /-- A server accepts the next connection, and greets the user if there is
  one. -/
  | accept (user : Option Int64)
  | send (server : Option Nat) (text : String)
  | heartbeat (server : Option Nat)
  | drop (server : Option Nat)
  | closeAcceptor
  | advance (time : Clock)
  | scriptFetch (id : EntityId) (script : FetchScript)
  | scriptSubmit (script : SubmitScript)
  | load (id : EntityId)
  | refresh (id : EntityId)
  | submit (m : Mutation)
  | command (id : EntityId) (version : Version) (action : Action)
  | wait (status : ConnectionStatus)
  | subscribe (id : EntityId) (seat : Option Seat)
  | unsubscribe (handle : Nat)
  /-- A state is pushed past the connection. -/
  | push (id : EntityId) (version : Version) (payload : Json)
  | pushAll (states : List (EntityId × Version × Json))
  | look (id : EntityId)
  | host (s : Host.Signal)
  | hostAll (signals : List Host.Signal)
  /-- All callers give up. -/
  | abandon
  | shutdown
deriving Repr

/-- **What a cue is answered with.** -/
inductive Answer where
  | nothing
  /-- There is no connection to accept. -/
  | noConnection
  | accepted (server : Nat) (hello : Option UInt32)
  /-- Whether the client can hear the server. -/
  | heard (yes : Bool)
  | handle (n : Nat)
  | entry (e : Option Entry)
  | outcome (o : ApplyOutcome)
  | outcomes (os : List ApplyOutcome)
  /-- Whether the host is active. -/
  | active (yes : Bool)
  | actives (each : List Bool)
deriving Repr

/-- **What is seen of a scene.** -/
structure Observation where
  answer : Answer
  state : ConnectionState
  attempts : Nat
  /-- The frames that servers got, with the numbers of the servers. -/
  frames : List (Nat × Wire.ClientFrame)
  /-- The servers whose client has gone. -/
  deserted : List Nat
  /-- The events that the observer could still read, by kind. -/
  events : List Event
  /-- How many events it lost. -/
  lost : Nat
  done : List (Nat × CallResult)
  fetches : List (EntityId × Option Validator)
  submits : List Submitted
  changed : List (EntityId × View)
  error : Option String
deriving Repr

/-! ### Cues -/

/-- A rehearsal with the answer to a cue. -/
abbrev Played := Rehearsal × Answer

/-- The client makes a move, if it was not shut down. -/
def use (r : Rehearsal) (m : Move) : Rehearsal := if r.client.isOpen then r.move m else r

/-- A user makes a call. -/
def makeCall (r : Rehearsal) (m : Move) : Rehearsal :=
  if r.client.isOpen then
    { r with scenes := r.scenes.insert r.client.fresh r.scene }.move m
  else r

/-- All callers give up. -/
def abandonAll (r : Rehearsal) : Rehearsal :=
  r.client.calls.keys.foldl (fun r caller => r.move (.abandon caller)) r

/-- The frame of a text that a client has sent. -/
def readFrame? (text : String) : Option Wire.ClientFrame :=
  (Json.parse? text).bind Wire.ClientFrame.ofJson?

/-- The first frame of several texts, and the texts after it. -/
def firstFrame? : List String → Option (Wire.ClientFrame × List String)
  | [] => none
  | t :: rest =>
    match readFrame? t with
    | some f => some (f, rest)
    | none => firstFrame? rest

/-- A server says something, if the client can hear it. -/
def say (r : Rehearsal) (epoch : Epoch) (m : Message) : Played :=
  match r.pipes.get? epoch with
  | some p =>
    if !p.serverUp then (r, .nothing)
    else if p.clientUp then
      (r.setPipe epoch { p with toClient := p.toClient ++ [m] }, .heard true)
    else (r, .heard false)
  | none => (r, .nothing)

/-- A server reads `hello` and answers it. -/
def greet (r : Rehearsal) (epoch : Epoch) (user : Int64) : Rehearsal × Option UInt32 :=
  match r.pipes.get? epoch with
  | some p =>
    match firstFrame? p.toServer with
    | some (.hello protocol, rest) =>
      let r := r.setPipe epoch { p with toServer := rest }
      let ack : Wire.ServerFrame := .helloAck (some protocol) (some user)
      ((r.say epoch (.text ack.encode)).1, some protocol)
    | some (_, rest) => (r.setPipe epoch { p with toServer := rest }, none)
    | none => (r.setPipe epoch { p with toServer := [] }, none)
  | none => (r, none)

/-- A server accepts the next connection. -/
def accept (r : Rehearsal) (user : Option Int64) : Played :=
  match r.opened with
  | [] => (r, .noConnection)
  | epoch :: rest =>
    let n := r.servers.length
    let r := { r with opened := rest, servers := r.servers ++ [epoch] }
    match user with
    | none => (r, .accepted n none)
    | some u =>
      let (r, hello) := r.greet epoch u
      (r, .accepted n hello)

/-- The connection of a server, by default of the newest one. -/
def server? (r : Rehearsal) (n : Option Nat) : Option Epoch :=
  match n with
  | some n => r.servers[n]?
  | none => r.servers.getLast?

/-- A server goes. -/
def hangUp (r : Rehearsal) (epoch : Epoch) : Rehearsal :=
  r.onPipe epoch fun p => { p with serverUp := false, toServer := [] }

/-- The placeholder of a request in a script. -/
def requestName (n : Nat) : String := "$R" ++ Decimal.natText n ++ "$"

/-- A text of a script with the requests it names. -/
def fillIn (r : Rehearsal) (text : String) : String :=
  r.requests.zipIdx.foldl (fun t p => t.replace (requestName p.2) p.1.text) text

/-- A state is pushed past the connection. -/
def push (r : Rehearsal) (id : EntityId) (version : Version) (payload : Json) :
    Rehearsal × ApplyOutcome :=
  (r.move (.push id version payload),
    (r.client.engine.cache.applyPush id version payload r.client.instant).result)

/-- The host reports something. -/
def signal (r : Rehearsal) (s : Host.Signal) : Rehearsal × Bool :=
  let r := r.move (.host s)
  (r, r.client.host.isActive)

/-- Does something for each of several things, and collects the answers. -/
def each {α β : Type} (f : Rehearsal → α → Rehearsal × β) (r : Rehearsal) :
    List α → Rehearsal × List β
  | [] => (r, [])
  | x :: rest =>
    let (r, y) := f r x
    let (r, ys) := each f r rest
    (r, y :: ys)

/-- What a cue does before everything settles. -/
def play (r : Rehearsal) : Cue → Played
  | .connect => (r.use .connect, .nothing)
  | .disconnect => (r.use .disconnect, .nothing)
  | .refuse failure => ({ r with refusals := r.refusals ++ [failure] }, .nothing)
  | .accept user => r.accept user
  | .send server text =>
    match r.server? server with
    | some epoch => r.say epoch (.text (r.fillIn text))
    | none => (r, .nothing)
  | .heartbeat server =>
    match r.server? server with
    | some epoch => r.say epoch .heartbeat
    | none => (r, .nothing)
  | .drop server =>
    match r.server? server with
    | some epoch => (r.hangUp epoch, .nothing)
    | none => (r, .nothing)
  | .closeAcceptor =>
    ({ r.opened.foldl hangUp r with opened := [], acceptorUp := false }, .nothing)
  | .advance time => (r.advanceTo (r.client.now + time), .nothing)
  | .scriptFetch id script =>
    ({ r with fetchScripts := r.fetchScripts.insert id script }, .nothing)
  | .scriptSubmit script => ({ r with submitScripts := r.submitScripts ++ [script] }, .nothing)
  | .load id => (r.makeCall (.load id), .nothing)
  | .refresh id => (r.makeCall (.refresh id), .nothing)
  | .submit m => (r.makeCall (.submit m), .nothing)
  | .command id version action => (r.makeCall (.command id version action), .nothing)
  | .wait status => (r.makeCall (.wait status), .nothing)
  | .subscribe id seat =>
    if r.client.isOpen then
      (r.move (.subscribe id seat), .handle r.client.subscriptions.length)
    else (r, .nothing)
  | .unsubscribe handle => (r.move (.unsubscribe handle), .nothing)
  | .push id version payload =>
    let (r, o) := r.push id version payload
    (r, .outcome o)
  | .pushAll states =>
    let (r, os) := each (fun r s => r.push s.1 s.2.1 s.2.2) r states
    (r, .outcomes os)
  | .look id => (r, .entry (r.client.engine.cache.current? id))
  | .host s =>
    let (r, active) := r.signal s
    (r, .active active)
  | .hostAll signals =>
    let (r, actives) := each signal r signals
    (r, .actives actives)
  | .abandon => (r.abandonAll, .nothing)
  | .shutdown => (r.abandonAll.move .shutdown, .nothing)

/-! ### Observations -/

/-- What is seen of an entity. -/
def view? (c : Client) (id : EntityId) : Option View :=
  (c.engine.cache.slot? id).map fun s =>
    ⟨{ s.current with receivedAt := default }, s.authoritative.version, s.pending,
      c.engine.turns.isTurn? id, c.engine.turns.isWatching id⟩

/-- The entities of which something else is seen than last time. -/
def changes (r : Rehearsal) : List (EntityId × View) :=
  r.client.engine.cache.ids.filterMap fun id =>
    (view? r.client id).bind fun v => if r.shown.get? id = some v then none else some (id, v)

/-- Notes the identifier of a request. -/
def noteRequest (requests : List RequestId) : Wire.ClientFrame → List RequestId
  | .command request _ _ _ => if request ∈ requests then requests else requests ++ [request]
  | _ => requests

/-- Whether a server is there. -/
def isUp (r : Rehearsal) (epoch : Epoch) : Bool := (r.pipes.get? epoch).any Pipe.serverUp

/-- The frames that a server got. -/
def framesOf (r : Rehearsal) (n : Nat) (epoch : Epoch) : List (Nat × Wire.ClientFrame) :=
  if r.isUp epoch then
    (((r.pipes.get? epoch).map Pipe.toServer).getD []).filterMap fun t =>
      (readFrame? t).map fun f => (n, f)
  else []

/-- The servers whose client has gone since the last scene. -/
def newlyDeserted (r : Rehearsal) : List Nat :=
  r.servers.zipIdx.filterMap fun p =>
    match r.pipes.get? p.1 with
    | some pipe =>
      if pipe.serverUp && !pipe.clientUp && !r.deserted.contains p.2 then some p.2 else none
    | none => none

/-- Events ordered by kind, those of one kind as they came. -/
def byKind (events : List Event) : List Event :=
  events.mergeSort fun a b => a.kind ≤ b.kind

/-- What the observer reads: how many events it lost, and the others. -/
def readEvents (r : Rehearsal) : Rehearsal × Nat × List Event :=
  let (bus, readings) := r.client.bus.drain observer
  let lost := readings.foldl (fun n x => match x with | .lagged k => n + k | _ => n) 0
  let events := readings.filterMap fun x => match x with | .item e => some e | _ => none
  ({ r with client := { r.client with bus := bus } }, lost, byKind events)

/-- **What is seen of a scene**, and the rehearsal after it. -/
def observe (r : Rehearsal) (answer : Answer) : Rehearsal × Observation :=
  let (r, lost, events) := r.readEvents
  let frames := r.servers.zipIdx.flatMap fun p => r.framesOf p.2 p.1
  let deserted := r.newlyDeserted
  let changed := r.changes
  let seen : Observation := {
    answer := answer
    state := r.client.link.state
    attempts := r.attempts
    frames := frames
    deserted := deserted
    events := events
    lost := lost
    done := r.done.mergeSort fun a b => a.1 ≤ b.1
    fetches := r.fetches
    submits := r.submits
    changed := changed
    error := if r.client.isOpen then r.client.engine.notice.shown else none }
  let r := r.servers.foldl (fun r epoch => r.onPipe epoch fun p => { p with toServer := [] }) r
  ({ r with
      requests := frames.foldl (fun rs f => noteRequest rs f.2) r.requests
      deserted := r.deserted ++ deserted
      shown := changed.foldl (fun t p => t.insert p.1 p.2) r.shown
      fetches := []
      submits := []
      done := []
      scene := r.scene + 1 }, seen)

/-- **Plays one scene.** -/
def perform (r : Rehearsal) (cue : Cue) : Rehearsal × Observation :=
  let (r, answer) := r.play cue
  r.settle.observe answer

end LiveSync.Rehearsal
