import LiveSync.Connection.Link
import LiveSync.Engine.Basic
import LiveSync.Host
import LiveSync.Sync.Coordinator
import LiveSync.Sync.Refresh

/-!
# The client

A **client** keeps copies of a server's entities up to date. It consists of
the engine, the link, the commands on their way, and the fetches that are
under way; its parts tell each other what happens by queues and by the
events it publishes.

Nothing moves by itself. Whoever runs the client chooses which part takes
its next step (`Client.step`), and gets the **actions** that concern the
world outside: to open a transport, to send a text on it, to fetch an
entity, to submit a command, to answer a caller.

A caller who asks for something that takes time gets the number of a
**call**, under which the answer will come.
-/

namespace LiveSync

open LiveSync.Connection

/-- The number of a fetch. -/
abbrev FetchId := Nat

/-- **What a fetch is made for.** -/
inductive Purpose where
  /-- A caller wants to load the entity. -/
  | load (caller : CallId)
  /-- A caller wants the entity in full. -/
  | refresh (caller : CallId)
  /-- A handshake was done. -/
  | resync
  /-- A watchdog has woken up. -/
  | confirm
deriving DecidableEq, Repr, Inhabited

namespace Purpose

/-- Whether a fetch is made for a caller. -/
def isFor (caller : CallId) : Purpose → Bool
  | .load c | .refresh c => c = caller
  | .resync | .confirm => false

/-- Whether a fetch is made in the background. -/
def isBackground : Purpose → Bool
  | .load _ | .refresh _ => false
  | .resync | .confirm => true

end Purpose

/-- **A fetch under way.** -/
structure Fetch where
  id : FetchId
  entity : EntityId
  /-- When it counts as failed. -/
  deadline : Clock
  purpose : Purpose
deriving DecidableEq, Repr

/-- **What a caller waits for.** -/
inductive Call where
  | load
  | refresh
  | submit
  /-- A command for the live connection, without a guess. -/
  | command
  /-- A status of the connection. -/
  | wait (status : ConnectionStatus)
deriving DecidableEq, Repr, Inhabited

/-- **What a caller gets.** -/
inductive CallResult where
  | loaded (result : Except Failure.Fetch Entry)
  | refreshed (result : Except Failure.Fetch RefreshOutcome)
  | submitted (result : Except Failure.Command Receipt)
  | waited (result : Except Failure.Connection ConnectionState)
deriving Repr

/-- **What concerns the world outside.** -/
inductive ClientAction where
  /-- Asks for a transport. -/
  | connect (epoch : Epoch)
  /-- Sends a text on a transport. -/
  | send (epoch : Epoch) (text : String)
  /-- Closes a transport. -/
  | close (epoch : Epoch)
  | fetch (id : FetchId) (entity : EntityId) (validator : Option Validator)
  /-- Submits a command by way of the API. -/
  | submit (caller : CallId) (entity : EntityId) (action : Action)
    (ifMatch : Option Validator)
  | finish (caller : CallId) (result : CallResult)
deriving Repr

/-- **A client.** -/
structure Client where
  config : Config
  now : Clock
  engine : Engine
  /-- The events; the watch for turns is their receiver number zero. -/
  bus : Channel Event
  /-- The host; the manager is its listener number zero. -/
  host : Host
  link : Link
  /-- What the manager has reported and nobody has taken up yet. -/
  reports : List Report
  coordinator : Coordinator
  /-- The resynchronization that is under way. -/
  resync : Option Resync
  fetches : List Fetch
  calls : Table CallId Call
  /-- All subscriptions that were ever taken; nothing, once given up. -/
  subscriptions : List (Option Subscription)
  /-- The next number for a call, a fetch or a request. -/
  fresh : Nat
  /-- Whether the client was not shut down. -/
  isOpen : Bool
deriving Repr

namespace Client

/-- A client with the given settings, on a host in the given condition. -/
def start (config : Config) (host : Host.Condition) : Client where
  config := config
  now := 0
  engine := .initial
  bus := ((Channel.withCapacity config.eventCapacity.toNat).subscribe).1
  host := ⟨host, ((Channel.withCapacity Host.capacity).subscribe).1⟩
  link := .start config host.isActive
  reports := []
  coordinator := .empty
  resync := none
  fetches := []
  calls := .empty
  subscriptions := []
  fresh := 0
  isOpen := true

/-- A client, and what concerns the world outside. -/
abbrev Step := Client × List ClientAction

/-- One step after another. -/
def Step.andThen (s : Step) (f : Client → Step) : Step := ((f s.1).1, s.2 ++ (f s.1).2)

/-- Nothing concerns the world outside. -/
def still (c : Client) : Step := (c, [])

/-- The present time, as entries note it. -/
def instant (c : Client) : Instant := ⟨c.now / 1_000_000_000, c.now % 1_000_000_000⟩

/-- Publishes events. -/
def publish (c : Client) (events : List Event) : Client :=
  { c with bus := events.foldl Channel.publish c.bus }

/-- An operation of the engine, whose events are published. -/
def onEngine {α : Type} (c : Client) (op : Engine → Update Engine α) : Client × α :=
  let u := op c.engine
  ({ c with engine := u.state }.publish u.events, u.result)

/-- An operation of the engine without an answer. -/
def update (c : Client) (op : Engine → Update Engine Unit) : Client := (c.onEngine op).1

/-- Shows what is wrong as a whole. -/
def setGlobalError (c : Client) (error : Option String) : Client :=
  c.update (·.onNotice (·.setGlobal error))

/-- Shows the error of a mutation. -/
def setMutationError (c : Client) (error : Option String) : Client :=
  c.update (·.onNotice (·.setMutation error))

/-- An operation of the coordinator on the cache, whose events are
published. -/
def onCoordinator {α : Type} (c : Client)
    (op : Coordinator → Cache → Update Coordinator.WithCache α) : Client × α :=
  let u := op c.coordinator c.engine.cache
  ({ c with coordinator := u.state.1, engine := { c.engine with cache := u.state.2 } }.publish
    u.events, u.result)

/-- What the manager sees of the client. -/
def surroundings (c : Client) : Surroundings :=
  c.link.surroundings c.engine.interests.topics c.calls.contains

/-! ### Calls -/

/-- A caller asks for something. -/
def call (c : Client) (what : Call) : Client × CallId :=
  ({ c with calls := c.calls.insert c.fresh what, fresh := c.fresh + 1 }, c.fresh)

/-- **A call is answered.** -/
def finish (c : Client) (caller : CallId) (result : CallResult) : Step :=
  ({ c with calls := c.calls.erase caller }, [.finish caller result])

/-! ### Fetches -/

/-- **Starts a fetch.** -/
def startFetch (c : Client) (entity : EntityId) (force : Bool) (purpose : Purpose) : Step :=
  ({ c with
      fetches := c.fetches ++ [⟨c.fresh, entity, c.now + c.config.fetchTimeout.nanos, purpose⟩]
      fresh := c.fresh + 1 },
    [.fetch c.fresh entity (c.engine.cache.fetchValidator entity force)])

/-- Some of the fetches are called off. -/
def dropFetches (c : Client) (p : Fetch → Bool) : Client :=
  { c with fetches := c.fetches.filter fun f => !p f }

/-- What is shown when an entity could not be loaded. -/
def loadErrorText (entity : EntityId) (f : Failure.Fetch) : String :=
  "failed to load game " ++ Decimal.intText entity.toInt ++ ": " ++ f.message

/-- What is shown when an entity could not be fetched after a handshake. -/
def resyncErrorText (entity : EntityId) (f : Failure.Fetch) : String :=
  "failed to resynchronize game " ++ Decimal.intText entity.toInt ++ ": " ++ f.message

/-- What a refresh that somebody asked for came to is shown. -/
def showRefresh (c : Client) (entity : EntityId) {α : Type} (r : Except Failure.Fetch α) :
    Client :=
  match r with
  | .ok _ => c.setGlobalError none
  | .error f => c.setGlobalError (some (loadErrorText entity f))

/-- What a caller who wants an entity gets after its refresh. -/
def loaded (c : Client) (entity : EntityId) :
    Except Failure.Fetch RefreshOutcome → Except Failure.Fetch Entry
  | .error f => .error f
  | .ok _ =>
    match c.engine.cache.current? entity with
    | some e => .ok e
    | none => .error (.notFound entity)

/-- A fetch of a resynchronization has ended. After the last one the first
failure is shown. -/
def endResyncFetch (c : Client) (entity : EntityId) (r : Except Failure.Fetch RefreshOutcome) :
    Client :=
  match c.resync with
  | none => c
  | some s =>
    let failure := match r with | .error f => some f | .ok _ => none
    let s := s.record entity failure
    if s.isDone then
      let c := { c with resync := none }
      match s.failures with
      | (id, f) :: _ => c.setGlobalError (some (resyncErrorText id f))
      | [] => c
    else { c with resync := some s }

/-- Whether a refresh failed. -/
def hasFailed {α : Type} : Except Failure.Fetch α → Bool
  | .ok _ => false
  | .error _ => true

/-- **A fetch ends**: what it brought is reconciled, and whoever wanted it
goes on. -/
def endFetch (c : Client) (f : Fetch) (result : Except Failure.Fetch FetchOutcome) : Step :=
  let c := c.dropFetches fun g => g.id = f.id
  let (c, r) := c.onEngine (·.onCache (·.reconcile f.entity c.instant result))
  match f.purpose with
  | .load caller => (c.showRefresh f.entity r).finish caller (.loaded (c.loaded f.entity r))
  | .refresh caller => (c.showRefresh f.entity r).finish caller (.refreshed r)
  | .resync => (c.endResyncFetch f.entity r).still
  | .confirm => (c.onCoordinator (·.confirm · f.entity (hasFailed r))).1.still

/-! ### Commands -/

/-- Calls off the fetch of an entity's watchdog. -/
def dropConfirmation (c : Client) (entity : EntityId) : Client :=
  c.dropFetches fun f => f.purpose = .confirm ∧ f.entity = entity

/-- What a command's outcome shows the user. -/
def errorShown {α : Type} : Except Failure.Command α → Option String
  | .ok _ => none
  | .error f => some f.message

/-- **A command is resolved**, its outcome is shown, and its caller is told.
If it was accepted, the entity's earlier watchdog is called off together
with its fetch. -/
def resolve (c : Client) (caller : CallId) (previous : Entry)
    (result : Except Failure.Command Receipt) : Step :=
  let c := match result with
    | .ok _ => c.dropConfirmation previous.entityId
    | .error _ => c
  let c := (c.onCoordinator
    (·.resolve · caller previous result (c.now + c.config.confirmTimeout.nanos))).1
  (c.setMutationError (errorShown result)).finish caller (.submitted result)

/-- The server has answered a command, or the connection has failed it. -/
def answered (c : Client) (caller : CallId) (result : Except Failure.Command Receipt) : Step :=
  match c.calls.get? caller with
  | some .command => c.finish caller (.submitted result)
  | some .submit =>
    match c.coordinator.find? caller with
    | some ⟨_, _, _, .dispatched .live previous _⟩ => c.resolve caller previous result
    | _ => c.still
  | _ => c.still

/-! ### The link -/

/-- Takes up what leaves the link. -/
def absorb (c : Client) : Link.Output → Step
  | .publish event => (c.publish [event]).still
  | .report report => (if c.isOpen then { c with reports := c.reports ++ [report] } else c).still
  | .reply caller result => c.answered caller result
  | .connect epoch => (c, [.connect epoch])
  | .send epoch text => (c, [.send epoch text])
  | .close epoch => (c, [.close epoch])

/-- A step of the link. -/
def onLink (c : Client) (s : Link.Step) : Step :=
  s.2.foldl (fun t o => t.andThen (absorb · o)) ({ c with link := s.1 }, [])

/-- Queues a command for the manager. -/
def enqueue (c : Client) (command : Command) : Step := c.onLink (c.link.enqueue command)

/-- A request identifier that was not used before. -/
def freshRequest (c : Client) : Client × RequestId :=
  ({ c with fresh := c.fresh + 1 }, ⟨BitVec.ofNat 128 c.fresh⟩)

/-- Sends a command on the live connection. -/
def sendCommand (c : Client) (caller : CallId) (entity : EntityId) (version : Version)
    (action : Action) : Step :=
  let (c, request) := c.freshRequest
  c.enqueue (.submit request entity version action caller)

/-- **The way of a command**: the live connection if there is one. -/
def routeNow (c : Client) : Route := if c.link.isConnected then .live else .api

/-- **Dispatches a command** with the entry that its guess replaced. -/
def dispatch (c : Client) (caller : CallId) (m : Mutation) (previous : Entry) : Route → Step
  | .live => c.sendCommand caller m.entityId previous.version m.action
  | .api => (c, [.submit caller m.entityId m.action previous.validator])

end Client

end LiveSync
