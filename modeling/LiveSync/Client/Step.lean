import LiveSync.Client.Basic

/-!
# The moves of a client

A **move** is one step of one part: a user asks for something, the world
answers, a timer fires, or a part takes up the next thing that waits for
it. `Client.step` says what each move does; a move that is not possible
changes nothing.

Any sequence of moves is a run of the client, so whatever holds for all
sequences holds however its parts are scheduled.
-/

namespace LiveSync

open LiveSync.Connection

/-- **A move of a client.** -/
inductive Move where
  /-- Time passes. -/
  | tick (now : Clock)
  /-- The host reports something. -/
  | host (signal : Host.Signal)
  -- a user asks for something
  | connect
  | disconnect
  | shutdown
  | subscribe (id : EntityId) (seat : Option Seat)
  | unsubscribe (handle : Nat)
  | load (id : EntityId)
  | refresh (id : EntityId)
  | submit (m : Mutation)
  | command (id : EntityId) (version : Version) (action : Action)
  | wait (status : ConnectionStatus)
  /-- A caller no longer waits. -/
  | abandon (caller : CallId)
  | push (id : EntityId) (version : Version) (payload : Json)
  -- the parts take something up
  | manageCommand
  | manageInput
  | manageHost
  | line (epoch : Epoch) (move : Link.LineMove)
  | route
  | detect
  | enter (caller : CallId)
  | lookAgain (caller : CallId)
  -- the world answers
  | fetched (id : FetchId) (result : Except Failure.Fetch FetchOutcome)
  | submitted (caller : CallId) (result : Except Failure.Command Receipt)
  -- a timer fires
  | handshakeTimer
  | retryTimer
  | fetchTimer (id : FetchId)
  | commandTimer (caller : CallId)
  | watchdog (id : EntityId)
deriving Repr

namespace Client

/-! ### Users -/

/-- A user takes a subscription. The watch for turns starts anew. -/
def subscribe (c : Client) (id : EntityId) (seat : Option Seat) : Step :=
  let sub : Subscription := ⟨.game id, true⟩
  let (e, frame) := (c.engine.watch id seat).subscribe sub.topic
  let c := { c with engine := e, subscriptions := c.subscriptions ++ [some sub] }
  match frame with
  | some f => c.enqueue (.send f)
  | none => c.still

/-- A user gives a subscription up. -/
def unsubscribe (c : Client) (handle : Nat) : Step :=
  match c.subscriptions[handle]? with
  | some (some sub) =>
    let (e, frame) := c.engine.unsubscribe sub
    let c := { c with engine := e, subscriptions := c.subscriptions.set handle none }
    match frame with
    | some f => c.enqueue (.send f)
    | none => c.still
  | _ => c.still

/-- A user wants to see an entity. -/
def load (c : Client) (id : EntityId) : Step :=
  let (c, caller) := c.call .load
  c.startFetch id false (.load caller)

/-- A user wants an entity in full. -/
def refresh (c : Client) (id : EntityId) : Step :=
  let (c, caller) := c.call .refresh
  c.startFetch id true (.refresh caller)

/-- A user does something. -/
def submit (c : Client) (m : Mutation) : Step :=
  let (c, caller) := c.call .submit
  ({ c with coordinator := c.coordinator.join caller m }, [])

/-- A user sends a command without a guess. -/
def command (c : Client) (id : EntityId) (version : Version) (action : Action) : Step :=
  let (c, caller) := c.call .command
  c.sendCommand caller id version action

/-- **Looks whether a status has come** that a caller waits for. -/
def lookAgain (c : Client) (caller : CallId) : Step :=
  match c.calls.get? caller with
  | some (.wait status) =>
    if c.link.state.status = status then c.finish caller (.waited (.ok c.link.state))
    else if c.link.manager.stopped then c.finish caller (.waited (.error .shutdown))
    else c.still
  | _ => c.still

/-- A caller no longer waits. What was done for the call so far stays done. -/
def abandon (c : Client) (caller : CallId) : Client :=
  { c.dropFetches (·.purpose.isFor caller) with
    calls := c.calls.erase caller
    coordinator := c.coordinator.forget caller }

/-- **The client is shut down.** What works in the background stops at once;
the manager stops when it takes up the command. -/
def shutdown (c : Client) : Step :=
  if c.isOpen then
    let c := c.dropFetches (·.purpose.isBackground)
    { c with
      coordinator := c.coordinator.shutdown
      resync := none
      reports := []
      bus := c.bus.drop 0
      isOpen := false }.enqueue .shutdown
  else c.still

/-! ### Parts -/

/-- The manager takes up the next command. -/
def manageCommand (c : Client) : Step := c.onLink (c.link.takeCommand c.surroundings c.now)

/-- The manager takes up the next input. -/
def manageInput (c : Client) : Step := c.onLink (c.link.takeInput c.surroundings c.now)

/-- The manager takes up what it hears of the host. What it has missed it
passes over. -/
def manageHost (c : Client) : Step :=
  if c.link.manager.stopped then c.still
  else
    let (channel, reading) := c.host.channel.receive 0
    let c := { c with host := { c.host with channel := channel } }
    match reading with
    | .item a => c.onLink (c.link.takeHost c.surroundings c.now a.active)
    | .lagged _ | .empty => c.still

/-- **Resynchronizes after a handshake**: fetches every entity of interest.
An earlier resynchronization is called off. -/
def resynchronize (c : Client) (epoch : Epoch) : Step :=
  let c := c.setGlobalError none
  match c.engine.interests.topics.map Topic.entityId with
  | [] => c.still
  | ids =>
    let c := { c.dropFetches (·.purpose = .resync) with resync := some (.start epoch ids) }
    ids.foldl (fun s id => s.andThen (startFetch · id true .resync)) (c, [])

/-- **A frame that answers no command.** -/
def routeFrame (c : Client) : Wire.ServerFrame → Client
  | .stateUpdate topic version payload =>
    (c.onEngine (·.onCache (·.applyPush topic.entityId version payload c.instant))).1
  | .yourTurn id _ => (c.onEngine (·.onTurns (·.hint · id))).1
  | .invalidated id => c.update (·.invalidated id)
  | .error code message _ => c.publish [.serverError code message]
  | .helloAck _ _ | .ack _ | .commandAck _ _ => c

/-- **Takes up the manager's next report.** -/
def route (c : Client) : Step :=
  match c.reports with
  | [] => c.still
  | r :: rest =>
    let c := { c with reports := rest }
    match r with
    | .established epoch _ => c.resynchronize epoch
    | .frame f => (c.routeFrame f).still
    | .failed error => (c.setGlobalError (some error.message)).still

/-- **The watch for turns takes up the next event.** -/
def detect (c : Client) : Client :=
  if c.isOpen then
    let (bus, reading) := c.bus.receive 0
    { c with bus := bus }.update (·.onTurns (·.follow · reading))
  else c

/-- **A command takes its turn.** -/
def enter (c : Client) (caller : CallId) : Step :=
  match c.coordinator.find? caller with
  | some s =>
    if c.coordinator.isNext s then
      let route := c.routeNow
      let (c, r) := c.onCoordinator
        (·.enter · s route c.instant (c.now + c.config.commandTimeout.nanos))
      match r with
      | .ok previous => c.dispatch caller s.mutation previous route
      | .error f =>
        (c.setMutationError (some f.message)).finish caller (.submitted (.error f))
    else c.still
  | none => c.still

/-! ### The world and the timers -/

/-- A fetch is answered. -/
def fetched (c : Client) (id : FetchId) (result : Except Failure.Fetch FetchOutcome) : Step :=
  match c.fetches.find? fun f => f.id = id with
  | some f => c.endFetch f result
  | none => c.still

/-- A fetch was not answered in time. -/
def fetchTimer (c : Client) (id : FetchId) : Step :=
  match c.fetches.find? fun f => f.id = id with
  | some f =>
    if f.deadline ≤ c.now then c.endFetch f (.error (.timedOut c.config.fetchTimeout)) else c.still
  | none => c.still

/-- A command that went by way of the API is answered. -/
def submitted (c : Client) (caller : CallId) (result : Except Failure.Command Receipt) : Step :=
  match c.coordinator.find? caller with
  | some ⟨_, _, _, .dispatched .api previous _⟩ => c.resolve caller previous result
  | _ => c.still

/-- A command was not answered in time. -/
def commandTimer (c : Client) (caller : CallId) : Step :=
  match c.coordinator.find? caller with
  | some ⟨_, _, _, .dispatched _ previous deadline⟩ =>
    if deadline ≤ c.now then
      c.resolve caller previous (.error (.timedOut c.config.commandTimeout))
    else c.still
  | _ => c.still

/-- A watchdog wakes up. -/
def wakeWatchdog (c : Client) (id : EntityId) : Step :=
  let (k, fetch) := c.coordinator.wake c.engine.cache id c.now
  let c := { c with coordinator := k }
  if fetch then c.startFetch id true .confirm else c.still

/-! ### All moves -/

/-- **One move.** -/
def step (c : Client) : Move → Step
  | .tick now => { c with now := max c.now now }.still
  | .host signal => { c with host := c.host.emit signal }.still
  | .connect => c.enqueue .connect
  | .disconnect => c.enqueue .disconnect
  | .shutdown => c.shutdown
  | .subscribe id seat => c.subscribe id seat
  | .unsubscribe handle => c.unsubscribe handle
  | .load id => c.load id
  | .refresh id => c.refresh id
  | .submit m => c.submit m
  | .command id version action => c.command id version action
  | .wait status => (c.call (.wait status)).1.still
  | .abandon caller => (c.abandon caller).still
  | .push id version payload =>
    (c.onEngine (·.onCache (·.applyPush id version payload c.instant))).1.still
  | .manageCommand => c.manageCommand
  | .manageInput => c.manageInput
  | .manageHost => c.manageHost
  | .line epoch move => c.onLink (c.link.moveLine c.now epoch move)
  | .route => c.route
  | .detect => c.detect.still
  | .enter caller => c.enter caller
  | .lookAgain caller => c.lookAgain caller
  | .fetched id result => c.fetched id result
  | .submitted caller result => c.submitted caller result
  | .handshakeTimer => { c with link := c.link.fireHandshake c.now }.still
  | .retryTimer => { c with link := c.link.fireRetry c.now }.still
  | .fetchTimer id => c.fetchTimer id
  | .commandTimer caller => c.commandTimer caller
  | .watchdog id => c.wakeWatchdog id

/-- **A run**: moves one after another. -/
def run (c : Client) (moves : List Move) : Step :=
  moves.foldl (fun s m => s.andThen (step · m)) (c, [])

end Client

end LiveSync
