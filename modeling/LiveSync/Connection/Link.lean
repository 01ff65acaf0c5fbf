import LiveSync.Connection.Attempt
import LiveSync.Connection.Manager

/-!
# The link

The **link** is a manager together with all that it has to do with: the
commands and inputs that wait for it, the attempts it has opened with what
they still have to send, and its two timers.

Each part moves on its own. The manager takes up a command or an input, an
attempt takes something up, a timer fires; which of them comes next is not
said here. A move that is not possible changes nothing.

A timer is a deadline. It fires once the clock has reached it, by queueing
an input for the manager.
-/

namespace LiveSync.Connection

open LiveSync.Wire

/-- **An attempt and what it still has to send.** -/
structure Line where
  attempt : Attempt
  outbound : List String
  /-- Whether there will be nothing more to send. -/
  retired : Bool
deriving DecidableEq, Repr

/-- A timer: the attempt it belongs to and its deadline. -/
structure Timer where
  epoch : Epoch
  deadline : Clock
deriving DecidableEq, Repr

/-- **The link.** -/
structure Link where
  manager : Manager
  /-- The commands that wait for the manager. -/
  commands : List Command
  /-- The inputs that wait for the manager. -/
  inputs : List Input
  /-- The attempts that are not over. -/
  lines : Table Epoch Line
  handshakeTimer : Option Timer
  retryTimer : Option Timer
  /-- The silence that an attempt puts up with. -/
  patience : Duration
deriving DecidableEq, Repr

namespace Link

/-- **What leaves the link.** -/
inductive Output where
  | publish (event : Event)
  | report (report : Report)
  | reply (caller : CallId) (result : Except Failure.Command Receipt)
  /-- Asks for a transport. -/
  | connect (epoch : Epoch)
  /-- Sends a text on a transport. -/
  | send (epoch : Epoch) (text : String)
  /-- Closes a transport. -/
  | close (epoch : Epoch)
deriving Repr

/-- A link, and what leaves it. -/
abbrev Step := Link × List Output

/-- One step after another. -/
def Step.andThen (s : Step) (f : Link → Step) : Step := ((f s.1).1, s.2 ++ (f s.1).2)

/-- The link of a client with the given settings. -/
def start (c : Config) (hostActive : Bool) : Link where
  manager := .start (.ofConfig c hostActive)
  commands := []
  inputs := []
  lines := .empty
  handshakeTimer := none
  retryTimer := none
  patience := c.livenessTimeout

/-- What observers see of the connection. -/
def state (l : Link) : ConnectionState := l.manager.published

/-- Whether there is a connection. -/
def isConnected (l : Link) : Bool := l.state.status = .connected

/-- What the manager sees of its surroundings. -/
def surroundings (l : Link) (topics : List Topic) (waiting : CallId → Bool) : Surroundings where
  topics := topics
  waiting := waiting
  listening epoch := l.lines.contains epoch

/-- Writes a line. A line whose attempt is over is taken out. -/
def setLine (l : Link) (epoch : Epoch) (line : Line) : Link :=
  { l with
    lines := if line.attempt.isRunning then l.lines.insert epoch line else l.lines.erase epoch }

/-- **Carries out an order of the manager.** -/
def carryOut (now : Clock) (l : Link) : Order → Step
  | .openAttempt epoch =>
    (l.setLine epoch ⟨.start epoch l.patience, [], false⟩, [.connect epoch])
  | .transmit epoch frame =>
    match l.lines.get? epoch with
    | some line =>
      (l.setLine epoch { line with outbound := line.outbound ++ [encode frame] }, [])
    | none => (l, [])
  | .retire epoch =>
    match l.lines.get? epoch with
    | some line => (l.setLine epoch { line with retired := true }, [])
    | none => (l, [])
  | .armHandshake epoch timeout =>
    ({ l with handshakeTimer := some ⟨epoch, now + timeout.nanos⟩ }, [])
  | .disarmHandshake => ({ l with handshakeTimer := none }, [])
  | .armRetry epoch delay => ({ l with retryTimer := some ⟨epoch, now + delay.nanos⟩ }, [])
  | .disarmRetry => ({ l with retryTimer := none }, [])
  | .publish event => (l, [.publish event])
  | .report report => (l, [.report report])
  | .reply caller result => (l, [.reply caller result])

/-- Carries out orders one after another. -/
def carryOutAll (now : Clock) (l : Link) (orders : List Order) : Step :=
  orders.foldl (fun s o => s.andThen (carryOut now · o)) (l, [])

/-! ### The manager -/

/-- The callers of commands that nobody will take up. -/
def unanswered (commands : List Command) : List Output :=
  commands.filterMap fun c =>
    match c with
    | .submit _ _ _ _ caller => some (.reply caller (.error Manager.gone))
    | _ => none

/-- The manager takes a message. When it stops, the commands that still
wait for it are answered. -/
def tell (env : Surroundings) (now : Clock) (l : Link) (message : ManagerMessage) : Step :=
  let (manager, orders) := l.manager.handle env message
  let s := carryOutAll now { l with manager := manager } orders
  if manager.stopped then
    ({ s.1 with commands := [], inputs := [] }, s.2 ++ unanswered s.1.commands)
  else s

/-- **Queues a command.** A manager that has stopped takes none, and the
caller is told at once. -/
def enqueue (l : Link) (c : Command) : Step :=
  if l.manager.stopped then (l, unanswered [c]) else ({ l with commands := l.commands ++ [c] }, [])

/-- Queues an input. -/
def report (l : Link) (i : Input) : Link :=
  if l.manager.stopped then l else { l with inputs := l.inputs ++ [i] }

/-- **The manager takes up the next command.** -/
def takeCommand (env : Surroundings) (now : Clock) (l : Link) : Step :=
  match l.commands with
  | c :: rest => tell env now { l with commands := rest } (.command c)
  | [] => (l, [])

/-- **The manager takes up the next input.** -/
def takeInput (env : Surroundings) (now : Clock) (l : Link) : Step :=
  match l.inputs with
  | i :: rest => tell env now { l with inputs := rest } (.input i)
  | [] => (l, [])

/-- **The manager takes up the activity of the host.** -/
def takeHost (env : Surroundings) (now : Clock) (l : Link) (active : Bool) : Step :=
  tell env now l (.host active)

/-! ### The attempts -/

/-- Does what an attempt does. -/
def doDeed (epoch : Epoch) (l : Link) : Attempt.Deed → Step
  | .report input => (l.report input, [])
  | .send text => (l, [.send epoch text])
  | .close => (l, [.close epoch])

/-- An attempt takes something up. -/
def happen (now : Clock) (l : Link) (epoch : Epoch) (line : Line) (h : Attempt.Happening) :
    Step :=
  let (attempt, deeds) := line.attempt.step now h
  let l := l.setLine epoch { line with attempt := attempt }
  deeds.foldl (fun s d => s.andThen (doDeed epoch · d)) (l, [])

/-- **What can happen to an attempt.** What it sends and when it notices
that it was retired follows from what it was given to send. -/
inductive LineMove where
  | answered (failure : Option Failure)
  /-- The next text is sent, or sending it fails. -/
  | sendNext (failure : Option Failure.Transport)
  | noticeRetired
  | incoming (message : Message)
  | transportError (error : Failure.Transport)
  | hungUp
  | silence
deriving DecidableEq, Repr, Inhabited

/-- **An attempt moves.** -/
def moveLine (now : Clock) (l : Link) (epoch : Epoch) (move : LineMove) : Step :=
  match l.lines.get? epoch with
  | none => (l, [])
  | some line =>
    match move with
    | .answered failure => l.happen now epoch line (.answered failure)
    | .sendNext failure =>
      match line.attempt.stage, line.outbound with
      | .live _, text :: rest =>
        l.happen now epoch { line with outbound := rest } (.outbound text failure)
      | _, _ => (l, [])
    | .noticeRetired =>
      if line.retired ∧ line.outbound = [] then l.happen now epoch line .retired else (l, [])
    | .incoming message => l.happen now epoch line (.incoming message)
    | .transportError error => l.happen now epoch line (.transportError error)
    | .hungUp => l.happen now epoch line .hungUp
    | .silence => l.happen now epoch line .silence

/-! ### The timers -/

/-- **The handshake timer fires**, if it is due. -/
def fireHandshake (now : Clock) (l : Link) : Link :=
  match l.handshakeTimer with
  | some t =>
    if t.deadline ≤ now then
      { l with handshakeTimer := none }.report (.handshakeTimedOut t.epoch)
    else l
  | none => l

/-- **The retry timer fires**, if it is due. -/
def fireRetry (now : Clock) (l : Link) : Link :=
  match l.retryTimer with
  | some t =>
    if t.deadline ≤ now then { l with retryTimer := none }.report (.retryFired t.epoch) else l
  | none => l

/-- The deadlines of timers and attempts. -/
def deadlines (l : Link) : List Clock :=
  (l.handshakeTimer.map Timer.deadline).toList ++ (l.retryTimer.map Timer.deadline).toList
    ++ l.lines.pairs.filterMap fun p =>
      match p.2.attempt.stage with
      | .live deadline => some deadline
      | .connecting | .over => none

end Link

end LiveSync.Connection
