import LiveSync.Rehearsal.Basic

/-!
# Running a rehearsal

`Rehearsal.settle` lets everything move that can move while the clock
stands still. The parts take turns, each going as far as it can: commands
enter, the manager takes up what waits for it, callers look whether a
status has come, attempts send and hear, reports and events are taken up,
and the API answers.

`Rehearsal.advanceTo` lets time pass. The clock goes from deadline to
deadline, and after each one everything settles.
-/

namespace LiveSync.Rehearsal

open LiveSync.Connection

/-- Does something again and again, as long as a condition holds. The first
number bounds how often. -/
def repeatWhile (cond : Rehearsal → Bool) (f : Rehearsal → Rehearsal) : Nat → Rehearsal → Rehearsal
  | 0, r => r
  | n + 1, r => if cond r then repeatWhile cond f n (f r) else r

/-- A bound that no rehearsal reaches. -/
def plenty : Nat := 1000000

/-! ### The parts -/

/-- Commands whose turn it is enter. -/
def enterAll (r : Rehearsal) : Rehearsal :=
  let next := r.client.coordinator.submissions.filter r.client.coordinator.isNext
  next.foldl (fun r s => r.move (.enter s.caller)) r

/-- Whether something waits for the manager. -/
def managerWaits (r : Rehearsal) : Bool :=
  let l := r.client.link
  !l.manager.stopped
    && (!l.commands.isEmpty || !l.inputs.isEmpty || 0 < r.client.host.channel.waiting 0)

/-- The manager takes up one thing. -/
def manageOne (r : Rehearsal) : Rehearsal :=
  if !r.client.link.commands.isEmpty then r.move .manageCommand
  else if !r.client.link.inputs.isEmpty then r.move .manageInput
  else r.move .manageHost

/-- The manager takes up all that waits for it. -/
def manageAll (r : Rehearsal) : Rehearsal := repeatWhile managerWaits manageOne plenty r

/-- Whether a caller's wait is over. -/
def isWaitOver (r : Rehearsal) : Call → Bool
  | .wait status => r.client.link.state.status = status || r.client.link.manager.stopped
  | .load | .refresh | .submit | .command => false

/-- Callers look whether the status has come that they wait for. -/
def lookAll (r : Rehearsal) : Rehearsal :=
  let ready := r.client.calls.pairs.filter fun p => r.isWaitOver p.2
  ready.foldl (fun r p => r.move (.lookAgain p.1)) r

/-- The network answers a request for a transport. -/
def answerRequest (r : Rehearsal) (epoch : Epoch) : Rehearsal :=
  let r := { r with
    requested := r.requested.filter (· ≠ epoch)
    attempts := r.attempts + 1 }
  match r.refusals with
  | f :: rest => { r with refusals := rest }.move (.line epoch (.answered (some f)))
  | [] =>
    if r.acceptorUp then
      { r.setPipe epoch .fresh with opened := r.opened ++ [epoch] }.move
        (.line epoch (.answered none))
    else r.move (.line epoch (.answered (some (.transport (.connect "no acceptor")))))

/-- What an attempt can do next. -/
def nextLineMove (r : Rehearsal) (epoch : Epoch) : Option Link.LineMove :=
  match r.client.link.lines.get? epoch, r.pipes.get? epoch with
  | some line, some p =>
    if !line.outbound.isEmpty then
      some (.sendNext (if p.serverUp then none else some .closed))
    else
      match p.toClient with
      | m :: _ => some (.incoming m)
      | [] =>
        if !p.serverUp then some .hungUp
        else if line.retired then some .noticeRetired
        else none
  | _, _ => none

/-- Whether an attempt can do something. -/
def lineWaits (epoch : Epoch) (r : Rehearsal) : Bool :=
  epoch ∈ r.requested || (r.nextLineMove epoch).isSome

/-- An attempt does one thing. -/
def lineOne (epoch : Epoch) (r : Rehearsal) : Rehearsal :=
  if epoch ∈ r.requested then r.answerRequest epoch
  else
    match r.nextLineMove epoch with
    | some (.incoming m) =>
      (r.onPipe epoch fun p => { p with toClient := p.toClient.tail }).move
        (.line epoch (.incoming m))
    | some .hungUp =>
      (r.onPipe epoch fun p => { p with clientUp := false }).move (.line epoch .hungUp)
    | some m => r.move (.line epoch m)
    | none => r

/-- The attempts do what they can. -/
def linesAll (r : Rehearsal) : Rehearsal :=
  r.client.link.lines.keys.foldl
    (fun r epoch => repeatWhile (lineWaits epoch) (lineOne epoch) plenty r) r

/-- All reports of the manager are taken up. -/
def routeAll (r : Rehearsal) : Rehearsal :=
  repeatWhile (fun r => !r.client.reports.isEmpty) (·.move .route) plenty r

/-- The watch for turns takes up all events. -/
def detectAll (r : Rehearsal) : Rehearsal :=
  repeatWhile (fun r => r.client.isOpen && 0 < r.client.bus.waiting 0) (·.move .detect) plenty r

/-- The API gives the answers to fetches that are due. -/
def answerFetches (r : Rehearsal) : Rehearsal :=
  let due := r.fetchesDue.filter fun d => d.deadline ≤ r.client.now
  let r := { r with fetchesDue := r.fetchesDue.filter fun d => !(d.deadline ≤ r.client.now) }
  due.foldl (fun r d =>
    let (entity, script, asked) := d.answer
    r.move (.fetched d.key (script.answer entity asked r.client.instant))) r

/-- The API gives the answers to commands that are due. -/
def answerSubmits (r : Rehearsal) : Rehearsal :=
  let due := r.submitsDue.filter fun d => d.deadline ≤ r.client.now
  let r := { r with submitsDue := r.submitsDue.filter fun d => !(d.deadline ≤ r.client.now) }
  due.foldl (fun r d => r.move (.submitted d.key d.answer)) r

/-- Every part takes one turn. -/
def round (r : Rehearsal) : Rehearsal :=
  r.enterAll.manageAll.lookAll.linesAll.routeAll.detectAll.answerFetches.answerSubmits

/-- Rounds, until one changes nothing. The first number bounds them. -/
def settleRounds : Nat → Rehearsal → Rehearsal
  | 0, r => r
  | n + 1, r =>
    let next := r.round
    if next.moves = r.moves then next else settleRounds n next

/-- **Everything moves that can move.** -/
def settle (r : Rehearsal) : Rehearsal := settleRounds plenty r

/-! ### Time -/

/-- All deadlines. -/
def deadlines (r : Rehearsal) : List Clock :=
  r.fetchesDue.map Due.deadline ++ r.submitsDue.map Due.deadline
    ++ r.client.fetches.map Fetch.deadline ++ r.client.coordinator.deadlines
    ++ r.client.link.deadlines

/-- The next deadline, if it is not after `last`. -/
def nextDeadline? (r : Rehearsal) (last : Clock) : Option Clock :=
  (r.deadlines.filter (· ≤ last)).min?

/-- Everything that is due happens, one after another. -/
def fireAll (r : Rehearsal) : Rehearsal :=
  let r := r.settle
  let r := r.client.fetches.foldl (fun r f => (r.move (.fetchTimer f.id)).settle) r
  let r := r.client.coordinator.submissions.foldl
    (fun r s => (r.move (.commandTimer s.caller)).settle) r
  let r := r.client.coordinator.watchdogs.keys.foldl
    (fun r id => (r.move (.watchdog id)).settle) r
  let r := (r.move .handshakeTimer).settle
  let r := (r.move .retryTimer).settle
  r.client.link.lines.keys.foldl (fun r epoch => (r.move (.line epoch .silence)).settle) r

/-- Goes from deadline to deadline. The first number bounds how many. -/
def passDeadlines (last : Clock) : Nat → Rehearsal → Rehearsal
  | 0, r => r
  | n + 1, r =>
    match r.nextDeadline? last with
    | none => r
    | some deadline => passDeadlines last n (r.move (.tick deadline)).fireAll

/-- **Lets time pass** up to and including `last`. -/
def advanceTo (r : Rehearsal) (last : Clock) : Rehearsal :=
  ((passDeadlines last plenty r).move (.tick last)).settle

end LiveSync.Rehearsal
