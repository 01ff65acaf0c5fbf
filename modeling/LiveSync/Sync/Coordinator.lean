import LiveSync.Connection.Manager
import LiveSync.Engine.Cache

/-!
# Commands with a guess

A command is shown before the server has answered it:

1. it waits until earlier commands for the same entity are resolved,
2. a guess at its effect replaces what is shown,
3. it is dispatched, and
4. if it fails the guess is taken back; if it is accepted the guess stays
   until the server's next state replaces it.

Commands for one entity take turns at a **gate**, first come, first served,
so that a guess is never stacked on one that is not resolved. Gates are
made when they are needed and discarded when no command refers to them.

If the state that an accepted command led to does not arrive, a **watchdog**
notices that the guess is still shown. It has the entity fetched, and if
the server still stands where it stood, all guesses are discarded.
-/

namespace LiveSync

open LiveSync.Connection

/-- The identity of a gate. -/
abbrev GateId := Nat

/-- **The ways a command can go.** -/
inductive Route where
  /-- On the live connection. -/
  | live
  /-- By way of the API. -/
  | api
deriving DecidableEq, Repr, Inhabited

/-- **How far a command has come.** -/
inductive Submission.Stage where
  /-- It waits at its gate. -/
  | waiting
  /-- It was dispatched, and its guess replaced an entry. -/
  | dispatched (route : Route) (previous : Entry) (deadline : Clock)
deriving DecidableEq, Repr

/-- **A command on its way.** -/
structure Submission where
  caller : CallId
  mutation : Mutation
  gate : GateId
  stage : Submission.Stage
deriving DecidableEq, Repr

/-- Whether a command was dispatched. -/
def Submission.isDispatched (s : Submission) : Bool :=
  match s.stage with
  | .waiting => false
  | .dispatched _ _ _ => true

/-- **How far a watchdog has come.** -/
inductive Watchdog.Stage where
  | sleeping
  /-- It has the entity fetched. -/
  | fetching
deriving DecidableEq, Repr, Inhabited

/-- **A watchdog.** -/
structure Watchdog where
  /-- The version that the command's guess rests on. -/
  base : Version
  /-- When it wakes up. -/
  deadline : Clock
  stage : Watchdog.Stage
deriving DecidableEq, Repr

/-- **The commands on their way**, in the order in which they came, with
their gates and watchdogs. -/
structure Coordinator where
  gates : Table EntityId GateId
  nextGate : GateId
  submissions : List Submission
  watchdogs : Table EntityId Watchdog
deriving DecidableEq, Repr

namespace Coordinator

/-- There is no command. -/
def empty : Coordinator := ⟨.empty, 0, [], .empty⟩

instance : Inhabited Coordinator := ⟨empty⟩

/-! ### Gates -/

/-- Whether a command refers to a gate. -/
def refersTo (k : Coordinator) (gate : GateId) : Bool := k.submissions.any fun s => s.gate = gate

/-- **The gate of an entity**, made if need be. The gates of other entities
that no command refers to are discarded. -/
def gate (k : Coordinator) (id : EntityId) : Coordinator × GateId :=
  let gates := k.gates.filter fun j g => j = id || k.refersTo g
  match gates.get? id with
  | some g => ({ k with gates := gates }, g)
  | none => ({ k with gates := gates.insert id k.nextGate, nextGate := k.nextGate + 1 }, k.nextGate)

/-- **A command comes** and waits at its gate. -/
def join (k : Coordinator) (caller : CallId) (m : Mutation) : Coordinator :=
  let (k, g) := k.gate m.entityId
  { k with submissions := k.submissions ++ [⟨caller, m, g, .waiting⟩] }

/-- The command of a caller. -/
def find? (k : Coordinator) (caller : CallId) : Option Submission :=
  k.submissions.find? fun s => s.caller = caller

/-- The first command at a gate. -/
def first? (k : Coordinator) (gate : GateId) : Option Submission :=
  k.submissions.find? fun s => s.gate = gate

/-- Whether it is a command's turn. -/
def isNext (k : Coordinator) (s : Submission) : Bool :=
  s.stage = .waiting && (k.first? s.gate).any fun t => t.caller = s.caller

/-- A command is gone. -/
def forget (k : Coordinator) (caller : CallId) : Coordinator :=
  { k with submissions := k.submissions.filter fun s => s.caller ≠ caller }

/-- Writes the stage of a caller's command. -/
def setStage (k : Coordinator) (caller : CallId) (stage : Submission.Stage) : Coordinator :=
  { k with
    submissions := k.submissions.map fun s =>
      if s.caller = caller then { s with stage := stage } else s }

/-- The coordinator and the cache it guesses in. -/
abbrev WithCache := Coordinator × Cache

/-! ### The way of a command -/

/-- **A command's turn comes**: its guess is written, and the entry that it
replaced is what the command is dispatched with. If there is nothing to
guess on the command has failed. -/
def enter (k : Coordinator) (cache : Cache) (s : Submission) (route : Route) (now : Instant)
    (deadline : Clock) : Update WithCache (Except Failure.Command Entry) :=
  let u := cache.beginOptimistic s.mutation.entityId (Mutation.speculate s.mutation.action) now
  match u.result with
  | .ok previous =>
    u.within fun c => (k.setStage s.caller (.dispatched route previous deadline), c)
  | .error _ => u.within fun c => (k.forget s.caller, c)

/-- Sets a watchdog on an entity. One that was set before is called off. -/
def arm (k : Coordinator) (previous : Entry) (deadline : Clock) : Coordinator :=
  { k with
    watchdogs := k.watchdogs.insert previous.entityId
      ⟨previous.baseVersion, deadline, .sleeping⟩ }

/-- **A command is resolved.** If it was accepted a watchdog is set, and if
not its guess is taken back. -/
def resolve (k : Coordinator) (cache : Cache) (caller : CallId) (previous : Entry)
    (result : Except Failure.Command Receipt) (watchdogDeadline : Clock) :
    Update WithCache Unit :=
  let k := k.forget caller
  match result with
  | .ok _ => .silent (k.arm previous watchdogDeadline, cache) ()
  | .error _ => ((cache.rollback previous).answer fun _ => ()).within fun c => (k, c)

/-! ### Watchdogs -/

/-- Whether a guess that rests on `base` is still shown. -/
def isUnconfirmed (cache : Cache) (id : EntityId) (base : Version) : Bool :=
  (cache.slot? id).any fun s => s.guessesOn base

/-- **A watchdog wakes up.** The answer is whether the entity has to be
fetched. -/
def wake (k : Coordinator) (cache : Cache) (id : EntityId) (now : Clock) : Coordinator × Bool :=
  match k.watchdogs.get? id with
  | some w =>
    if w.stage = .sleeping ∧ w.deadline ≤ now then
      if isUnconfirmed cache id w.base then
        ({ k with watchdogs := k.watchdogs.insert id { w with stage := .fetching } }, true)
      else ({ k with watchdogs := k.watchdogs.erase id }, false)
    else (k, false)
  | none => (k, false)

/-- **The fetch of a watchdog has ended**, and what it brought was
reconciled. If it succeeded and the guess is still shown, every guess is
discarded. -/
def confirm (k : Coordinator) (cache : Cache) (id : EntityId) (failed : Bool) :
    Update WithCache Unit :=
  match k.watchdogs.get? id with
  | some ⟨base, _, .fetching⟩ =>
    let k := { k with watchdogs := k.watchdogs.erase id }
    if !failed && isUnconfirmed cache id base then
      ((cache.revert id base).answer fun _ => ()).within fun c => (k, c)
    else .silent (k, cache) ()
  | _ => .silent (k, cache) ()

/-- Calls all watchdogs off. -/
def shutdown (k : Coordinator) : Coordinator := { k with watchdogs := .empty }

/-- The deadlines of commands and watchdogs. -/
def deadlines (k : Coordinator) : List Clock :=
  (k.submissions.filterMap fun s =>
    match s.stage with
    | .dispatched _ _ deadline => some deadline
    | .waiting => none)
  ++ k.watchdogs.pairs.filterMap fun p =>
    if p.2.stage = .sleeping then some p.2.deadline else none

end Coordinator

end LiveSync
