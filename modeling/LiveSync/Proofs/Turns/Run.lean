import LiveSync.Engine.Basic
import LiveSync.Proofs.Cache.Soundness
import Mathlib.Data.List.Induction

/-!
# Runs of the watch for turns

States come in, guesses are written and taken back, somebody subscribes or
lets go, the server hints at a turn, and now and then the watch looks at the
server's latest entry of an entity. A run is a list of such operations
(`Lookout.Op`). The watch may look at any time, or not for long, so the runs
include those in which it lags behind the cache.

What a watch has been through since it was started is its **vigil**: one
moment for each operation, with the state that was looked at, if it was newer
than all before, and the turns that were announced. A vigil is what an
observer could write down, and does not mention the memory of the watch.

What is said of turns is said of vigils.
-/

namespace LiveSync

/-! ### Runs -/

/-- **An engine, and the entries that its cache has handed out.** -/
structure Lookout where
  engine : Engine
  handedOut : List Entry

namespace Lookout

/-- **What can happen to the entities that are watched.** -/
inductive Op where
  /-- Something happens to the cache. -/
  | cache (op : Cache.Op)
  /-- A subscription is taken. -/
  | subscribe (id : EntityId) (seat : Option Seat)
  /-- A subscription is given up. -/
  | release (id : EntityId)
  /-- The watch looks at the server's latest entry. -/
  | observe (id : EntityId)
  /-- The server hints at a turn. -/
  | hint (id : EntityId)

/-- Nothing is known, and nothing is watched. -/
def start : Lookout := ⟨.initial, []⟩

/-- The cache, and what it has handed out. -/
def ledger (l : Lookout) : Ledger := ⟨l.engine.cache, l.handedOut⟩

/-- The server's latest entry of an entity. -/
def authoritative? (l : Lookout) (id : EntityId) : Option Entry :=
  l.engine.cache.authoritative? id

/-- What is remembered of a watched entity. -/
def watch? (l : Lookout) (id : EntityId) : Option TurnWatch := l.engine.turns.watches.get? id

/-- How many hold subscriptions to an entity. -/
def interest (l : Lookout) (id : EntityId) : Nat := l.engine.interests.interest (.game id)

/-- **One operation.** -/
def step (l : Lookout) : Op → Lookout
  | .cache op =>
    ⟨{ l.engine with cache := (l.ledger.step op).cache }, (l.ledger.step op).handedOut⟩
  | .subscribe id seat =>
    { l with engine := ((l.engine.watch id seat).subscribe (.game id)).1 }
  | .release id => { l with engine := (l.engine.unsubscribe ⟨.game id, true⟩).1 }
  | .observe id => { l with engine := (l.engine.onTurns (·.observe · id)).state }
  | .hint id => { l with engine := (l.engine.onTurns (·.hint · id)).state }

/-- **The turns that an operation announces.** -/
def announced (l : Lookout) : Op → List Event
  | .observe id => (l.engine.onTurns (·.observe · id)).events
  | .hint id => (l.engine.onTurns (·.hint · id)).events
  | .cache _ | .subscribe _ _ | .release _ => []

/-- One operation after another. -/
def runFrom (l : Lookout) (ops : List Op) : Lookout := ops.foldl step l

/-- **A run**: one operation after another, from the start. -/
def run (ops : List Op) : Lookout := runFrom start ops

/-- The turns that several operations announce, one after another. -/
def announcedBy (l : Lookout) : List Op → List Event
  | [] => []
  | op :: ops => l.announced op ++ (l.step op).announcedBy ops

@[simp] theorem runFrom_concat (l : Lookout) (ops : List Op) (op : Op) :
    l.runFrom (ops ++ [op]) = (l.runFrom ops).step op := by
  rw [runFrom, List.foldl_append]
  rfl

@[simp] theorem run_concat (ops : List Op) (op : Op) :
    run (ops ++ [op]) = (run ops).step op :=
  runFrom_concat start ops op

end Lookout

/-! ### What the watch looks at

The operations of the watch do not touch the cache, so what is known of runs
of the cache holds here too. -/

namespace Lookout

variable {l : Lookout}

theorem ledger_step (l : Lookout) (op : Op) :
    (l.step op).ledger = match op with
      | .cache op => l.ledger.step op
      | .subscribe _ _ | .release _ | .observe _ | .hint _ => l.ledger := by
  cases op with
  | release id =>
    have hcache : (l.engine.unsubscribe ⟨.game id, true⟩).1.cache = l.engine.cache := by
      unfold Engine.unsubscribe
      dsimp only
      split <;> rfl
    exact congrArg (Ledger.mk · l.handedOut) hcache
  | cache | subscribe | observe | hint => rfl

theorem sound_step (h : l.ledger.Sound) (op : Op) :
    (l.step op).ledger.Sound ∧ l.engine.cache.Grows (l.step op).engine.cache := by
  have hstay (hl : (l.step op).ledger = l.ledger) :
      (l.step op).ledger.Sound ∧ l.ledger.cache.Grows (l.step op).ledger.cache := by
    rw [hl]
    exact ⟨h, (Cache.Quiet.refl _).grows⟩
  cases op with
  | cache op => exact h.step op
  | subscribe | release | observe | hint => exact hstay (ledger_step l _)

theorem sound_run (ops : List Op) : (run ops).ledger.Sound := by
  induction ops using List.reverseRecOn with
  | nil => exact Ledger.sound_start
  | append_singleton ops op ih =>
    rw [run_concat]
    exact (sound_step ih op).1

/-- **The server's entry only advances.** -/
theorem authoritative?_step (ops : List Op) (op : Op) {id : EntityId} {a : Entry}
    (ha : (run ops).authoritative? id = some a) :
    ∃ b, (run (ops ++ [op])).authoritative? id = some b ∧ a.Advances b := by
  rw [run_concat]
  exact (sound_step (sound_run ops) op).2 id a ha

end Lookout

/-! ### Vigils -/

namespace Event

/-- The source of a turn of an entity, if one is announced. -/
def turnOf? (id : EntityId) : Event → Option TurnSource
  | .turnStarted j source => if j = id then some source else none
  | _ => none

/-- **The turns of an entity** among events. -/
def turnsOf (id : EntityId) (events : List Event) : List TurnSource :=
  events.filterMap (turnOf? id)

theorem turnsOf_self (id : EntityId) (source : TurnSource) :
    turnsOf id [.turnStarted id source] = [source] := by
  simp [turnsOf, turnOf?]

theorem turnsOf_of_ne {id j : EntityId} (h : j ≠ id) (source : TurnSource) :
    turnsOf id [.turnStarted j source] = [] := by
  simp [turnsOf, turnOf?, h]

end Event

/-- **A moment of a watch.** -/
structure Vigil.Moment where
  /-- The entry that was looked at, if it was newer than all before. -/
  seen : Option Entry
  /-- The turns that were announced. -/
  announced : List TurnSource
deriving DecidableEq, Repr

/-- **What a watch has been through** since it was started. -/
structure Vigil where
  /-- The seat that it was started with. -/
  seat : Option Seat
  /-- At the first moment it looks at what the cache holds. -/
  moments : List Vigil.Moment
deriving DecidableEq, Repr

namespace Vigil

/-- Whether an entry is newer than all that were looked at. -/
def isNews (v : Vigil) (e : Entry) : Bool :=
  v.moments.all fun m => m.seen.all fun p => p.version < e.version

/-- The viewer's seat after some moments: the one that the watch was started
with, or else the first that an entry has named. -/
def viewer (seat : Option Seat) (moments : List Moment) : Option Seat :=
  seat <|> moments.findSome? fun m => m.seen.bind fun e => Game.viewerSeat? e.payload

/-- **Whether what is looked at shows the viewer's turn**; nothing, while the
seat is not known. -/
def shows (v : Vigil) (before : List Moment) (m : Moment) : Option Bool :=
  m.seen.bind fun e => (viewer v.seat (before ++ [m])).map (Game.isTurnOf e.payload)

end Vigil

namespace Lookout

/-- What a watch looks at with an operation, if that is new. -/
def seen (l : Lookout) (v : Vigil) (id : EntityId) : Op → Option Entry
  | .observe j => if j = id then (l.authoritative? id).filter v.isNews else none
  | .cache _ | .subscribe _ _ | .release _ | .hint _ => none

/-- What an operation is to a watch. -/
def moment (l : Lookout) (v : Vigil) (id : EntityId) (op : Op) : Vigil.Moment :=
  ⟨l.seen v id op, Event.turnsOf id (l.announced op)⟩

/-- A vigil that has gone on for one operation. -/
def note (l : Lookout) (id : EntityId) (op : Op) (v : Vigil) : Vigil :=
  { v with moments := v.moments ++ [l.moment v id op] }

/-- **The vigil after an operation.** A subscription starts the watch anew,
and the last one that is given up ends it. -/
def vigilAfter (l : Lookout) (id : EntityId) (v : Option Vigil) (op : Op) : Option Vigil :=
  match op with
  | .subscribe j seat =>
    if j = id then some ⟨seat, [⟨l.authoritative? id, []⟩]⟩ else v.map (l.note id op)
  | .release j => if j = id ∧ l.interest id = 1 then none else v.map (l.note id op)
  | .cache _ | .observe _ | .hint _ => v.map (l.note id op)

/-- **The vigil for an entity** at the end of a run, if it is watched. -/
def vigil? (id : EntityId) (ops : List Op) : Option Vigil :=
  (ops.foldl (fun p op => (p.1.step op, p.1.vigilAfter id p.2 op)) (start, none)).2

theorem vigil?_concat (id : EntityId) (ops : List Op) (op : Op) :
    vigil? id (ops ++ [op]) = (run ops).vigilAfter id (vigil? id ops) op := by
  have hrun : ∀ ops : List Op,
      (ops.foldl (fun p op => (p.1.step op, p.1.vigilAfter id p.2 op)) (start, none)).1
        = run ops := by
    intro ops
    induction ops using List.reverseRecOn with
    | nil => rfl
    | append_singleton ops op ih =>
      rw [List.foldl_append, run_concat, ← ih]
      rfl
  rw [vigil?, List.foldl_append, ← hrun ops]
  rfl

end Lookout

/-! ### States for examples -/

/-- A trick in which a seat is to act, as another sees it. -/
def Game.trick (toAct viewer : Seat) : Json :=
  .obj [("game", .obj [("phase", .obj [("phase", .str Phase.trick.name),
      ("data", .obj [("to_act", .int toAct.toNat)])])]),
    ("viewer", .obj [("seat", .int viewer.toNat)])]

/-- A state of entity 7, as seat 2 sees it. -/
def Entry.trick (version : Version) (toAct : Seat) : Entry :=
  .push 7 version (Game.trick toAct 2) ⟨0, 0⟩

/-- A state of entity 7 comes in, as seat 2 sees it. -/
def Lookout.Op.trick (version : Version) (toAct : Seat) : Lookout.Op :=
  .cache (.background (.push 7 version (Game.trick toAct 2) ⟨0, 0⟩))

end LiveSync
