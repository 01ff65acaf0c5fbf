import LiveSync.Engine.Cache

/-!
# Runs of the cache

A run of the cache is a list of operations. Some of them happen in the
**background**, whatever the user does: the server's states come in, the
server says that nothing has changed, and watchdogs discard guesses
(`Cache.Background`). The others belong to commands: to write a guess, to
take one back, and to await nothing any more.

A guess is taken back with the entry that was handed out when it was
written, so a run has to remember what was handed out (`Ledger`). Nothing
is ever crossed off: an entry can be put back late, or twice.

## A slot at a time

No operation touches two slots, and what it does to its own depends on
that slot alone. Each operation therefore has a counterpart on slots
(`Slot.offered`, `Slot.guessed`, …), and one lemma that says so. The lemmas
about runs go through the counterparts, and the cache as a table is not
looked at after this module.
-/

namespace LiveSync

/-! ### The operations on a slot -/

namespace Slot

/-- The slot of an entity whose first state has just come in. -/
def first (e : Entry) : Slot := ⟨e, e, false⟩

/-- The server's state comes in. -/
def offered (e : Entry) (s : Slot) : Slot :=
  if s.current.baseVersion < e.version then first e else s

/-- The server says that nothing has changed. -/
def refreshed (now : Instant) (s : Slot) : Slot :=
  ⟨if s.current.isOptimistic then s.current else { s.current with receivedAt := now },
    { s.authoritative with receivedAt := now }, s.pending⟩

/-- A guess is written. -/
def guessed (edit : Json → Json) (now : Instant) (s : Slot) : Slot :=
  ⟨s.current.optimistic (edit s.current.payload) now, s.authoritative, true⟩

/-- Nothing is awaited any more. -/
def settled (s : Slot) : Slot := { s with pending := false }

/-- A guess is taken back. -/
def putBack (previous : Entry) (s : Slot) : Slot :=
  if s.guessesOn previous.baseVersion then
    ⟨previous, if previous.isOptimistic then s.authoritative else previous, false⟩
  else s.settled

/-- All guesses on a version are discarded. -/
def reverted (base : Version) (s : Slot) : Slot :=
  if s.guessesOn base then ⟨s.authoritative, s.authoritative, false⟩ else s.settled

end Slot

namespace Cache

/-- **One slot is altered**, if it is there, and the others are as before. -/
def Alters (c : Cache) (id : EntityId) (f : Slot → Slot) (c' : Cache) : Prop :=
  ∀ j, c'.slot? j = if id = j then (c.slot? j).map f else c.slot? j

/-- An operation that does nothing without a slot, and writes its slot
otherwise, alters it. -/
theorem alters_of {c c' : Cache} {id : EntityId} {f : Slot → Slot}
    (none : c.slot? id = none → c' = c)
    (some : ∀ s, c.slot? id = some s → c' = c.write id (f s)) : c.Alters id f c' := by
  intro j
  cases hs : c.slot? id with
  | none =>
    rw [none hs]
    by_cases hj : id = j
    · subst hj
      rw [if_pos rfl, hs]
      rfl
    · rw [if_neg hj]
  | some s =>
    rw [some s hs, slot?_write]
    by_cases hj : id = j
    · subst hj
      rw [if_pos rfl, if_pos rfl, hs]
      rfl
    · rw [if_neg hj, if_neg hj]

variable (c : Cache) (id : EntityId)

theorem alters_markNotModified (now : Instant) :
    c.Alters id (·.refreshed now) (c.markNotModified id now).state := by
  refine alters_of (fun hs => ?_) (fun s hs => ?_)
  · rw [markNotModified, hs]
    rfl
  · rw [markNotModified, hs]
    rfl

theorem alters_beginOptimistic (edit : Json → Json) (now : Instant) :
    c.Alters id (·.guessed edit now) (c.beginOptimistic id edit now).state := by
  refine alters_of (fun hs => ?_) (fun s hs => ?_)
  · rw [beginOptimistic, hs]
    rfl
  · rw [beginOptimistic, hs]
    rfl

theorem alters_clearPending :
    c.Alters id Slot.settled (c.clearPending id).state := by
  refine alters_of (fun hs => ?_) (fun s hs => ?_)
  · rw [clearPending, hs]
    rfl
  · rw [clearPending, hs]
    rfl

theorem alters_rollback (previous : Entry) :
    c.Alters previous.entityId (·.putBack previous) (c.rollback previous).state := by
  refine alters_of (fun hs => ?_) (fun s hs => ?_)
  · rw [rollback, hs]
    rfl
  · simp only [rollback, hs, Slot.putBack]
    split <;> rfl

theorem alters_revert (base : Version) :
    c.Alters id (·.reverted base) (c.revert id base).state := by
  refine alters_of (fun hs => ?_) (fun s hs => ?_)
  · rw [revert, hs]
    rfl
  · simp only [revert, hs, Slot.reverted]
    split <;> rfl

/-- The one operation that makes a slot where there is none. -/
theorem slot?_apply (e : Entry) (j : EntityId) :
    (c.apply e).state.slot? j
      = if e.entityId = j then some ((c.slot? j).elim (.first e) (·.offered e))
        else c.slot? j := by
  cases hs : c.slot? e.entityId with
  | none =>
    simp only [apply, hs, slot?_write]
    by_cases hj : e.entityId = j
    · subst hj
      rw [if_pos rfl, if_pos rfl, hs]
      rfl
    · rw [if_neg hj, if_neg hj]
  | some s =>
    by_cases hj : e.entityId = j
    · subst hj
      simp only [apply, hs, Slot.offered, Option.elim_some, if_true]
      split
      · rw [slot?_write, if_pos rfl]
        rfl
      · exact hs
    · simp only [apply, hs, if_neg hj]
      split
      · rw [slot?_write, if_neg hj]
      · rfl

/-- What is handed out for a guess is the entry that was shown. -/
theorem result_beginOptimistic (edit : Json → Json) (now : Instant) :
    (c.beginOptimistic id edit now).result
      = (c.current? id).elim (.error (.notLoaded id)) .ok := by
  unfold beginOptimistic current?
  cases c.slot? id <;> rfl

/-- A guess is taken back exactly when a guess on the same version is
shown. -/
theorem result_rollback (previous : Entry) :
    (c.rollback previous).result
      = (c.slot? previous.entityId).any (·.guessesOn previous.baseVersion) := by
  unfold rollback
  cases c.slot? previous.entityId with
  | none => rfl
  | some s =>
    by_cases hg : s.guessesOn previous.baseVersion <;> simp [Update.silent, hg]

end Cache

/-! ### What happens in the background -/

/-- **What can happen to a cache whatever the user does.** -/
inductive Cache.Background where
  /-- A state is pushed. -/
  | push (id : EntityId) (version : Version) (payload : Json) (now : Instant)
  /-- A state was fetched. -/
  | fetched (id : EntityId) (version : Version) (payload : Json)
    (validator : Option Validator) (now : Instant)
  /-- The server says that nothing has changed. -/
  | notModified (id : EntityId) (now : Instant)
  /-- A watchdog discards the guesses on a version. -/
  | revert (id : EntityId) (base : Version)

namespace Cache

/-- The entity that is concerned. -/
def Background.entity : Background → EntityId
  | .push id _ _ _ | .fetched id _ _ _ _ | .notModified id _ | .revert id _ => id

/-- The server's state that comes in, if one does. -/
def Background.offer? : Background → Option Entry
  | .push id version payload now => some (.push id version payload now)
  | .fetched id version payload validator now =>
    some (.http id version payload validator now)
  | .notModified _ _ | .revert _ _ => none

/-- Something happens in the background. -/
def meet (c : Cache) : Background → Cache
  | .push id version payload now => (c.applyPush id version payload now).state
  | .fetched id version payload validator now =>
    (c.apply (.http id version payload validator now)).state
  | .notModified id now => (c.markNotModified id now).state
  | .revert id base => (c.revert id base).state

/-- One thing after another happens in the background. -/
def meetAll (c : Cache) (events : List Background) : Cache := events.foldl meet c

end Cache

/-- What something in the background makes of the slot it concerns. -/
def Slot.met (b : Cache.Background) (s : Slot) : Slot :=
  match b with
  | .push id version payload now => s.offered (.push id version payload now)
  | .fetched id version payload validator now =>
    s.offered (.http id version payload validator now)
  | .notModified _ now => s.refreshed now
  | .revert _ base => s.reverted base

namespace Cache

theorem slot?_meet (c : Cache) (b : Background) (j : EntityId) :
    (c.meet b).slot? j
      = if b.entity = j then (c.slot? j).elim (b.offer?.map .first) (some <| ·.met b)
        else c.slot? j := by
  cases b with
  | push id version payload now =>
    refine (slot?_apply c (.push id version payload now) j).trans ?_
    cases c.slot? j <;> rfl
  | fetched id version payload validator now =>
    refine (slot?_apply c (.http id version payload validator now) j).trans ?_
    cases c.slot? j <;> rfl
  | notModified id now =>
    refine (alters_markNotModified c id now j).trans ?_
    cases c.slot? j <;> rfl
  | revert id base =>
    refine (alters_revert c id base j).trans ?_
    cases c.slot? j <;> rfl

end Cache

/-! ### Runs -/

/-- **An operation of a run.** -/
inductive Cache.Op where
  | background (b : Cache.Background)
  /-- A guess is written. -/
  | guess (id : EntityId) (edit : Json → Json) (now : Instant)
  /-- A guess is taken back with the entry that was handed out as number
  `ticket`. -/
  | takeBack (ticket : Nat)
  /-- Nothing is awaited any more. -/
  | clearPending (id : EntityId)

/-- **A cache, and the entries it has handed out**, the first one first. -/
structure Ledger where
  cache : Cache
  handedOut : List Entry

namespace Ledger

open Cache

/-- Nothing has been heard of, and nothing handed out. -/
def start : Ledger := ⟨.empty, []⟩

/-- **One operation.** An entry that was never handed out cannot be put
back. -/
def step (l : Ledger) : Op → Ledger
  | .background b => { l with cache := l.cache.meet b }
  | .guess id edit now =>
    let u := l.cache.beginOptimistic id edit now
    ⟨u.state, l.handedOut ++ u.result.toOption.toList⟩
  | .takeBack ticket =>
    match l.handedOut[ticket]? with
    | some previous => { l with cache := (l.cache.rollback previous).state }
    | none => l
  | .clearPending id => { l with cache := (l.cache.clearPending id).state }

/-- **A run**: one operation after another, from the start. -/
def run (ops : List Op) : Ledger := ops.foldl step start

@[simp] theorem run_concat (ops : List Op) (op : Op) :
    run (ops ++ [op]) = (run ops).step op := by
  rw [run, List.foldl_append]
  rfl

end Ledger

end LiveSync
