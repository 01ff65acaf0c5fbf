import LiveSync.Proofs.Client.Fetches

/-!
# Resynchronizations in any order

After a handshake all entities of interest are fetched at once. Some of the
fetches bring a snapshot, others bring word that nothing has changed, some fail,
and some are not answered in time. In which order they end is up to the network,
so nothing that matters may depend on it: neither what is in the cache afterwards,
up to the times that are noted there, nor which failures are told, and in which
order.

The cache is the easy part. Entities are fetched once each, and what is fetched
for one concerns one slot (`Answer.Settles`). The failures are told in the order of
the entities, although they become known in another one; for that a
resynchronization keeps a place for each entity from the start, and what it has
written at any time is known from which fetches have ended (`Resync.after`).

Hence the state after some of the fetches does not depend on their order either
(`Reaches`), and that is what is carried along a run.
-/

namespace LiveSync

open LiveSync.Connection

/-! ### What a fetch comes to -/

/-- **Slots that differ at most in their times.** -/
structure Slot.Same (s t : Slot) : Prop where
  current : s.current.Same t.current
  authoritative : s.authoritative.Same t.authoritative
  pending : s.pending = t.pending

namespace Slot

variable {s t : Slot}

theorem Same.refl (s : Slot) : s.Same s := ⟨.refl _, .refl _, rfl⟩

/-- What an offer does to a slot does not depend on when the entry was made. -/
theorem same_offered (s : Slot) (e : Entry) (now later : Instant) :
    (s.offered { e with receivedAt := now }).Same (s.offered { e with receivedAt := later }) := by
  unfold offered
  dsimp only
  split
  · exact ⟨rfl, rfl, rfl⟩
  · exact .refl s

/-- Nothing but times depends on when the server said that nothing has changed. -/
theorem same_refreshed (s : Slot) (now later : Instant) :
    (s.refreshed now).Same (s.refreshed later) where
  current := by
    unfold refreshed
    split
    · exact .refl _
    · rfl
  authoritative := rfl
  pending := rfl

end Slot

/-- **What a fetch comes to.** -/
inductive Answer where
  | snapshot (e : Entry)
  | notModified
  | failed (f : Failure.Fetch)
  | timedOut
deriving DecidableEq, Repr

namespace Answer

variable {a : Answer} {before after other : Option Slot}

/-- What comes back at a time. A snapshot notes when it came. -/
def result (a : Answer) (now : Instant) (timeout : Duration) :
    Except Failure.Fetch FetchOutcome :=
  match a with
  | .snapshot e => .ok (.modified { e with receivedAt := now })
  | .notModified => .ok .notModified
  | .failed f => .error f
  | .timedOut => .error (.timedOut timeout)

/-- The failure, if it is one. -/
def failure? (a : Answer) (timeout : Duration) : Option Failure.Fetch :=
  match a with
  | .snapshot _ | .notModified => none
  | .failed f => some f
  | .timedOut => some (.timedOut timeout)

/-- **What it does to the slot of its entity**: a snapshot is reconciled by
version, a state that has not changed is noted at another time, and a failure leaves
everything as it is. -/
def Settles (a : Answer) (before after : Option Slot) : Prop :=
  match a with
  | .snapshot e => ∃ now : Instant, after
      = some (before.elim (.first { e with receivedAt := now })
        (·.offered { e with receivedAt := now }))
  | .notModified => ∃ now : Instant, after = before.map (·.refreshed now)
  | .failed _ | .timedOut => after = before

/-- When it comes makes a difference to times only. -/
theorem Settles.same (h : a.Settles before after) (h' : a.Settles before other) :
    Option.Rel Slot.Same after other := by
  have hrefl : Option.Rel Slot.Same before before := by
    cases before with
    | none => exact .none
    | some s => exact .some (.refl s)
  cases a with
  | snapshot e =>
    obtain ⟨now, rfl⟩ := h
    obtain ⟨later, rfl⟩ := h'
    refine .some ?_
    cases before with
    | none => exact ⟨rfl, rfl, rfl⟩
    | some s => exact s.same_offered e now later
  | notModified =>
    obtain ⟨now, rfl⟩ := h
    obtain ⟨later, rfl⟩ := h'
    cases before with
    | none => exact .none
    | some s => exact .some (s.same_refreshed now later)
  | failed | timedOut =>
    obtain rfl : after = before := h
    obtain rfl : other = after := h'
    exact hrefl

end Answer

/-- **What was fetched is reconciled** with the slot of its entity, and with no
other. -/
theorem Cache.settles_reconcile (cache : Cache) {id : EntityId} {a : Answer}
    (hown : ∀ e, a = .snapshot e → e.entityId = id) (now stamp : Instant) (timeout : Duration) :
    a.Settles (cache.slot? id) ((cache.reconcile id now (a.result stamp timeout)).state.slot? id)
      ∧ ∀ j, j ≠ id →
        (cache.reconcile id now (a.result stamp timeout)).state.slot? j = cache.slot? j := by
  cases a with
  | snapshot e =>
    obtain rfl := hown e rfl
    refine ⟨⟨stamp, ?_⟩, fun j hj => ?_⟩
    · exact (cache.slot?_apply _ _).trans (if_pos rfl)
    · exact (cache.slot?_apply _ _).trans (if_neg hj.symm)
  | notModified =>
    have halters := cache.alters_markNotModified id now
    exact ⟨⟨now, (halters id).trans (if_pos rfl)⟩,
      fun j hj => (halters j).trans (if_neg hj.symm)⟩
  | failed | timedOut => exact ⟨rfl, fun _ _ => rfl⟩

/-! ### What is written of it -/

namespace Resync

/-- **A resynchronization after some of its fetches**, if it is known what each
fails with. -/
def after (epoch : Epoch) (ids : List EntityId) (failure? : EntityId → Option Failure.Fetch)
    (ended : List EntityId) : Resync :=
  ⟨epoch, ids.map fun id => (id, if id ∈ ended then some (failure? id) else none)⟩

variable {epoch : Epoch} {ids ended : List EntityId}
  {failure? : EntityId → Option Failure.Fetch}

/-- One more fetch has ended. -/
theorem record_after (id : EntityId) :
    (after epoch ids failure? ended).record id (failure? id)
      = after epoch ids failure? (ended ++ [id]) := by
  simp only [record, after, List.map_map, mk.injEq, true_and]
  refine List.map_congr_left fun j _ => ?_
  by_cases hj : j = id
  · subst hj
    simp
  · simp [hj]

/-- A resynchronization is done once all of its fetches have ended. -/
theorem isDone_after : (after epoch ids failure? ended).isDone = true ↔ ∀ id ∈ ids, id ∈ ended := by
  simp only [isDone, after, List.all_map, List.all_eq_true, Function.comp_apply]
  refine forall₂_congr fun id _ => ?_
  split <;> simp_all

/-- **The failures are in the order of the entities**, once all fetches have
ended. -/
theorem failures_after (h : ∀ id ∈ ids, id ∈ ended) :
    (after epoch ids failure? ended).failures
      = ids.filterMap fun id => (failure? id).map (id, ·) := by
  simp only [failures, after, List.filterMap_map]
  refine List.filterMap_congr fun id hid => ?_
  simp [h id hid]

end Resync

namespace Client

variable {c : Client} {f : Fetch}

/-! ### A fetch ends -/

/-- The error to be shown for the first of the failures. -/
def firstErrorText (failures : List (EntityId × Failure.Fetch)) : Option String :=
  failures.head?.map fun p => resyncErrorText p.1 p.2

/-- **What it comes to is written down**, and with the last one the first failure is
shown. -/
theorem endResyncFetch_eq {r : Resync} (hr : c.resync = some r)
    (hglobal : c.engine.notice.global = none) (id : EntityId) {failure : Option Failure.Fetch}
    {result : Except Failure.Fetch RefreshOutcome}
    (hresult : ∀ e, failure = some e ↔ result = .error e) :
    (c.endResyncFetch id result).resync
        = (if (r.record id failure).isDone then none else some (r.record id failure))
      ∧ (c.endResyncFetch id result).engine.notice.global
        = (if (r.record id failure).isDone then firstErrorText (r.record id failure).failures
          else none)
      ∧ (c.endResyncFetch id result).engine.cache = c.engine.cache
      ∧ (c.endResyncFetch id result).config = c.config := by
  have hwritten : c.endResyncFetch id result
      = if (r.record id failure).isDone then
          (firstErrorText (r.record id failure).failures).elim { c with resync := none }
            fun text => ({ c with resync := none } : Client).setGlobalError (some text)
        else { c with resync := some (r.record id failure) } := by
    unfold endResyncFetch
    rw [hr]
    cases result with
    | error e =>
      obtain rfl := (hresult e).mpr rfl
      dsimp only
      cases (r.record id (some e)).failures <;> rfl
    | ok outcome =>
      obtain rfl : failure = none :=
        Option.eq_none_iff_forall_ne_some.mpr fun e heq => by cases (hresult e).mp heq
      dsimp only
      cases (r.record id none).failures <;> rfl
  rw [hwritten]
  cases (r.record id failure).isDone with
  | false => exact ⟨rfl, hglobal, rfl, rfl⟩
  | true =>
    cases firstErrorText (r.record id failure).failures with
    | none => exact ⟨rfl, hglobal, rfl, rfl⟩
    | some text => exact ⟨rfl, rfl, rfl, rfl⟩

/-- **What is left once a fetch of a resynchronization has ended**, while no error is
shown. -/
structure Leaves (c : Client) (r : Resync) (f : Fetch) (a : Answer) (s : Step) : Prop where
  silent : s.2 = []
  config : s.1.config = c.config
  fresh : s.1.fresh = c.fresh
  fetches : s.1.fetches = (c.dropFetches fun g => g.id = f.id).fetches
  settles : a.Settles (c.engine.cache.slot? f.entity) (s.1.engine.cache.slot? f.entity)
  others : ∀ id, id ≠ f.entity → s.1.engine.cache.slot? id = c.engine.cache.slot? id
  resync : s.1.resync
    = let r' := r.record f.entity (a.failure? c.config.fetchTimeout)
      if r'.isDone then none else some r'
  global : s.1.engine.notice.global
    = let r' := r.record f.entity (a.failure? c.config.fetchTimeout)
      if r'.isDone then firstErrorText r'.failures else none

theorem leaves_endFetch (hf : f.purpose = .resync) {r : Resync} (hr : c.resync = some r)
    (hglobal : c.engine.notice.global = none) {a : Answer}
    (hown : ∀ e, a = .snapshot e → e.entityId = f.entity) (stamp : Instant) :
    c.Leaves r f a (c.endFetch f (a.result stamp c.config.fetchTimeout)) := by
  -- the client once what came was reconciled, before it is written down
  generalize hb : (c.dropFetches fun g => g.id = f.id).onEngine
    (·.onCache (·.reconcile f.entity c.instant (a.result stamp c.config.fetchTimeout))) = b
  have hend : c.endFetch f (a.result stamp c.config.fetchTimeout)
      = (b.1.endResyncFetch f.entity b.2).still := by
    simp only [endFetch, hf, ← hb]
    rfl
  have hfailure : ∀ e, a.failure? c.config.fetchTimeout = some e ↔ b.2 = .error e := by
    subst hb
    intro e
    cases a <;> constructor <;> intro heq <;> cases heq <;> rfl
  obtain ⟨hslot, hslots⟩ := c.engine.cache.settles_reconcile hown c.instant stamp
    c.config.fetchTimeout
  obtain ⟨hresync, hshown, hcache, hconfig⟩ := endResyncFetch_eq (c := b.1) (r := r)
    (by rw [← hb]; exact hr) (by rw [← hb]; exact hglobal) f.entity hfailure
  obtain ⟨-, hfetches, -, -, -, hfresh⟩ := b.1.endResyncFetch_frame f.entity b.2
  have hreconciled : (b.1.endResyncFetch f.entity b.2).engine.cache
      = (c.engine.cache.reconcile f.entity c.instant
        (a.result stamp c.config.fetchTimeout)).state := by
    rw [hcache, ← hb]
    rfl
  rw [hend]
  refine ⟨rfl, hconfig.trans ?_, hfresh.trans ?_, hfetches.trans ?_, ?_, fun id hid => ?_, hresync,
    hshown⟩
  · rw [← hb]
    rfl
  · rw [← hb]
    rfl
  · rw [← hb]
    rfl
  · exact hreconciled ▸ hslot
  · exact hreconciled ▸ hslots id hid

end Client

/-- **A fetch ends** at some time. -/
structure Ending where
  fetch : Fetch
  time : Clock
  /-- When a snapshot that it brings says that it came. -/
  stamp : Instant

/-- The moves of it: time passes, and the answer comes or fails to come. -/
def Ending.moves (d : Ending) (a : Answer) : List Move :=
  [.tick d.time,
    match a with
    | .snapshot e => .fetched d.fetch.id (.ok (.modified { e with receivedAt := d.stamp }))
    | .notModified => .fetched d.fetch.id (.ok .notModified)
    | .failed f => .fetched d.fetch.id (.error f)
    | .timedOut => .fetchTimer d.fetch.id]

namespace Client

variable {c : Client} {s : Step} {f : Fetch} {epoch : Epoch}

/-- **The fetch is found, and ends.** -/
theorem Enumerated.run_moves (h : c.Enumerated) {d : Ending} (hd : d.fetch ∈ c.fetches)
    {a : Answer} (hlate : a = .timedOut → d.fetch.deadline ≤ d.time) :
    c.run (d.moves a)
      = ({ c with now := max c.now d.time } : Client).endFetch d.fetch
        (a.result d.stamp c.config.fetchTimeout) := by
  have hfind := h.find?_of_mem hd
  cases a with
  | timedOut =>
    have hdue : d.fetch.deadline ≤ max c.now d.time := (hlate rfl).trans (le_max_right _ _)
    simp only [Ending.moves, run, List.foldl_cons, List.foldl_nil, Step.andThen, step, still,
      fetchTimer, hfind, if_pos hdue, List.nil_append, Answer.result]
  | snapshot | notModified | failed =>
    simp only [Ending.moves, run, List.foldl_cons, List.foldl_nil, Step.andThen, step, still,
      fetched, hfind, List.nil_append, Answer.result]

theorem Enumerated.leaves_run (h : c.Enumerated) {d : Ending} (hd : d.fetch ∈ c.fetches)
    (hpurpose : d.fetch.purpose = .resync) {r : Resync} (hr : c.resync = some r)
    (hglobal : c.engine.notice.global = none) {a : Answer}
    (hown : ∀ e, a = .snapshot e → e.entityId = d.fetch.entity)
    (hlate : a = .timedOut → d.fetch.deadline ≤ d.time) :
    c.Leaves r d.fetch a (c.run (d.moves a)) := by
  have hleft := leaves_endFetch (c := { c with now := max c.now d.time }) hpurpose hr hglobal hown
    d.stamp
  rw [h.run_moves hd hlate]
  exact ⟨hleft.silent, hleft.config, hleft.fresh, hleft.fetches, hleft.settles, hleft.others,
    hleft.resync, hleft.global⟩

/-! ### Some of the fetches have ended -/

/-- The entities that somebody is interested in, which are fetched after a
handshake. -/
abbrev wanted (c : Client) : List EntityId := c.engine.interests.topics.map Topic.entityId

/-- What the fetch of an entity fails with. -/
def failureOf (c : Client) (answer : EntityId → Answer) (id : EntityId) : Option Failure.Fetch :=
  (answer id).failure? c.config.fetchTimeout

/-- **Where a resynchronization stands** once some of its fetches have ended, in the
client that started it and with what has concerned the world outside since. It does
not depend on their order, except for times. -/
structure Reaches (c : Client) (epoch : Epoch) (answer : EntityId → Answer)
    (ended : List Ending) (s : Step) : Prop where
  silent : s.2 = []
  config : s.1.config = c.config
  enumerated : s.1.Enumerated
  /-- The fetches that have not ended are still in flight. -/
  fetches : ∀ f ∈ c.resyncFetches c.wanted, f ∉ ended.map Ending.fetch → f ∈ s.1.fetches
  settled : ∀ id ∈ ended.map (·.fetch.entity),
    (answer id).Settles (c.engine.cache.slot? id) (s.1.engine.cache.slot? id)
  others : ∀ id, id ∉ ended.map (·.fetch.entity) →
    s.1.engine.cache.slot? id = c.engine.cache.slot? id
  resync : s.1.resync
    = let r := Resync.after epoch c.wanted (c.failureOf answer) (ended.map (·.fetch.entity))
      if r.isDone then none else some r
  global : s.1.engine.notice.global
    = let r := Resync.after epoch c.wanted (c.failureOf answer) (ended.map (·.fetch.entity))
      if r.isDone then firstErrorText r.failures else none

variable {answer : EntityId → Answer} {ended : List Ending}

theorem entity_resyncFetches (c : Client) (ids : List EntityId) :
    (c.resyncFetches ids).map Fetch.entity = ids := by
  simp only [resyncFetches, List.map_map]
  exact List.zipIdx_map_fst c.fresh ids

theorem purpose_of_mem_resyncFetches {ids : List EntityId} (hf : f ∈ c.resyncFetches ids) :
    f.purpose = .resync := by
  obtain ⟨p, -, rfl⟩ := List.mem_map.mp hf
  rfl

/-- A resynchronization starts where none of its fetches has ended. -/
theorem Enumerated.reaches_start (h : c.Enumerated) (hne : c.wanted ≠ []) :
    c.Reaches epoch answer [] (c.resynchronize epoch).1.still := by
  have hnone : ¬ (Resync.after epoch c.wanted (c.failureOf answer) []).isDone = true := by
    rw [Resync.isDone_after]
    obtain ⟨id, ids, hids⟩ := List.exists_cons_of_ne_nil hne
    exact fun hdone => List.not_mem_nil (hdone id (hids ▸ List.mem_cons_self))
  have henumerated := h.course (course_resynchronize (m := .route) epoch)
  have heq := c.resynchronize_eq epoch hne
  refine ⟨rfl, ?_, henumerated, fun f hf _ => ?_, nofun, fun id _ => ?_, ?_, ?_⟩
  · rw [heq]
    rfl
  · rw [heq]
    exact List.mem_append_right _ hf
  · rw [heq]
    rfl
  · simp only [List.map_nil, if_neg hnone]
    rw [heq]
    rfl
  · simp only [List.map_nil, if_neg hnone]
    rw [heq]
    rfl

/-- **One more fetch ends.** -/
theorem Reaches.step (h : c.Reaches epoch answer ended s) {d : Ending}
    (hd : d.fetch ∈ c.resyncFetches c.wanted)
    (hnew : d.fetch.entity ∉ ended.map (·.fetch.entity))
    (hown : ∀ e, answer d.fetch.entity = .snapshot e → e.entityId = d.fetch.entity)
    (hlate : answer d.fetch.entity = .timedOut → d.fetch.deadline ≤ d.time) :
    c.Reaches epoch answer (ended ++ [d])
      (s.andThen (·.run (d.moves (answer d.fetch.entity)))) := by
  have hwanted : d.fetch.entity ∈ c.wanted :=
    c.entity_resyncFetches c.wanted ▸ List.mem_map_of_mem hd
  have hgoing : ¬ (Resync.after epoch c.wanted (c.failureOf answer)
      (ended.map (·.fetch.entity))).isDone = true :=
    fun hdone => hnew (Resync.isDone_after.mp hdone _ hwanted)
  have hresync := h.resync.trans (if_neg hgoing)
  have hglobal := h.global.trans (if_neg hgoing)
  have hmem : d.fetch ∈ s.1.fetches := by
    refine h.fetches _ hd fun hmem => hnew ?_
    obtain ⟨d', hd', heq⟩ := List.mem_map.mp hmem
    exact heq ▸ List.mem_map_of_mem hd'
  have hleft := h.enumerated.leaves_run hmem (purpose_of_mem_resyncFetches hd) hresync hglobal
    hown hlate
  have hentities : (ended ++ [d]).map (·.fetch.entity)
      = ended.map (·.fetch.entity) ++ [d.fetch.entity] := List.map_append
  have hrecord : (Resync.after epoch c.wanted (c.failureOf answer)
      (ended.map (·.fetch.entity))).record d.fetch.entity
        ((answer d.fetch.entity).failure? s.1.config.fetchTimeout)
      = Resync.after epoch c.wanted (c.failureOf answer) ((ended ++ [d]).map (·.fetch.entity)) := by
    rw [hentities, h.config]
    exact Resync.record_after d.fetch.entity
  refine ⟨?_, hleft.config.trans h.config, ?_, fun f hf hrest => ?_, fun id hid => ?_,
    fun id hid => ?_, ?_, ?_⟩
  · exact (congrArg₂ _ h.silent hleft.silent).trans (List.append_nil [])
  · exact h.enumerated.of_sublist (hleft.fetches ▸ List.filter_sublist) hleft.fresh.ge
  · rw [List.map_append, List.mem_append, not_or] at hrest
    have hstill := h.fetches f hf hrest.1
    refine hleft.fetches ▸ mem_dropFetches.mpr ⟨hstill, decide_eq_false fun heq => ?_⟩
    exact hrest.2 (List.mem_singleton.mpr (h.enumerated.eq_of_id hstill hmem heq))
  · rw [hentities] at hid
    rcases List.mem_append.mp hid with hid | hid
    · have hsame := hleft.others id fun heq => hnew (heq ▸ hid)
      exact hsame.symm ▸ h.settled id hid
    · obtain rfl := List.mem_singleton.mp hid
      exact h.others _ hnew ▸ hleft.settles
  · rw [hentities, List.mem_append, not_or] at hid
    exact (hleft.others id fun heq => hid.2 (List.mem_singleton.mpr heq)).trans (h.others id hid.1)
  · exact hrecord ▸ hleft.resync
  · exact hrecord ▸ hleft.global

/-! ### All of them have ended -/

/-- **The fetches of a resynchronization end**, in any order and at any times, each of
them once. One that is not answered ends no earlier than it may. -/
structure Completes (c : Client) (answer : EntityId → Answer) (endings : List Ending) : Prop where
  perm : (endings.map Ending.fetch).Perm (c.resyncFetches c.wanted)
  late : ∀ d ∈ endings, answer d.fetch.entity = .timedOut → d.fetch.deadline ≤ d.time

/-- The moves of endings, one after another. -/
def allMoves (answer : EntityId → Answer) (endings : List Ending) : List Move :=
  endings.flatMap fun d => d.moves (answer d.fetch.entity)

/-- The failures, in the order of the entities. -/
def failuresOf (c : Client) (answer : EntityId → Answer) : List (EntityId × Failure.Fetch) :=
  c.wanted.filterMap fun id => (c.failureOf answer id).map (id, ·)

theorem run_eq_andThen (c : Client) (past later : List Move) :
    c.run (past ++ later) = (c.run past).andThen (·.run later) := by
  induction later using List.reverseRecOn with
  | nil =>
    rw [List.append_nil, Step.andThen]
    exact Prod.ext rfl (List.append_nil _).symm
  | append_singleton later m ih =>
    rw [← List.append_assoc, run_concat, ih, Step.andThen, Step.andThen, Step.andThen, run_concat,
      Step.andThen, List.append_assoc]

theorem Completes.entities {endings : List Ending} (h : c.Completes answer endings) :
    (endings.map (·.fetch.entity)).Perm c.wanted := by
  have hperm := h.perm.map Fetch.entity
  rwa [List.map_map, entity_resyncFetches] at hperm

/-- No entity is fetched twice. -/
theorem Completes.entity_notMem {d : Ending} {rest : List Ending} (hids : c.wanted.Nodup)
    (h : c.Completes answer (ended ++ d :: rest)) :
    d.fetch.entity ∉ ended.map (·.fetch.entity) := by
  have hnodup := h.entities.nodup_iff.mpr hids
  rw [List.map_append, List.map_cons, List.nodup_append] at hnodup
  exact fun hold => hnodup.2.2 _ hold _ List.mem_cons_self rfl

/-- **However far it has come**, where it stands is known. -/
theorem Enumerated.reaches (h : c.Enumerated) (epoch : Epoch) (hids : c.wanted.Nodup)
    (hown : ∀ id e, answer id = .snapshot e → e.entityId = id) (hne : c.wanted ≠ [])
    {rest : List Ending} (hends : c.Completes answer (ended ++ rest)) :
    c.Reaches epoch answer ended ((c.resynchronize epoch).1.run (allMoves answer ended)) := by
  induction ended using List.reverseRecOn generalizing rest with
  | nil => exact h.reaches_start hne
  | append_singleton ended d ih =>
    rw [List.append_assoc, List.singleton_append] at hends
    have hmem : d ∈ ended ++ d :: rest := List.mem_append_right _ List.mem_cons_self
    rw [allMoves, List.flatMap_append, List.flatMap_singleton, run_eq_andThen]
    exact (ih hends).step (hends.perm.subset (List.mem_map_of_mem hmem))
      (hends.entity_notMem hids) (hown d.fetch.entity) (hends.late d hmem)

/-- A resynchronization of nothing ends at once. -/
theorem Completes.eq_nil {endings : List Ending} (h : c.Completes answer endings)
    (hnil : c.wanted = []) : endings = [] := by
  have hperm := h.perm
  rw [hnil] at hperm
  exact List.map_eq_nil_iff.mp hperm.eq_nil

theorem resynchronize_of_nil (epoch : Epoch) (hnil : c.wanted = []) :
    c.resynchronize epoch = (c.setGlobalError none).still := by
  have hnil : (c.setGlobalError none).engine.interests.topics.map Topic.entityId = [] := hnil
  simp only [resynchronize, hnil]

/-- **What a resynchronization comes to**, from the client that started it. -/
structure Comes (c : Client) (answer : EntityId → Answer) (s : Step) : Prop where
  /-- The client has asked for nothing more. -/
  silent : s.2 = []
  /-- What came back was reconciled, and what failed left its entity alone. -/
  settled : ∀ id ∈ c.wanted,
    (answer id).Settles (c.engine.cache.slot? id) (s.1.engine.cache.slot? id)
  /-- The entities that were not fetched are as before. -/
  others : ∀ id, id ∉ c.wanted → s.1.engine.cache.slot? id = c.engine.cache.slot? id
  /-- The first failure is shown. -/
  global : s.1.engine.notice.global = firstErrorText (c.failuresOf answer)

theorem Enumerated.comes (h : c.Enumerated) (hids : c.wanted.Nodup)
    (hown : ∀ id e, answer id = .snapshot e → e.entityId = id) {endings : List Ending}
    (hends : c.Completes answer endings) :
    c.Comes answer ((c.resynchronize epoch).1.run (allMoves answer endings)) := by
  by_cases hne : c.wanted = []
  · rw [hends.eq_nil hne, resynchronize_of_nil epoch hne]
    refine ⟨rfl, fun id hid => absurd (hne ▸ hid) List.not_mem_nil, fun _ _ => rfl, ?_⟩
    rw [failuresOf, hne]
    rfl
  · have hwhole : c.Completes answer (endings ++ []) := (List.append_nil endings).symm ▸ hends
    have hreached := h.reaches epoch hids hown hne hwhole
    have hmem (id : EntityId) : id ∈ endings.map (·.fetch.entity) ↔ id ∈ c.wanted :=
      hends.entities.mem_iff
    have hall : ∀ id ∈ c.wanted, id ∈ endings.map (·.fetch.entity) := fun id => (hmem id).mpr
    refine ⟨hreached.silent, fun id hid => hreached.settled id (hall id hid),
      fun id hid => hreached.others id (mt (hmem id).mp hid), ?_⟩
    refine (hreached.global.trans (if_pos (Resync.isDone_after.mpr hall))).trans ?_
    rw [Resync.failures_after hall]
    rfl

/-- The slots do not depend on the order, except for times. -/
theorem Comes.same {s t : Step} (h : c.Comes answer s) (h' : c.Comes answer t) (id : EntityId) :
    Option.Rel Slot.Same (s.1.engine.cache.slot? id) (t.1.engine.cache.slot? id) := by
  by_cases hid : id ∈ c.wanted
  · exact (h.settled id hid).same (h'.settled id hid)
  · rw [h.others id hid, h'.others id hid]
    cases c.engine.cache.slot? id with
    | none => exact .none
    | some s => exact .some (.refl s)

/-- **A resynchronization comes to the same in whatever order its fetches end.** It
asks for every entity once, and for none of them conditionally. In the end what came
back has been reconciled, and everything else was left alone (`Comes`); another order
leaves the same entries, up to their times. The last fetch to end completes the list of
the failures, which is in the order of the entities. -/
theorem resynchronize_in_any_order (c : Client) (epoch : Epoch) (answer : EntityId → Answer)
    {endings : List Ending} (h : c.Enumerated) (hids : c.wanted.Nodup)
    (hown : ∀ id e, answer id = .snapshot e → e.entityId = id)
    (hends : c.Completes answer endings) :
    let started := c.resynchronize epoch
    let done := started.1.run (allMoves answer endings)
    started.2 = c.resyncActions c.wanted
      ∧ c.Comes answer done
      ∧ (∀ others, c.Completes answer others → ∀ id,
        Option.Rel Slot.Same (done.1.engine.cache.slot? id)
          ((started.1.run (allMoves answer others)).1.engine.cache.slot? id))
      ∧ ∀ past last, endings = past ++ [last] →
        ∃ r, (started.1.run (allMoves answer past)).1.resync = some r
          ∧ (r.record last.fetch.entity (c.failureOf answer last.fetch.entity)).failures
            = c.failuresOf answer
          ∧ done.1.resync = none := by
  intro started done
  have hcomes : c.Comes answer done := h.comes hids hown hends
  refine ⟨?_, hcomes, fun others hothers => hcomes.same (h.comes hids hown hothers), ?_⟩
  · by_cases hne : c.wanted = []
    · rw [show started = _ from resynchronize_of_nil epoch hne, hne]
      rfl
    · exact congrArg Prod.snd (c.resynchronize_eq epoch hne)
  · rintro past last rfl
    have hmem : last.fetch.entity ∈ (past ++ [last]).map (·.fetch.entity) := by simp
    have hwanted := hends.entities.subset hmem
    have hne : c.wanted ≠ [] := List.ne_nil_of_mem hwanted
    have hall : ∀ id ∈ c.wanted, id ∈ (past ++ [last]).map (·.fetch.entity) :=
      fun id hid => hends.entities.symm.subset hid
    have hbefore := (h.reaches epoch hids hown hne hends).resync.trans
      (if_neg fun hdone => hends.entity_notMem hids (Resync.isDone_after.mp hdone _ hwanted))
    have hwhole : c.Completes answer (past ++ [last] ++ []) :=
      (List.append_nil (past ++ [last])).symm ▸ hends
    have hafter := (h.reaches epoch hids hown hne hwhole).resync.trans
      (if_pos (Resync.isDone_after.mpr hall))
    refine ⟨_, hbefore, ?_, hafter⟩
    rw [Resync.record_after]
    exact Resync.failures_after (by simpa using hall)

/-- A client that is interested in four entities and has heard of two. -/
def interested : Client :=
  ((start .default .initial).run
    [.subscribe 7 none, .subscribe 8 none, .subscribe 9 none, .subscribe 10 none,
      .push 7 5 .null, .push 8 5 .null]).1

/-- The server has a newer state of entity 7 and the same one of entity 8; the
fetches of the others fail. -/
def mixedAnswers (id : EntityId) : Answer :=
  if id = 7 then .snapshot (.http 7 6 .null none ⟨0, 0⟩)
  else if id = 8 then .notModified
  else if id = 9 then .failed (.notFound 9)
  else .timedOut

/-- The order in which the fetches of the four entities end. -/
def mixedEndings : List Ending :=
  [⟨⟨2, 9, 10_000_000_000, .resync⟩, 5, ⟨0, 5⟩⟩, ⟨⟨1, 8, 10_000_000_000, .resync⟩, 6, ⟨0, 6⟩⟩,
    ⟨⟨3, 10, 10_000_000_000, .resync⟩, 10_000_000_000, ⟨10, 0⟩⟩,
    ⟨⟨0, 7, 10_000_000_000, .resync⟩, 10_000_000_001, ⟨10, 1⟩⟩]

/-- Four entities, whose fetches end otherwise than they were started. -/
theorem resynchronize_in_any_order_mixed :
    interested.wanted = [7, 8, 9, 10]
      ∧ interested.Completes mixedAnswers mixedEndings
      ∧ interested.Comes mixedAnswers
        ((interested.resynchronize 1).1.run (allMoves mixedAnswers mixedEndings))
      ∧ interested.failuresOf mixedAnswers = [(9, .notFound 9), (10, .timeout 10_000)] := by
  have henumerated : interested.Enumerated := enumerated_run .default .initial _
  have hwanted : interested.wanted = [7, 8, 9, 10] := by decide +kernel
  have hids : interested.wanted.Nodup := hwanted ▸ by decide
  have hown : ∀ id e, mixedAnswers id = .snapshot e → e.entityId = id := by
    intro id e he
    unfold mixedAnswers at he
    repeat' split at he
    all_goals cases he
    rename_i h
    exact h.symm
  have hends : interested.Completes mixedAnswers mixedEndings :=
    ⟨by decide +kernel, by decide +kernel⟩
  have hcomes := (resynchronize_in_any_order interested 1 mixedAnswers henumerated hids hown
    hends).2.1
  exact ⟨hwanted, hends, hcomes, by decide +kernel⟩

end Client

end LiveSync
