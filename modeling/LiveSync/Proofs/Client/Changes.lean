import LiveSync.Proofs.Cache.Soundness
import LiveSync.Proofs.Client.Owners

/-!
# What moves are made of

A client has thirty moves, and whatever is said of all its runs has to be said
of every one of them. Yet most of what a move does concerns few parts of a
client: commands, the cache they guess in, fetches, and interests. On these
there are few **changes** (`Client.Change`), each of them with the condition
under which it comes about; everything else that happens is **beside** them
(`Client.Beside`).

A move is a chain of such changes (`Client.Course`), for whichever client it is
made that its commands take turns in (`InTurn.course`). The chain can be long:
what leaves the link at once may be the answers to many commands. Whoever wants
to know something of all moves proves it of the changes, and from them, by
induction on the chain, of the moves.

A change says of which moves it can be part only as much as is needed later. The
one that matters is to accept a command: watchdogs are then set, and with the
moves that can do this they are not disturbed in any other way (`Move.answers`).
-/

namespace LiveSync

open LiveSync.Connection

/-- Whether a move can bring the answer of the server to a command. -/
def Move.answers : Move → Bool
  | .manageCommand | .manageInput | .manageHost | .line _ _ | .submitted _ _ => true
  | _ => false

/-- **Whether a move is as the world makes it**: what is fetched comes from the
server, and is no guess. -/
def Move.IsHonest : Move → Prop
  | .fetched _ (.ok (.modified e)) => e.provenance.isAuthoritative = true
  | _ => True

/-- Which operations on commands and watchdogs can be part of a move. To accept
a command is not among them; it concerns fetches, too. -/
def Move.allows (m : Move) : Coordinator.Op → Bool
  | .world _ | .resolve _ (.ok _) _ => false
  | .resolve _ (.error _) _ | .forget _ => true
  | .join _ _ | .enter _ _ _ _ | .wake _ _ | .confirm _ _ | .shutdown => !m.answers

/-! ### What is watched -/

namespace Turns

/-- To look at an entity starts and ends no watch. -/
theorem keys_observe (t : Turns) (cache : Cache) (id : EntityId) :
    (t.observe cache id).state.watches.keys = t.watches.keys := by
  unfold observe
  split
  · rename_i hw
    split
    · exact Table.keys_insert_of_get? hw _
    · rfl
  · rfl

theorem keys_observeAll (t : Turns) (cache : Cache) (ids : List EntityId) :
    (t.observeAll cache ids).state.watches.keys = t.watches.keys := by
  unfold observeAll
  induction ids using List.reverseRecOn with
  | nil => rfl
  | append_singleton ids id ih =>
    rw [List.foldl_append]
    exact (keys_observe _ cache id).trans ih

/-- To follow events starts and ends no watch. -/
theorem keys_follow (t : Turns) (cache : Cache) (reading : Reading Event) :
    (t.follow cache reading).state.watches.keys = t.watches.keys := by
  unfold follow
  split
  · split
    · exact t.keys_observe cache _
    · rfl
  · rfl
  · rfl
  · exact t.keys_observeAll cache _

/-- To take a hint starts and ends no watch. -/
theorem keys_hint (t : Turns) (cache : Cache) (id : EntityId) :
    (t.hint cache id).state.watches.keys = t.watches.keys := by
  unfold hint
  split
  · rfl
  · split
    · rfl
    · rename_i hw
      split
      · rfl
      · exact Table.keys_insert_of_get? hw _

end Turns

namespace Client

variable {c c' : Client} {m : Move} {s t : Step}

/-! ### What is beside the changes -/

/-- **What the changes are about.** -/
structure Core where
  config : Config
  now : Clock
  desk : Coordinator.WithCache
  fetches : List Fetch
  interests : Interests
  subscriptions : List (Option Subscription)
  watched : List EntityId

/-- What of a client the changes are about. -/
def core (c : Client) : Core :=
  ⟨c.config, c.now, c.desk, c.fetches, c.engine.interests, c.subscriptions,
    c.engine.turns.watches.keys⟩

/-- **A step beside the changes.** New calls have new numbers, and nobody is told
that a command with a guess was accepted. -/
structure Beside (c : Client) (s : Step) : Prop where
  core : s.1.core = c.core
  fresh : c.fresh ≤ s.1.fresh
  calls : ∀ k what, s.1.calls.get? k = some what → c.calls.get? k = some what ∨ c.fresh ≤ k
  told : ∀ k r, .finish k (.submitted (.ok r)) ∈ s.2 → c.calls.get? k = some .command

/-- Most of what is beside the changes concerns no caller. -/
theorem beside_of_core (hcore : c'.core = c.core) (hcalls : c'.calls = c.calls)
    (hfresh : c.fresh ≤ c'.fresh) {actions : List ClientAction}
    (htold : ∀ k r, .finish k (.submitted (.ok r)) ∉ actions) : c.Beside (c', actions) where
  core := hcore
  fresh := hfresh
  calls _ _ hcall := .inl (hcalls ▸ hcall)
  told k r hmem := absurd hmem (htold k r)

/-- A caller gets an answer, other than that a command with a guess was
accepted. -/
theorem beside_finish {caller : CallId} {result : CallResult}
    (hresult : ∀ r, result = .submitted (.ok r) → c.calls.get? caller = some .command) :
    c.Beside (c.finish caller result) where
  core := rfl
  fresh := Nat.le_refl _
  calls _ _ hcall := .inl (Table.get?_of_erase hcall)
  told k r hmem := by
    obtain ⟨rfl, heq⟩ := ClientAction.finish.inj (List.mem_singleton.mp hmem)
    exact hresult r heq.symm

/-! ### Changes -/

/-- A client with another coordinator, and another cache. -/
def withDesk (c : Client) (d : Coordinator.WithCache) : Client :=
  { c with coordinator := d.1, engine := { c.engine with cache := d.2 } }

/-- A client once a subscription was taken, before the connection is told. -/
def take (c : Client) (id : EntityId) (seat : Option Seat) : Client :=
  { c with
    engine := ((c.engine.watch id seat).subscribe (.game id)).1
    subscriptions := c.subscriptions ++ [some ⟨.game id, true⟩] }

/-- A client once a subscription was given up, before the connection is told. -/
def giveUp (c : Client) (handle : Nat) (sub : Subscription) : Client :=
  { c with
    engine := (c.engine.unsubscribe sub).1
    subscriptions := c.subscriptions.set handle none }

/-- **A change that can be part of a move**, and what comes of it. -/
inductive Change (m : Move) (c : Client) : Step → Prop
  /-- Time passes. -/
  | tick (now : Clock) (hm : m = .tick now) : Change m c { c with now := max c.now now }.still
  /-- Something happens beside the changes. -/
  | aside {s : Step} (h : c.Beside s) : Change m c s
  /-- The cache takes something up that came from the server. -/
  | world (cache : Cache) (h : m.IsHonest → c.engine.cache.Sound →
      cache.Sound ∧ c.engine.cache.Grows cache) :
    Change m c (c.withDesk (c.coordinator, cache)).still
  /-- An operation on commands and watchdogs. -/
  | perform (op : Coordinator.Op) (h : m.allows op = true) :
    Change m c (c.withDesk (Coordinator.perform c.desk op)).still
  /-- A command was accepted. -/
  | accept {caller : CallId} {sub : Submission} {route : Route} {previous : Entry}
      {deadline : Clock} (hm : m.answers = true)
      (hfind : c.coordinator.find? caller = some sub)
      (hstage : sub.stage = .dispatched route previous deadline) (receipt : Receipt) :
    Change m c (c.resolve caller previous (.ok receipt))
  /-- A fetch is started, for a watchdog only when that wakes up. -/
  | fetch (id : EntityId) (force : Bool) (purpose : Purpose)
      (h : purpose = .confirm → m = .watchdog id) : Change m c (c.startFetch id force purpose)
  /-- Fetches are called off, or have ended. -/
  | drop (p : Fetch → Bool) : Change m c (c.dropFetches p).still
  /-- A subscription is taken. -/
  | hold (id : EntityId) (seat : Option Seat) (hm : m = .subscribe id seat) :
    Change m c (c.take id seat).still
  /-- A subscription is given up. -/
  | letGo (handle : Nat) (sub : Subscription) (hm : m = .unsubscribe handle)
      (h : c.subscriptions[handle]? = some (some sub)) :
    Change m c (c.giveUp handle sub).still

/-- **A chain of changes** in a move, and what comes of it. -/
inductive Course (m : Move) (c : Client) : Step → Prop
  | still : Course m c c.still
  | go {s t : Step} (h : Course m c s) (change : Change m s.1 t) : Course m c (t.1, s.2 ++ t.2)

/-- **One chain after another.** -/
theorem Course.append (h : Course m c s) (h' : Course m s.1 t) : Course m c (t.1, s.2 ++ t.2) := by
  induction h' with
  | still =>
    show Course m c (s.1, s.2 ++ [])
    rwa [List.append_nil]
  | go _ change ih =>
    show Course m c (_, s.2 ++ (_ ++ _))
    rw [← List.append_assoc]
    exact ih.go change

theorem Course.andThen {f : Client → Step} (h : Course m c s) (hf : Course m s.1 (f s.1)) :
    Course m c (s.andThen f) :=
  h.append hf

/-- A chain after one that does not concern the world outside. -/
theorem Course.after (h : Course m c c'.still) (h' : Course m c' s) : Course m c s :=
  h.append h'

theorem Change.course (h : Change m c s) : Course m c s := Course.still.go h

theorem Beside.course (h : c.Beside s) : Course m c s := Change.course (.aside h)

/-- Most steps beside the changes are silent. -/
theorem course_of_core (hcore : c'.core = c.core) (hcalls : c'.calls = c.calls)
    (hfresh : c.fresh ≤ c'.fresh) : Course m c c'.still :=
  (beside_of_core hcore hcalls hfresh fun _ _ => List.not_mem_nil).course

/-- A call is answered, and no command with a guess was accepted. -/
theorem course_finish {caller : CallId} {result : CallResult}
    (hresult : ∀ r, result ≠ .submitted (.ok r)) : Course m c (c.finish caller result) :=
  (beside_finish fun r heq => absurd heq (hresult r)).course

theorem course_setMutationError (error : Option String) :
    Course m c (c.setMutationError error).still :=
  course_of_core rfl rfl (Nat.le_refl _)

theorem course_setGlobalError (error : Option String) :
    Course m c (c.setGlobalError error).still :=
  course_of_core rfl rfl (Nat.le_refl _)

/-! ### Operations -/

/-- An operation on the cache is a change, whatever it publishes. -/
theorem course_onCache {α : Type} (op : Cache → Update Cache α)
    (h : m.IsHonest → c.engine.cache.Sound →
      (op c.engine.cache).state.Sound ∧ c.engine.cache.Grows (op c.engine.cache).state) :
    Course m c (c.onEngine (·.onCache op)).1.still :=
  (Change.course (.world _ h)).after (course_of_core rfl rfl (Nat.le_refl _))

/-- An operation on commands and watchdogs is a change, if the move allows it. -/
theorem course_onCoordinator {α : Type}
    {op : Coordinator → Cache → Update Coordinator.WithCache α} {o : Coordinator.Op}
    (hop : (op c.coordinator c.engine.cache).state = Coordinator.perform c.desk o)
    (ho : m.allows o = true) : Course m c (c.onCoordinator op).1.still := by
  refine (Change.course (.perform o ho)).after (course_of_core ?_ rfl (Nat.le_refl _))
  show Core.mk _ _ (op c.coordinator c.engine.cache).state _ _ _ _ = _
  rw [hop]
  rfl

/-- What comes from the server keeps the cache sound. -/
theorem sound_reconcile {cache : Cache} (h : cache.Sound) {id : EntityId} {now : Instant}
    {result : Except Failure.Fetch FetchOutcome}
    (hresult : ∀ e, result = .ok (.modified e) → e.provenance.isAuthoritative = true) :
    (cache.reconcile id now result).state.Sound
      ∧ cache.Grows (cache.reconcile id now result).state := by
  match result with
  | .error _ => exact ⟨h, (Cache.Quiet.refl cache).grows⟩
  | .ok .notModified => exact (h.markNotModified id now).imp_right Cache.Quiet.grows
  | .ok (.modified e) => exact ⟨h.apply (hresult e rfl), h.grows_apply e⟩

/-! ### Commands -/

/-- **A command has failed**: its guess is taken back. -/
theorem course_resolve_error {caller : CallId} {sub : Submission} {route : Route}
    {previous : Entry} {deadline : Clock} (hfind : c.coordinator.find? caller = some sub)
    (hstage : sub.stage = .dispatched route previous deadline) (f : Failure.Command) :
    Course m c (c.resolve caller previous (.error f)) := by
  have hop := Coordinator.perform_resolve (d := c.desk) hfind hstage (.error f)
    (c.now + c.config.confirmTimeout.nanos)
  have hresolved : Course m c (c.onCoordinator
      (·.resolve · caller previous (.error f) (c.now + c.config.confirmTimeout.nanos))).1.still :=
    course_onCoordinator hop.symm rfl
  exact (hresolved.after (course_setMutationError _)).after
    (course_finish fun _ heq => by cases heq)

theorem course_resolve {caller : CallId} {sub : Submission} {route : Route} {previous : Entry}
    {deadline : Clock} (hfind : c.coordinator.find? caller = some sub)
    (hstage : sub.stage = .dispatched route previous deadline)
    {result : Except Failure.Command Receipt} (hm : ∀ r, result = .ok r → m.answers = true) :
    Course m c (c.resolve caller previous result) := by
  cases result with
  | ok receipt => exact Change.course (.accept (hm receipt rfl) hfind hstage receipt)
  | error f => exact course_resolve_error hfind hstage f

theorem course_answered {caller : CallId} {result : Except Failure.Command Receipt}
    (hm : ∀ r, result = .ok r → m.answers = true) : Course m c (c.answered caller result) := by
  unfold answered
  split
  · rename_i hcall
    exact (beside_finish fun _ _ => hcall).course
  · split
    · rename_i hfind
      exact course_resolve hfind rfl hm
    · exact .still
  · exact .still

theorem course_absorb {o : Link.Output}
    (hm : ∀ k r, o = .reply k (.ok r) → m.answers = true) : Course m c (c.absorb o) := by
  cases o with
  | reply caller result => exact course_answered fun r hr => hm caller r (hr ▸ rfl)
  | report r =>
    dsimp only [absorb]
    split
    · exact course_of_core rfl rfl (Nat.le_refl _)
    · exact .still
  | publish event => exact course_of_core rfl rfl (Nat.le_refl _)
  | connect | send | close =>
    exact (beside_of_core rfl rfl (Nat.le_refl _) fun k r hmem => by
      cases List.mem_singleton.mp hmem).course

/-- **What leaves the link is taken up**, one after another. -/
theorem course_onLink {s : Link.Step}
    (hm : ∀ k r, .reply k (.ok r) ∈ s.2 → m.answers = true) : Course m c (c.onLink s) := by
  have hmoved : Course m c ({ c with link := s.1 }, []) :=
    course_of_core rfl rfl (Nat.le_refl _)
  unfold onLink
  generalize s.2 = outputs at hm
  induction outputs using List.reverseRecOn with
  | nil => exact hmoved
  | append_singleton outputs o ih =>
    rw [List.foldl_append]
    refine (ih fun k r hmem => hm k r (List.mem_append_left _ hmem)).andThen
      (f := (absorb · o)) (course_absorb ?_)
    rintro k r rfl
    exact hm k r (List.mem_append_right _ (List.mem_singleton_self _))

/-- A manager that takes no command says so, and nothing else. -/
theorem course_enqueue (command : Command) : Course m c (c.enqueue command) := by
  refine course_onLink fun k r hmem => ?_
  unfold Link.enqueue at hmem
  split at hmem
  · cases command <;> simp [Link.unanswered] at hmem
  · cases hmem

theorem course_sendCommand (caller : CallId) (id : EntityId) (version : Version)
    (action : Action) : Course m c (c.sendCommand caller id version action) := by
  have hnumbered : Course m c c.freshRequest.1.still := course_of_core rfl rfl (Nat.le_succ _)
  exact hnumbered.after (course_enqueue _)

theorem course_dispatch (caller : CallId) (mutation : Mutation) (previous : Entry)
    (route : Route) : Course m c (c.dispatch caller mutation previous route) := by
  cases route with
  | live => exact course_sendCommand caller _ _ _
  | api =>
    exact (beside_of_core rfl rfl (Nat.le_refl _) fun k r hmem => by
      cases List.mem_singleton.mp hmem).course

/-- A caller asks for something, and gets a number of its own. -/
theorem course_call (what : Call) : Course m c (c.call what).1.still := by
  refine Beside.course ⟨rfl, Nat.le_succ _, fun k w hcall => ?_, nofun⟩
  have hcall : (c.calls.insert c.fresh what).get? k = some w := hcall
  rw [Table.get?_insert] at hcall
  split at hcall
  · rename_i heq
    exact .inr heq.le
  · exact .inl hcall

/-- **A command comes**, which nobody else has asked for. -/
theorem InTurn.course_submit (h : c.InTurn) (hm : m.answers = false) (mutation : Mutation) :
    Course m c (c.submit mutation) := by
  have hnew : c.coordinator.find? c.fresh = none := by
    refine List.find?_eq_none.mpr fun s hs hc => ?_
    exact Nat.ne_of_lt (h.callers s hs) (of_decide_eq_true hc)
  have hjoined : Course m (c.call .submit).1
      ((c.call .submit).1.withDesk (Coordinator.perform c.desk (.join c.fresh mutation))).still :=
    Change.course (.perform (.join c.fresh mutation) (by rw [Move.allows, hm]; rfl))
  rw [Coordinator.perform_join (d := c.desk) hnew] at hjoined
  exact (course_call .submit).after hjoined

/-- **A command gets its turn.** -/
theorem InTurn.course_enter (h : c.InTurn) (hm : m.answers = false) (caller : CallId) :
    Course m c (c.enter caller) := by
  unfold Client.enter
  split
  · rename_i s hfind
    split
    · rename_i hnext
      obtain ⟨hs, -⟩ := Coordinator.mem_of_find? hfind
      have hop := Coordinator.perform_enter (d := c.desk) hfind
        (h.orderly.first?_of_isNext hs hnext).1 (h.inLine.isFree_of_isNext h.orderly hs hnext)
        c.routeNow c.instant (c.now + c.config.commandTimeout.nanos)
      have hturn : Course m c (c.onCoordinator (·.enter · s c.routeNow c.instant
          (c.now + c.config.commandTimeout.nanos))).1.still :=
        course_onCoordinator hop.symm (by rw [Move.allows, hm]; rfl)
      dsimp only
      split
      · exact hturn.after (course_dispatch caller _ _ _)
      · exact (hturn.after (course_setMutationError _)).after
          (course_finish fun _ heq => by cases heq)
    · exact .still
  · exact .still

/-! ### Fetches -/

theorem course_showRefresh {α : Type} (id : EntityId) (r : Except Failure.Fetch α) :
    Course m c (c.showRefresh id r).still := by
  cases r <;> exact course_setGlobalError _

theorem course_endResyncFetch (id : EntityId) (r : Except Failure.Fetch RefreshOutcome) :
    Course m c (c.endResyncFetch id r).still := by
  simp only [endResyncFetch]
  repeat' split
  all_goals exact course_of_core rfl rfl (Nat.le_refl _)

/-- **A fetch ends.** -/
theorem course_endFetch (hm : m.answers = false) (f : Fetch)
    {result : Except Failure.Fetch FetchOutcome}
    (hresult : m.IsHonest → ∀ e, result = .ok (.modified e) →
      e.provenance.isAuthoritative = true) : Course m c (c.endFetch f result) := by
  have hended : Course m c (c.dropFetches fun g => g.id = f.id).still := Change.course (.drop _)
  have hbrought : Course m (c.dropFetches fun g => g.id = f.id)
      ((c.dropFetches fun g => g.id = f.id).onEngine (·.onCache (·.reconcile f.entity
        (c.dropFetches fun g => g.id = f.id).instant result))).1.still :=
    course_onCache (·.reconcile f.entity (c.dropFetches fun g => g.id = f.id).instant result)
      fun hhonest hsound => sound_reconcile hsound (hresult hhonest)
  have hsofar := hended.after hbrought
  unfold endFetch
  dsimp only
  split
  · exact (hsofar.after (course_showRefresh _ _)).after (course_finish nofun)
  · exact (hsofar.after (course_showRefresh _ _)).after (course_finish nofun)
  · exact hsofar.after (course_endResyncFetch _ _)
  · refine hsofar.after (course_onCoordinator (o := .confirm f.entity _) rfl ?_)
    rw [Move.allows, hm]
    rfl

theorem course_resynchronize (epoch : Epoch) : Course m c (c.resynchronize epoch) := by
  have hshown : Course m c (c.setGlobalError none).still := course_setGlobalError none
  unfold resynchronize
  dsimp only
  split
  · exact hshown
  · -- the fetches are started on a client whose earlier ones were called off
    rename_i ids _
    generalize hd : ({ (c.setGlobalError none).dropFetches (·.purpose = .resync) with
      resync := some (.start epoch ((c.setGlobalError none).engine.interests.topics.map
        Topic.entityId)) } : Client) = d
    have hcleared : Course m c d.still :=
      hshown.after ((Change.course (.drop (·.purpose = .resync))).after
        (hd ▸ course_of_core rfl rfl (Nat.le_refl _)))
    refine hcleared.after ?_
    generalize (c.setGlobalError none).engine.interests.topics.map Topic.entityId = ids
    induction ids using List.reverseRecOn with
    | nil => exact .still
    | append_singleton ids id ih =>
      rw [List.foldl_append]
      exact ih.andThen (f := (startFetch · id true .resync))
        (Change.course (.fetch id true .resync nofun))

/-! ### The moves -/

theorem course_routeFrame (frame : Wire.ServerFrame) : Course m c (c.routeFrame frame).still := by
  cases frame with
  | stateUpdate topic version payload =>
    exact course_onCache (·.applyPush topic.entityId version payload c.instant)
      fun _ hsound => ⟨hsound.apply rfl, hsound.grows_apply _⟩
  | yourTurn id user =>
    refine course_of_core ?_ rfl (Nat.le_refl _)
    exact congrArg (Core.mk _ _ _ _ _ _) (c.engine.turns.keys_hint c.engine.cache id)
  | invalidated | error | helloAck | ack | commandAck =>
    exact course_of_core rfl rfl (Nat.le_refl _)

theorem course_route : Course m c c.route := by
  unfold route
  split
  · exact .still
  · rename_i r rest _
    have hrest : Course m c ({ c with reports := rest } : Client).still :=
      course_of_core rfl rfl (Nat.le_refl _)
    cases r with
    | established epoch user => exact hrest.after (course_resynchronize epoch)
    | frame f => exact hrest.after (course_routeFrame f)
    | failed error => exact hrest.after (course_setGlobalError _)

theorem course_detect : Course m c c.detect.still := by
  unfold detect
  split
  · refine course_of_core ?_ rfl (Nat.le_refl _)
    exact congrArg (Core.mk _ _ _ _ _ _) (c.engine.turns.keys_follow c.engine.cache _)
  · exact .still

theorem course_subscribe (id : EntityId) (seat : Option Seat) :
    Course (.subscribe id seat) c (c.subscribe id seat) := by
  have hheld := Change.course (Change.hold (c := c) id seat rfl)
  unfold subscribe
  dsimp only
  split
  · exact hheld.after (course_enqueue _)
  · exact hheld

theorem course_unsubscribe (handle : Nat) :
    Course (.unsubscribe handle) c (c.unsubscribe handle) := by
  unfold unsubscribe
  split
  · rename_i sub hsub
    have hgone := Change.course (Change.letGo (c := c) handle sub rfl hsub)
    dsimp only
    split
    · exact hgone.after (course_enqueue _)
    · exact hgone
  · exact .still

theorem course_shutdown : Course .shutdown c c.shutdown := by
  unfold shutdown
  split
  · have hstopped : Course .shutdown c (c.dropFetches (·.purpose.isBackground)).still :=
      Change.course (.drop _)
    have hcleared := hstopped.after (Change.course (.perform .shutdown rfl))
    refine (hcleared.after (course_of_core ?_ ?_ ?_)).after (course_enqueue _)
    · rfl
    · rfl
    · exact Nat.le_refl _
  · exact .still

theorem course_manageHost : Course .manageHost c c.manageHost := by
  have hread (host : Host) : Course .manageHost c ({ c with host := host } : Client).still :=
    course_of_core rfl rfl (Nat.le_refl _)
  unfold manageHost
  split
  · exact .still
  · dsimp only
    split
    · exact (hread _).after (course_onLink fun _ _ _ => rfl)
    · exact hread _
    · exact hread _

theorem course_lookAgain (caller : CallId) : Course m c (c.lookAgain caller) := by
  unfold lookAgain
  split
  · split
    · exact course_finish nofun
    · split
      · exact course_finish nofun
      · exact .still
  · exact .still

theorem course_abandon (caller : CallId) : Course m c (c.abandon caller).still := by
  have hdropped : Course m c (c.dropFetches (·.purpose.isFor caller)).still :=
    Change.course (.drop _)
  exact (hdropped.after (Change.course (.perform (.forget caller) rfl))).after
    (Beside.course ⟨rfl, Nat.le_refl _, fun _ _ hcall => .inl (Table.get?_of_erase hcall), nofun⟩)

theorem course_wakeWatchdog (id : EntityId) : Course (.watchdog id) c (c.wakeWatchdog id) := by
  have hwoken : Course (.watchdog id) c
      (c.withDesk (Coordinator.perform c.desk (.wake id c.now))).still :=
    Change.course (.perform (.wake id c.now) rfl)
  unfold wakeWatchdog
  dsimp only
  split
  · exact hwoken.after (Change.course (.fetch id true .confirm fun _ => rfl))
  · exact hwoken

/-- **A move is a chain of changes.** -/
theorem InTurn.course (h : c.InTurn) (m : Move) : Course m c (c.step m) := by
  cases m with
  | tick now => exact Change.course (.tick now rfl)
  | host | handshakeTimer | retryTimer => exact course_of_core rfl rfl (Nat.le_refl _)
  | connect | disconnect => exact course_enqueue _
  | shutdown => exact course_shutdown
  | subscribe id seat => exact course_subscribe id seat
  | unsubscribe handle => exact course_unsubscribe handle
  | load id =>
    exact (course_call .load).after (Change.course (.fetch id false (.load c.fresh) nofun))
  | refresh id =>
    exact (course_call .refresh).after (Change.course (.fetch id true (.refresh c.fresh) nofun))
  | submit mutation => exact h.course_submit rfl mutation
  | command id version action =>
    exact (course_call .command).after (course_sendCommand _ id version action)
  | wait status => exact course_call _
  | abandon caller => exact course_abandon caller
  | push id version payload =>
    exact course_onCache (·.applyPush id version payload c.instant)
      fun _ hsound => ⟨hsound.apply rfl, hsound.grows_apply _⟩
  | manageCommand | manageInput | line => exact course_onLink fun _ _ _ => rfl
  | manageHost => exact course_manageHost
  | route => exact course_route
  | detect => exact course_detect
  | enter caller => exact h.course_enter rfl caller
  | lookAgain caller => exact course_lookAgain caller
  | fetched id result =>
    simp only [Client.step, Client.fetched]
    split
    · refine course_endFetch rfl _ ?_
      rintro hhonest e rfl
      exact hhonest
    · exact .still
  | submitted caller result =>
    simp only [Client.step, Client.submitted]
    split
    · rename_i hfind
      exact course_resolve hfind rfl fun _ _ => rfl
    · exact .still
  | fetchTimer id =>
    simp only [Client.step, Client.fetchTimer]
    split
    · split
      · exact course_endFetch rfl _ fun _ _ heq => by cases heq
      · exact .still
    · exact .still
  | commandTimer caller =>
    simp only [Client.step, Client.commandTimer]
    split
    · rename_i hfind
      split
      · exact course_resolve_error hfind rfl _
      · exact .still
    · exact .still
  | watchdog id => exact course_wakeWatchdog id

end Client

end LiveSync
