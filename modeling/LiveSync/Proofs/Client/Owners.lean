import LiveSync.Proofs.Client.Commands
import LiveSync.Proofs.Connection.Topics

/-!
# Whom a fetch belongs to

Fetches are started in four places and end in as many ways. Some of them are
started by what was started in the background itself, and a fetch may be
overtaken: a newer connection makes an earlier resynchronization pointless,
and a newer command makes an earlier watchdog pointless. Whoever wants to stop
everything that works in the background must get hold of all of these at any
moment.

Therefore every fetch has an **owner** – a call, an entity's place in the
resynchronization under way, or an entity's watchdog –, the owner still waits
for it, and no two fetches have the same one (`Client.Owned`). No fetch is
left behind by an owner that is gone, nor by one that has started another.

The invariant cannot be had from the fetches alone. An owner that waits must
not be taken for another one: the calls are numbered, and no number was given
out before; the entities that are fetched together are distinct, because each
topic is counted once.
-/

namespace LiveSync

open LiveSync.Connection

/-- **Whom a fetch belongs to.** -/
inductive Owner where
  | call (caller : CallId)
  /-- An entity's place in the resynchronization. -/
  | resync (id : EntityId)
  /-- An entity's watchdog. -/
  | watchdog (id : EntityId)
deriving DecidableEq, Repr

/-- Whom a fetch of an entity belongs to that is made for a purpose. -/
def Purpose.owner (id : EntityId) : Purpose → Owner
  | .load caller | .refresh caller => .call caller
  | .resync => .resync id
  | .confirm => .watchdog id

/-- Whom a fetch belongs to. -/
def Fetch.owner (f : Fetch) : Owner := f.purpose.owner f.entity

/-! ### The coordinator -/

namespace Coordinator

/-- **A watchdog that wakes up** was asleep, and is gone if it has nothing to
fetch. -/
theorem wake_cases (k : Coordinator) (cache : Cache) (id : EntityId) (now : Clock) :
    k.wake cache id now = (k, false)
      ∨ ∃ w, k.watchdogs.get? id = some w ∧ w.stage = .sleeping
        ∧ (k.wake cache id now
            = ({ k with watchdogs := k.watchdogs.insert id { w with stage := .fetching } }, true)
          ∨ k.wake cache id now = ({ k with watchdogs := k.watchdogs.erase id }, false)) := by
  unfold wake
  split
  · rename_i w hw
    split
    · rename_i hsleeping
      refine .inr ⟨w, hw, hsleeping.1, ?_⟩
      split
      · exact .inl rfl
      · exact .inr rfl
    · exact .inl rfl
  · exact .inl rfl

/-- The fetch of a watchdog ends only that watchdog. -/
theorem confirm_frame (k : Coordinator) (cache : Cache) (id : EntityId) (failed : Bool) :
    (k.confirm cache id failed).state.1.submissions = k.submissions
      ∧ ∀ j, j ≠ id →
        (k.confirm cache id failed).state.1.watchdogs.get? j = k.watchdogs.get? j := by
  unfold confirm
  split
  · dsimp only
    split <;> exact ⟨rfl, fun j hj => Table.get?_erase_of_ne _ (Ne.symm hj)⟩
  · exact ⟨rfl, fun _ _ => rfl⟩

theorem watchdogs_enter (k : Coordinator) (cache : Cache) (s : Submission) (route : Route)
    (now : Instant) (deadline : Clock) :
    (k.enter cache s route now deadline).state.1.watchdogs = k.watchdogs := by
  rcases k.enter_cases cache s route now deadline with heq | ⟨previous, heq⟩ <;> rw [heq] <;> rfl

/-- A command that there is nothing to guess on is forgotten. -/
theorem forget_of_enter {k : Coordinator} {cache : Cache} {s : Submission} {route : Route}
    {now : Instant} {deadline : Clock} {f : Failure.Command}
    (h : (k.enter cache s route now deadline).result = .error f) :
    (k.enter cache s route now deadline).state.1 = k.forget s.caller := by
  unfold enter at h ⊢
  dsimp only at h ⊢
  split at h
  · rename_i hresult
    cases hresult.symm.trans h
  · rfl

end Coordinator

namespace Client

variable {c c' : Client}

/-- **An owner waits for a fetch.** -/
def Wants (c : Client) : Owner → Prop
  | .call caller => c.calls.get? caller = some .load ∨ c.calls.get? caller = some .refresh
  | .resync id => ∃ s, c.resync = some s ∧ (id, none) ∈ s.results
  | .watchdog id => ∃ w, c.coordinator.watchdogs.get? id = some w ∧ w.stage = .fetching

/-- **Every fetch has an owner of its own**, who waits for it. -/
structure Owned (c : Client) : Prop where
  distinct : (c.fetches.map Fetch.owner).Nodup
  wanted : ∀ f ∈ c.fetches, c.Wants f.owner
  /-- Calls are numbered. -/
  calls : ∀ caller what, c.calls.get? caller = some what → caller < c.fresh
  /-- A command with a guess belongs to a call of its own kind. -/
  submissions : ∀ s ∈ c.coordinator.submissions, c.calls.get? s.caller = some .submit
  interests : c.engine.interests.Tidy

theorem owned_start (config : Config) (host : Host.Condition) : (start config host).Owned where
  distinct := List.nodup_nil
  wanted := nofun
  calls := nofun
  submissions := nofun
  interests := ⟨Table.distinct_empty, nofun⟩

/-! ### Changes that start no fetch -/

/-- **A change that no owner notices** whose fetch goes on. -/
theorem Owned.of_wants (h : c.Owned) (hfetches : c'.fetches.Sublist c.fetches)
    (hwants : ∀ f ∈ c'.fetches, c.Wants f.owner → c'.Wants f.owner)
    (hcalls : ∀ caller what, c'.calls.get? caller = some what → c.calls.get? caller = some what)
    (hsubmissions : ∀ s ∈ c'.coordinator.submissions, c'.calls.get? s.caller = some .submit)
    (hinterests : c'.engine.interests.Tidy) (hfresh : c.fresh ≤ c'.fresh) : c'.Owned where
  distinct := h.distinct.sublist (hfetches.map _)
  wanted f hf := hwants f hf (h.wanted f (hfetches.subset hf))
  calls caller what hcall := (h.calls caller what (hcalls caller what hcall)).trans_le hfresh
  submissions := hsubmissions
  interests := hinterests

/-- What owners wait for is said by the calls, the resynchronization and the
watchdogs. -/
theorem Wants.of_eq {o : Owner} (h : c.Wants o) (hcalls : c'.calls = c.calls)
    (hresync : c'.resync = c.resync)
    (hwatchdogs : ∀ id, o = .watchdog id →
      c'.coordinator.watchdogs.get? id = c.coordinator.watchdogs.get? id) : c'.Wants o := by
  cases o with
  | call caller =>
    rw [Wants, hcalls]
    exact h
  | resync id =>
    rw [Wants, hresync]
    exact h
  | watchdog id =>
    rw [Wants, hwatchdogs id rfl]
    exact h

/-- Most moves concern no owner. -/
theorem Owned.of_eq (h : c.Owned) (hfetches : c'.fetches = c.fetches)
    (hcalls : c'.calls = c.calls) (hresync : c'.resync = c.resync)
    (hcoordinator : c'.coordinator = c.coordinator) (hinterests : c'.engine.interests.Tidy)
    (hfresh : c.fresh ≤ c'.fresh) : c'.Owned :=
  h.of_wants (hfetches ▸ .refl _)
    (fun _ _ hw => hw.of_eq hcalls hresync fun _ _ => by rw [hcoordinator])
    (fun _ _ hcall => hcalls ▸ hcall)
    (fun s hs => hcalls ▸ h.submissions s (hcoordinator ▸ hs)) hinterests hfresh

/-- A change of the coordinator that leaves the watchdogs alone whose fetches
go on. -/
theorem Owned.of_coordinator (h : c.Owned) (hfetches : c'.fetches = c.fetches)
    (hcalls : c'.calls = c.calls) (hresync : c'.resync = c.resync)
    (hwatchdogs : ∀ f ∈ c.fetches, ∀ id, f.owner = .watchdog id →
      c'.coordinator.watchdogs.get? id = c.coordinator.watchdogs.get? id)
    (hsubmissions : ∀ s ∈ c'.coordinator.submissions, c.calls.get? s.caller = some .submit)
    (hinterests : c'.engine.interests = c.engine.interests) (hfresh : c'.fresh = c.fresh) :
    c'.Owned :=
  h.of_wants (hfetches ▸ .refl _)
    (fun f hf hw => hw.of_eq hcalls hresync (hwatchdogs f (hfetches ▸ hf)))
    (fun _ _ hcall => hcalls ▸ hcall) (fun s hs => hcalls ▸ hsubmissions s hs)
    (hinterests ▸ h.interests) hfresh.ge

/-- Fetches may be called off. -/
theorem Owned.dropFetches (h : c.Owned) (p : Fetch → Bool) : (c.dropFetches p).Owned :=
  h.of_wants List.filter_sublist (fun _ _ hw => hw.of_eq rfl rfl fun _ _ => rfl)
    (fun _ _ => id) h.submissions h.interests (Nat.le_refl _)

theorem mem_dropFetches {p : Fetch → Bool} {f : Fetch} :
    f ∈ (c.dropFetches p).fetches ↔ f ∈ c.fetches ∧ p f = false := by
  rw [Client.dropFetches, List.mem_filter, Bool.not_eq_true']

/-- Others wait on when a call is over. -/
theorem Wants.finish {o : Owner} (h : c.Wants o) {caller : CallId} (hne : o ≠ .call caller)
    (hcalls : c'.calls = c.calls.erase caller) (hresync : c'.resync = c.resync)
    (hcoordinator : c'.coordinator.watchdogs = c.coordinator.watchdogs) : c'.Wants o := by
  cases o with
  | call k =>
    have hk : caller ≠ k := fun heq => hne (heq ▸ rfl)
    rw [Wants, hcalls, Table.get?_erase_of_ne _ hk]
    exact h
  | resync id =>
    rw [Wants, hresync]
    exact h
  | watchdog id =>
    rw [Wants, hcoordinator]
    exact h

/-- **A call is over** that has no fetch and no command any more. -/
theorem Owned.finish (h : c.Owned) {caller : CallId}
    (hfetches : ∀ f ∈ c.fetches, f.owner ≠ .call caller)
    (hsubmissions : ∀ s ∈ c.coordinator.submissions, s.caller ≠ caller) (result : CallResult) :
    (c.finish caller result).1.Owned :=
  h.of_wants (.refl _) (fun f hf hw => hw.finish (hfetches f hf) rfl rfl rfl)
    (fun _ _ => Table.get?_of_erase)
    (fun s hs => (Table.get?_erase_of_ne _ (hsubmissions s hs).symm).trans (h.submissions s hs))
    h.interests (Nat.le_refl _)

/-- No fetch belongs to a call that waits for none. -/
theorem Owned.owner_ne_call (h : c.Owned) {caller : CallId}
    (hload : c.calls.get? caller ≠ some .load) (hrefresh : c.calls.get? caller ≠ some .refresh) :
    ∀ f ∈ c.fetches, f.owner ≠ .call caller := by
  intro f hf ho
  have hw := h.wanted f hf
  rw [ho] at hw
  exact hw.elim hload hrefresh

/-- No command belongs to a call of another kind. -/
theorem Owned.caller_ne (h : c.Owned) {caller : CallId}
    (hcall : c.calls.get? caller ≠ some .submit) :
    ∀ s ∈ c.coordinator.submissions, s.caller ≠ caller := by
  rintro s hs rfl
  exact hcall (h.submissions s hs)

/-- Calls without a fetch and without a command just end. -/
theorem Owned.finish_of_get? (h : c.Owned) {caller : CallId} {what : Call}
    (hcall : c.calls.get? caller = some what) (hload : what ≠ .load) (hrefresh : what ≠ .refresh)
    (hsubmit : what ≠ .submit) (result : CallResult) : (c.finish caller result).1.Owned := by
  have hne {what' : Call} (hne : what ≠ what') : c.calls.get? caller ≠ some what' := by
    rw [hcall]
    exact fun heq => hne (Option.some.inj heq)
  exact h.finish (h.owner_ne_call (hne hload) (hne hrefresh)) (h.caller_ne (hne hsubmit)) result

/-- A call ends whose command is done. -/
theorem Owned.finish_submit (h : c.Owned) {caller : CallId}
    (hcall : c.calls.get? caller = some .submit)
    (hsubmissions : ∀ s ∈ c.coordinator.submissions, s.caller ≠ caller) (result : CallResult) :
    (c.finish caller result).1.Owned :=
  h.finish (h.owner_ne_call (by simp [hcall]) (by simp [hcall])) hsubmissions result

/-! ### New calls and new fetches -/

/-- A call gets a number of its own. -/
theorem Owned.call (h : c.Owned) (what : Call) : (c.call what).1.Owned := by
  have hnew {k : CallId} {what' : Call} (hcall : c.calls.get? k = some what') :
      (c.calls.insert c.fresh what).get? k = some what' := by
    rw [Table.get?_insert_of_ne _ _ (h.calls k what' hcall).ne', hcall]
  refine ⟨h.distinct, fun f hf => ?_, fun k what' hcall => ?_,
    fun s hs => hnew (h.submissions s hs), h.interests⟩
  · have hw := h.wanted f hf
    cases ho : f.owner with
    | call k =>
      rw [ho] at hw
      exact hw.imp hnew hnew
    | resync id =>
      rw [ho] at hw
      exact hw
    | watchdog id =>
      rw [ho] at hw
      exact hw
  · have hcall : (c.calls.insert c.fresh what).get? k = some what' := hcall
    rw [Table.get?_insert] at hcall
    split at hcall
    · rename_i heq
      exact heq ▸ Nat.lt_succ_self _
    · exact Nat.lt_succ_of_lt (h.calls k what' hcall)

/-- No fetch belongs to a call that was not made yet. -/
theorem Owned.owner_ne_fresh (h : c.Owned) : ∀ f ∈ c.fetches, f.owner ≠ .call c.fresh := by
  have hnone (what : Call) : c.calls.get? c.fresh ≠ some what := fun hcall =>
    Nat.lt_irrefl _ (h.calls _ what hcall)
  exact h.owner_ne_call (hnone _) (hnone _)

/-- **A fetch is started** for an owner who has none. -/
theorem Owned.startFetch (h : c.Owned) (id : EntityId) (force : Bool) (purpose : Purpose)
    (hnew : ∀ f ∈ c.fetches, f.owner ≠ purpose.owner id) (hwants : c.Wants (purpose.owner id)) :
    (c.startFetch id force purpose).1.Owned := by
  have hkeeps {o : Owner} (hw : c.Wants o) : (c.startFetch id force purpose).1.Wants o :=
    hw.of_eq rfl rfl fun _ _ => rfl
  refine ⟨?_, fun f hf => ?_,
    fun caller what hcall => Nat.lt_succ_of_lt (h.calls caller what hcall),
    h.submissions, h.interests⟩
  · simp only [Client.startFetch, List.map_append, List.map_cons, List.map_nil]
    refine List.nodup_append.mpr ⟨h.distinct, List.nodup_singleton _, fun o ho o' ho' heq => ?_⟩
    obtain ⟨f, hf, rfl⟩ := List.mem_map.mp ho
    exact hnew f hf (heq.trans (List.mem_singleton.mp ho'))
  · rcases List.mem_append.mp hf with hf | hf
    · exact hkeeps (h.wanted f hf)
    · rw [List.mem_singleton.mp hf]
      exact hkeeps hwants

/-- **The entities of a resynchronization are fetched**, each for its own
place. -/
theorem Owned.startFetches (h : c.Owned) {ids : List EntityId} (hnodup : ids.Nodup)
    (hnew : ∀ id ∈ ids, ∀ f ∈ c.fetches, f.owner ≠ .resync id)
    (hwants : ∀ id ∈ ids, c.Wants (.resync id)) (actions : List ClientAction) :
    (ids.foldl (fun s id => Step.andThen s (Client.startFetch · id true .resync))
      (c, actions)).1.Owned := by
  induction ids generalizing c actions with
  | nil => exact h
  | cons id ids ih =>
    obtain ⟨hid, hnodup⟩ := List.nodup_cons.mp hnodup
    refine ih (h.startFetch id true .resync (hnew id List.mem_cons_self)
      (hwants id List.mem_cons_self)) hnodup (fun j hj f hf => ?_) (fun j hj => ?_) _
    · rcases List.mem_append.mp hf with hf | hf
      · exact hnew j (List.mem_cons_of_mem id hj) f hf
      · rw [List.mem_singleton.mp hf]
        intro heq
        cases heq
        exact hid hj
    · exact (hwants j (List.mem_cons_of_mem id hj)).of_eq rfl rfl fun _ _ => rfl

/-! ### Commands -/

theorem Owned.onEngine {α : Type} (h : c.Owned) (op : Engine → Update Engine α)
    (hop : (op c.engine).state.interests = c.engine.interests) : (c.onEngine op).1.Owned :=
  h.of_eq rfl rfl rfl rfl (show (op c.engine).state.interests.Tidy from hop ▸ h.interests)
    (Nat.le_refl _)

theorem Owned.setGlobalError (h : c.Owned) (error : Option String) :
    (c.setGlobalError error).Owned :=
  h.onEngine _ rfl

/-- **A command is resolved.** If that sets a watchdog, the fetch of the
watchdog it replaces was called off before. -/
theorem Owned.resolve (h : c.Owned) {caller : CallId} {previous : Entry} {s : Submission}
    (hfind : c.coordinator.find? caller = some s) (result : Except Failure.Command Receipt) :
    (c.resolve caller previous result).1.Owned := by
  obtain ⟨hs, hcaller⟩ := Coordinator.mem_of_find? hfind
  have hsubmit : c.calls.get? caller = some .submit := hcaller ▸ h.submissions s hs
  have hforget : ∀ t ∈ (c.coordinator.forget caller).submissions,
      c.calls.get? t.caller = some .submit := fun t ht =>
    h.submissions t (Coordinator.mem_forget.mp ht).1
  -- what is left to do once the coordinator has resolved the command
  have hdone (d : Client) (hd : d.Owned) (hcalls : d.calls = c.calls)
      (hsubmissions : d.coordinator.submissions = (c.coordinator.forget caller).submissions) :
      ((d.setMutationError (errorShown result)).finish caller (.submitted result)).1.Owned := by
    have hshown : (d.setMutationError (errorShown result)).Owned := hd.onEngine _ rfl
    refine hshown.finish_submit (hcalls ▸ hsubmit) (fun t ht => ?_) _
    have ht : t ∈ d.coordinator.submissions := ht
    rw [hsubmissions] at ht
    exact (Coordinator.mem_forget.mp ht).2
  cases result with
  | error f =>
    refine hdone _ ?_ rfl rfl
    exact h.of_coordinator rfl rfl rfl (fun _ _ _ _ => rfl) hforget rfl rfl
  | ok receipt =>
    refine hdone _ ?_ rfl rfl
    refine (h.dropFetches _).of_coordinator rfl rfl rfl (fun f hf id ho => ?_) hforget rfl rfl
    refine Table.get?_insert_of_ne _ _ fun heq => ?_
    -- a fetch that goes on is not the one of the watchdog that is replaced
    have hcalled := (mem_dropFetches.mp hf).2
    obtain ⟨fid, entity, deadline, purpose⟩ := f
    cases purpose with
    | confirm =>
      cases ho
      simp [heq] at hcalled
    | load | refresh | resync => cases ho

theorem Owned.answered (h : c.Owned) (caller : CallId) (result : Except Failure.Command Receipt) :
    (c.answered caller result).1.Owned := by
  unfold Client.answered
  split
  · rename_i hcall
    exact h.finish_of_get? hcall nofun nofun nofun _
  · split
    · rename_i hfind
      exact h.resolve hfind result
    · exact h
  · exact h

theorem Owned.absorb (h : c.Owned) (o : Link.Output) : (c.absorb o).1.Owned := by
  cases o with
  | report r =>
    show (if c.isOpen then { c with reports := c.reports ++ [r] } else c).Owned
    split
    · exact h.of_eq rfl rfl rfl rfl h.interests (Nat.le_refl _)
    · exact h
  | reply caller result => exact h.answered caller result
  | publish | connect | send | close => exact h.of_eq rfl rfl rfl rfl h.interests (Nat.le_refl _)

theorem Owned.onLink (h : c.Owned) (s : Link.Step) : (c.onLink s).1.Owned :=
  foldl_andThen (fun _ o hc => hc.absorb o) s.2
    (h.of_eq rfl rfl rfl rfl h.interests (Nat.le_refl _))

theorem Owned.sendCommand (h : c.Owned) (caller : CallId) (id : EntityId) (version : Version)
    (action : Action) : (c.sendCommand caller id version action).1.Owned :=
  Owned.onLink (c := c.freshRequest.1)
    (h.of_eq rfl rfl rfl rfl h.interests (Nat.le_succ _)) _

/-- A command comes with a call of its own. -/
theorem Owned.submit (h : c.Owned) (m : Mutation) : (c.submit m).1.Owned := by
  have hcall := h.call .submit
  refine hcall.of_coordinator rfl rfl rfl (fun _ _ _ _ => ?_) (fun s hs => ?_) rfl rfl
  · exact congrArg (Table.get? · _) (Coordinator.watchdogs_join ..)
  · have hs : s ∈ (c.coordinator.join c.fresh m).submissions := hs
    rw [Coordinator.submissions_join, List.mem_append, List.mem_singleton] at hs
    rcases hs with hs | rfl
    · exact hcall.submissions s hs
    · exact Table.get?_insert_self ..

theorem Owned.dispatch (h : c.Owned) (caller : CallId) (m : Mutation) (previous : Entry)
    (route : Route) : (c.dispatch caller m previous route).1.Owned := by
  cases route with
  | live => exact h.sendCommand caller _ _ _
  | api => exact h

theorem Owned.onCoordinator_enter (h : c.Owned) (s : Submission) (route : Route) (now : Instant)
    (deadline : Clock) :
    (c.onCoordinator (·.enter · s route now deadline)).1.Owned := by
  refine h.of_coordinator rfl rfl rfl (fun _ _ _ _ => ?_) (fun t ht => ?_) rfl rfl
  · exact congrArg (Table.get? · _) (Coordinator.watchdogs_enter ..)
  · have ht : t ∈ (c.coordinator.enter c.engine.cache s route now deadline).state.1.submissions :=
      ht
    rcases c.coordinator.enter_cases c.engine.cache s route now deadline with heq | ⟨_, heq⟩
    · exact h.submissions t (Coordinator.mem_forget.mp (heq ▸ ht)).1
    · obtain ⟨-, u, hu, hc, -⟩ := Coordinator.of_mem_setStage (heq ▸ ht)
      exact hc ▸ h.submissions u hu

theorem Owned.enter (h : c.Owned) (caller : CallId) : (c.enter caller).1.Owned := by
  unfold Client.enter
  split
  · rename_i s hfind
    obtain ⟨hs, hcaller⟩ := Coordinator.mem_of_find? hfind
    split
    · have hturn := h.onCoordinator_enter s c.routeNow c.instant
        (c.now + c.config.commandTimeout.nanos)
      dsimp only
      split
      · exact hturn.dispatch caller _ _ _
      · rename_i f hresult
        have hsubmit : c.calls.get? caller = some .submit := hcaller ▸ h.submissions s hs
        have hshown := hturn.onEngine (·.onNotice (·.setMutation (some f.message))) rfl
        refine hshown.finish_submit hsubmit (fun t ht => ?_) _
        have hforget := Coordinator.forget_of_enter hresult
        have ht : t ∈ (c.coordinator.enter c.engine.cache s c.routeNow c.instant
            (c.now + c.config.commandTimeout.nanos)).state.1.submissions := ht
        rw [hforget] at ht
        exact hcaller ▸ (Coordinator.mem_forget.mp ht).2
    · exact h
  · exact h

/-! ### Fetches that end -/

/-- **A place in the resynchronization is filled**, and nobody else's. -/
theorem Wants.endResyncFetch {id entity : EntityId} (h : c.Wants (.resync id)) (hne : id ≠ entity)
    (r : Except Failure.Fetch RefreshOutcome) :
    (c.endResyncFetch entity r).Wants (.resync id) := by
  obtain ⟨s, hs, hmem⟩ := h
  have hrecord (failure : Option Failure.Fetch) :
      (id, none) ∈ (s.record entity failure).results :=
    List.mem_map.mpr ⟨(id, none), hmem, if_neg hne⟩
  have hgoing (failure : Option Failure.Fetch) : (s.record entity failure).isDone ≠ true :=
    fun hdone => by
      have hnone := List.all_eq_true.mp hdone _ (hrecord failure)
      cases hnone
  simp only [Client.endResyncFetch, hs, if_neg (hgoing _)]
  exact ⟨_, rfl, hrecord _⟩

theorem endResyncFetch_frame (c : Client) (entity : EntityId)
    (r : Except Failure.Fetch RefreshOutcome) :
    (c.endResyncFetch entity r).link = c.link
      ∧ (c.endResyncFetch entity r).fetches = c.fetches
      ∧ (c.endResyncFetch entity r).calls = c.calls
      ∧ (c.endResyncFetch entity r).coordinator = c.coordinator
      ∧ (c.endResyncFetch entity r).engine.interests = c.engine.interests
      ∧ (c.endResyncFetch entity r).fresh = c.fresh := by
  simp only [Client.endResyncFetch]
  repeat' split
  all_goals exact ⟨rfl, rfl, rfl, rfl, rfl, rfl⟩

theorem Owned.endResyncFetch (h : c.Owned) {entity : EntityId}
    (hnew : ∀ f ∈ c.fetches, f.owner ≠ .resync entity)
    (r : Except Failure.Fetch RefreshOutcome) : (c.endResyncFetch entity r).Owned := by
  obtain ⟨-, hfetches, hcalls, hcoordinator, hinterests, hfresh⟩ :=
    c.endResyncFetch_frame entity r
  refine h.of_wants (hfetches ▸ .refl _) (fun f hf hw => ?_) (fun _ _ hcall => hcalls ▸ hcall)
    (fun s hs => hcalls ▸ h.submissions s (hcoordinator ▸ hs)) (hinterests ▸ h.interests) hfresh.ge
  have hne := hnew f (hfetches ▸ hf)
  cases ho : f.owner with
  | resync id =>
    rw [ho] at hw hne
    exact hw.endResyncFetch (fun heq => hne (heq ▸ rfl)) r
  | call k =>
    rw [ho] at hw
    rw [Wants, hcalls]
    exact hw
  | watchdog id =>
    rw [ho] at hw
    rw [Wants, hcoordinator]
    exact hw

/-- A fetch that ends leaves its owner without one. -/
theorem Owned.owner_ne_of_ended (h : c.Owned) {f : Fetch} (hf : f ∈ c.fetches) :
    ∀ g ∈ (c.dropFetches fun g => g.id = f.id).fetches, g.owner ≠ f.owner := by
  intro g hg ho
  obtain ⟨hg, hid⟩ := mem_dropFetches.mp hg
  obtain rfl := List.inj_on_of_nodup_map h.distinct hg hf ho
  simp at hid

/-- **What a fetch brought is reconciled, and its owner goes on.** -/
theorem Owned.endFetch (h : c.Owned) {f : Fetch} (hf : f ∈ c.fetches)
    (result : Except Failure.Fetch FetchOutcome) : (c.endFetch f result).1.Owned := by
  have hnone := h.owner_ne_of_ended hf
  have hwanted := h.wanted f hf
  unfold Client.endFetch
  dsimp only
  generalize hu : (c.dropFetches fun g => g.id = f.id).onEngine
    (·.onCache (·.reconcile f.entity (c.dropFetches fun g => g.id = f.id).instant result)) = u
  have howned : u.1.Owned := hu ▸ (h.dropFetches _).onEngine _ rfl
  have hfetches : u.1.fetches = (c.dropFetches fun g => g.id = f.id).fetches := hu ▸ rfl
  have hcalls : u.1.calls = c.calls := hu ▸ rfl
  rw [← hfetches] at hnone
  have hfinish (caller : CallId) (ho : f.owner = .call caller) (error : Option String)
      (result : CallResult) : ((u.1.setGlobalError error).finish caller result).1.Owned := by
    rw [ho] at hnone hwanted
    refine (howned.setGlobalError error).finish hnone
      (Owned.caller_ne (howned.setGlobalError _) ?_) _
    show u.1.calls.get? caller ≠ _
    rw [hcalls]
    rcases hwanted with hcall | hcall <;> (rw [hcall]; nofun)
  obtain ⟨fid, entity, deadline, purpose⟩ := f
  cases purpose with
  | load caller =>
    dsimp only
    cases u.2 <;> exact hfinish caller rfl _ _
  | refresh caller =>
    dsimp only
    cases u.2 <;> exact hfinish caller rfl _ _
  | resync => exact howned.endResyncFetch hnone u.2
  | confirm =>
    have hframe := u.1.coordinator.confirm_frame u.1.engine.cache entity (hasFailed u.2)
    refine howned.of_coordinator rfl rfl rfl (fun g hg id ho => ?_) (fun s hs => ?_) rfl rfl
    · exact hframe.2 id fun heq => hnone g hg (heq ▸ ho)
    · have hs : s ∈ (u.1.coordinator.confirm u.1.engine.cache entity
          (hasFailed u.2)).state.1.submissions := hs
      exact howned.submissions s (hframe.1 ▸ hs)

/-! ### The moves -/

/-- Different topics are about different entities. -/
theorem entityId_injective : Function.Injective Topic.entityId := by
  rintro ⟨id⟩ ⟨id'⟩ heq
  exact congrArg Topic.game heq

/-- **A new resynchronization** takes the place of an earlier one, whose
fetches are called off. -/
theorem Owned.resynchronize (h : c.Owned) (epoch : Epoch) :
    (c.resynchronize epoch).1.Owned := by
  have hshown := h.setGlobalError none
  unfold Client.resynchronize
  generalize c.setGlobalError none = d at hshown
  dsimp only
  split
  · exact hshown
  · have hnone : ∀ f ∈ (d.dropFetches (·.purpose = .resync)).fetches, ∀ id,
        f.owner ≠ .resync id := by
      intro f hf id ho
      have hcalled := (mem_dropFetches.mp hf).2
      obtain ⟨fid, entity, deadline, purpose⟩ := f
      cases purpose with
      | resync => simp at hcalled
      | load | refresh | confirm => cases ho
    have hstart : ({ d.dropFetches (·.purpose = .resync) with
        resync := some (.start epoch (d.engine.interests.topics.map Topic.entityId)) } :
        Client).Owned := by
      refine (hshown.dropFetches (·.purpose = .resync)).of_wants (.refl _) (fun f hf hw => ?_)
        (fun _ _ => id) hshown.submissions hshown.interests (Nat.le_refl _)
      cases ho : f.owner with
      | resync id => exact absurd ho (hnone f hf id)
      | call | watchdog =>
        rw [ho] at hw
        exact hw
    exact hstart.startFetches (hshown.interests.distinct.map entityId_injective)
      (fun id _ f hf => hnone f hf id) (fun id hid => ⟨_, rfl, List.mem_map_of_mem hid⟩) _

theorem Owned.routeFrame (h : c.Owned) (frame : Wire.ServerFrame) : (c.routeFrame frame).Owned := by
  cases frame with
  | stateUpdate => exact h.onEngine _ rfl
  | yourTurn => exact h.onEngine _ rfl
  | invalidated => exact h.onEngine _ rfl
  | _ => exact h.of_eq rfl rfl rfl rfl h.interests (Nat.le_refl _)

theorem Owned.route (h : c.Owned) : c.route.1.Owned := by
  unfold Client.route
  split
  · exact h
  · rename_i r rest _
    have hrest : ({ c with reports := rest } : Client).Owned :=
      h.of_eq rfl rfl rfl rfl h.interests (Nat.le_refl _)
    cases r with
    | established epoch user => exact hrest.resynchronize epoch
    | frame f => exact hrest.routeFrame f
    | failed error => exact hrest.setGlobalError _

/-- **A watchdog that wakes up** has no fetch yet. -/
theorem Owned.wakeWatchdog (h : c.Owned) (id : EntityId) : (c.wakeWatchdog id).1.Owned := by
  unfold Client.wakeWatchdog
  rcases c.coordinator.wake_cases c.engine.cache id c.now with heq | ⟨w, hw, hsleeping, hcases⟩
  · rw [heq]
    exact h
  · have hnone : ∀ f ∈ c.fetches, f.owner ≠ .watchdog id := by
      intro f hf ho
      have hwanted := h.wanted f hf
      rw [ho] at hwanted
      obtain ⟨w', hw', hfetching⟩ := hwanted
      cases hw.symm.trans hw'
      cases hsleeping.symm.trans hfetching
    rcases hcases with heq | heq
    · rw [heq]
      refine Owned.startFetch ?_ id true .confirm hnone ⟨_, Table.get?_insert_self .., rfl⟩
      refine h.of_coordinator rfl rfl rfl (fun f hf j ho => ?_) h.submissions rfl rfl
      exact Table.get?_insert_of_ne _ _ fun hj => hnone f hf (hj ▸ ho)
    · rw [heq]
      refine h.of_coordinator rfl rfl rfl (fun f hf j ho => ?_) h.submissions rfl rfl
      exact Table.get?_erase_of_ne _ fun hj => hnone f hf (hj ▸ ho)

/-- **Nobody waits any more** for what was done for a call that is given up. -/
theorem Owned.abandon (h : c.Owned) (caller : CallId) : (c.abandon caller).Owned := by
  refine h.of_wants List.filter_sublist (fun f hf hw => ?_) (fun _ _ => Table.get?_of_erase)
    (fun s hs => ?_) h.interests (Nat.le_refl _)
  · refine hw.finish (fun ho => ?_) rfl rfl rfl
    have hf : f ∈ (c.dropFetches (·.purpose.isFor caller)).fetches := hf
    have hcalled := (mem_dropFetches.mp hf).2
    obtain ⟨fid, entity, deadline, purpose⟩ := f
    cases purpose with
    | load k | refresh k =>
      cases ho
      simp [Purpose.isFor] at hcalled
    | resync | confirm => cases ho
  · obtain ⟨hs, hne⟩ := Coordinator.mem_forget.mp hs
    exact (Table.get?_erase_of_ne _ hne.symm).trans (h.submissions s hs)

/-- **Calling off all fetches in the background** leaves those that callers
wait for. -/
theorem Owned.shutdown (h : c.Owned) : c.shutdown.1.Owned := by
  unfold Client.shutdown
  split
  · refine Owned.onLink ?_ _
    refine (h.dropFetches (·.purpose.isBackground)).of_wants (.refl _) (fun f hf hw => ?_)
      (fun _ _ => id) h.submissions h.interests (Nat.le_refl _)
    have hcalled := (mem_dropFetches.mp hf).2
    obtain ⟨fid, entity, deadline, purpose⟩ := f
    cases purpose with
    | load k | refresh k => exact hw
    | resync | confirm => cases hcalled
  · exact h

theorem Owned.subscribe (h : c.Owned) (id : EntityId) (seat : Option Seat) :
    (c.subscribe id seat).1.Owned := by
  have hinterests : (c.engine.interests.acquire (.game id)).1.Tidy :=
    h.interests.change (.hold (.game id))
  unfold Client.subscribe
  dsimp only
  split
  · refine Owned.onLink ?_ _
    exact h.of_eq rfl rfl rfl rfl hinterests (Nat.le_refl _)
  · exact h.of_eq rfl rfl rfl rfl hinterests (Nat.le_refl _)

theorem Owned.unsubscribe (h : c.Owned) (handle : Nat) : (c.unsubscribe handle).1.Owned := by
  unfold Client.unsubscribe
  split
  · rename_i sub _
    have hinterests : (c.engine.unsubscribe sub).1.interests.Tidy := by
      have htidy := h.interests.change (.letGo sub.topic)
      simp only [Engine.unsubscribe]
      split <;> exact htidy
    dsimp only
    split
    · refine Owned.onLink ?_ _
      exact h.of_eq rfl rfl rfl rfl hinterests (Nat.le_refl _)
    · exact h.of_eq rfl rfl rfl rfl hinterests (Nat.le_refl _)
  · exact h

theorem Owned.manageHost (h : c.Owned) : c.manageHost.1.Owned := by
  have hsame (host : Host) : ({ c with host := host } : Client).Owned :=
    h.of_eq rfl rfl rfl rfl h.interests (Nat.le_refl _)
  unfold Client.manageHost
  split
  · exact h
  · dsimp only
    split
    · exact (hsame _).onLink _
    · exact hsame _
    · exact hsame _

theorem Owned.lookAgain (h : c.Owned) (caller : CallId) : (c.lookAgain caller).1.Owned := by
  unfold Client.lookAgain
  split
  · rename_i hcall
    split
    · exact h.finish_of_get? hcall nofun nofun nofun _
    · split
      · exact h.finish_of_get? hcall nofun nofun nofun _
      · exact h
  · exact h

theorem Owned.detect (h : c.Owned) : c.detect.Owned := by
  unfold Client.detect
  split
  · exact h.of_eq rfl rfl rfl rfl h.interests (Nat.le_refl _)
  · exact h

/-- **A move leaves no fetch without its owner.** -/
theorem Owned.step (h : c.Owned) (m : Move) : (c.step m).1.Owned := by
  cases m with
  | tick | host | push | handshakeTimer | retryTimer =>
    exact h.of_eq rfl rfl rfl rfl h.interests (Nat.le_refl _)
  | wait status => exact h.call _
  | load id =>
    exact (h.call .load).startFetch id false (.load c.fresh) h.owner_ne_fresh
      (.inl (Table.get?_insert_self ..))
  | refresh id =>
    exact (h.call .refresh).startFetch id true (.refresh c.fresh) h.owner_ne_fresh
      (.inr (Table.get?_insert_self ..))
  | connect | disconnect => exact h.onLink _
  | shutdown => exact h.shutdown
  | subscribe id seat => exact h.subscribe id seat
  | unsubscribe handle => exact h.unsubscribe handle
  | submit m => exact h.submit m
  | command id version action => exact (h.call .command).sendCommand _ _ _ _
  | abandon caller => exact h.abandon caller
  | manageCommand | manageInput => exact h.onLink _
  | manageHost => exact h.manageHost
  | line epoch move => exact h.onLink _
  | route => exact h.route
  | detect => exact h.detect
  | enter caller => exact h.enter caller
  | lookAgain caller => exact h.lookAgain caller
  | fetched id result =>
    simp only [Client.step, Client.fetched]
    split
    · rename_i hfind
      exact h.endFetch (List.mem_of_find?_eq_some hfind) _
    · exact h
  | submitted caller result =>
    simp only [Client.step, Client.submitted]
    split
    · rename_i hfind
      exact h.resolve hfind result
    · exact h
  | fetchTimer id =>
    simp only [Client.step, Client.fetchTimer]
    split
    · rename_i hfind
      split
      · exact h.endFetch (List.mem_of_find?_eq_some hfind) _
      · exact h
    · exact h
  | commandTimer caller =>
    simp only [Client.step, Client.commandTimer]
    split
    · rename_i hfind
      split
      · exact h.resolve hfind _
      · exact h
    · exact h
  | watchdog id => exact h.wakeWatchdog id

theorem Owned.run (h : c.Owned) (moves : List Move) : (c.run moves).1.Owned :=
  foldl_andThen (fun _ m hc => hc.step m) moves h

end Client

end LiveSync
