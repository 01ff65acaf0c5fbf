import LiveSync.Client.Step
import LiveSync.Proofs.Sync.Gates

/-!
# The commands of a client

A client hands its commands on in the order in which they came: a command
gets its turn when it is the first one at its gate. That is one of the orders
in which a coordinator may do it, so the coordinator of a client is always one
that a run of operations leads to (`Client.InTurn`), whatever the client does.

Most moves of a client do not touch its coordinator. Those that do perform one
operation on it, apart from what leaves the link, which may be many answers at
once; they are taken up one by one.
-/

namespace LiveSync

open LiveSync.Connection

namespace Coordinator

variable {k k' : Coordinator}

/-! ### First come, first served -/

/-- **A command that was dispatched is the first one at its gate.** -/
def InLine (k : Coordinator) : Prop :=
  ∀ s ∈ k.submissions, s.isDispatched = true → k.first? s.gate = some s

theorem inLine_empty : empty.InLine := nofun

theorem InLine.of_eq (h : k.InLine) (hs : k'.submissions = k.submissions) : k'.InLine := by
  unfold InLine first?
  rw [hs]
  exact h

theorem InLine.join (h : k.InLine) (caller : CallId) (m : Mutation) : (k.join caller m).InLine := by
  intro s hs hd
  rw [submissions_join, List.mem_append, List.mem_singleton] at hs
  rcases hs with hs | rfl
  · have hfirst : k.submissions.find? (fun t => t.gate = s.gate) = some s := h s hs hd
    rw [first?, submissions_join, List.find?_append, hfirst]
    rfl
  · cases hd

theorem InLine.forget (h : k.InLine) (caller : CallId) : (k.forget caller).InLine := by
  intro s hs hd
  obtain ⟨hmem, hne⟩ := mem_forget.mp hs
  obtain ⟨hgate, before, after, hsplit, hbefore⟩ :=
    List.find?_eq_some_iff_append.mp (h s hmem hd)
  rw [first?, Coordinator.forget, List.find?_filter]
  refine List.find?_eq_some_iff_append.mpr ⟨by simpa using hne, before, after, hsplit, ?_⟩
  intro t ht
  simpa using Or.inr (by simpa using hbefore t ht)

/-- The command whose turn it is, is the first one at its gate. -/
theorem Orderly.first?_of_isNext (ho : k.Orderly) {s : Submission} (hs : s ∈ k.submissions)
    (hnext : k.isNext s = true) : s.stage = .waiting ∧ k.first? s.gate = some s := by
  obtain ⟨hwaiting, hfirst⟩ := (Bool.and_eq_true _ _).mp hnext
  refine ⟨of_decide_eq_true hwaiting, ?_⟩
  cases hf : k.first? s.gate with
  | none =>
    rw [hf] at hfirst
    cases hfirst
  | some t =>
    rw [hf, Option.any_some, decide_eq_true_iff] at hfirst
    rw [ho.eq_of_caller (List.mem_of_find?_eq_some hf) hs hfirst]

/-- **A command whose turn it is** finds its gate free. -/
theorem InLine.isFree_of_isNext (h : k.InLine) (ho : k.Orderly) {s : Submission}
    (hs : s ∈ k.submissions) (hnext : k.isNext s = true) : k.isFree s.gate = true := by
  obtain ⟨hwaiting, hfirst⟩ := ho.first?_of_isNext hs hnext
  refine isFree_iff.mpr fun t ht hd hg => ?_
  have heq : t = s := Option.some.inj ((hg ▸ h t ht hd).symm.trans hfirst)
  rw [heq, Submission.isDispatched, hwaiting] at hd
  cases hd

/-- A stage that is written does not change who is the first at a gate. -/
theorem first?_setStage (k : Coordinator) (caller : CallId) (stage : Submission.Stage)
    (gate : GateId) :
    (k.setStage caller stage).first? gate = (k.first? gate).map fun t =>
      if t.caller = caller then { t with stage := stage } else t := by
  rw [first?, setStage, List.find?_map, first?]
  refine congrArg _ (List.find?_congr fun t _ => ?_)
  rw [Function.comp_apply]
  split <;> rfl

theorem InLine.setStage (h : k.InLine) (ho : k.Orderly) {s : Submission} (hs : s ∈ k.submissions)
    (hnext : k.isNext s = true) (stage : Submission.Stage) :
    (k.setStage s.caller stage).InLine := by
  intro t ht hd
  obtain ⟨u, hu, rfl⟩ := mem_setStage.mp ht
  rw [first?_setStage]
  split at hd
  · rename_i hc
    obtain rfl := ho.eq_of_caller hu hs hc
    rw [if_pos rfl, (ho.first?_of_isNext hs hnext).2, Option.map_some, if_pos rfl]
  · rename_i hc
    rw [if_neg hc, h u hu hd, Option.map_some, if_neg hc]

theorem InLine.perform {d : WithCache} (h : d.1.InLine) {op : Op} (hop : op.leaves = true) :
    (Coordinator.perform d op).1.InLine := by
  rcases submissions_perform hop d with heq | ⟨caller, heq⟩
  · exact h.of_eq heq
  · exact (h.forget caller).of_eq heq

end Coordinator

namespace Client

variable {c c' : Client}

/-! ### The coordinator of a client -/

/-- The coordinator of a client, and the cache it guesses in. -/
def desk (c : Client) : Coordinator.WithCache := (c.coordinator, c.engine.cache)

/-- **The commands of a client take their turns in some order**: its
coordinator is one that a run of operations leads to, the callers of its
commands are known, and its commands stand in line. -/
structure InTurn (c : Client) : Prop where
  run : ∃ ops, c.desk = Coordinator.run ops
  callers : ∀ s ∈ c.coordinator.submissions, s.caller < c.fresh
  inLine : c.coordinator.InLine

theorem InTurn.orderly (h : c.InTurn) : c.coordinator.Orderly := by
  obtain ⟨ops, hops⟩ := h.run
  have horderly := Coordinator.orderly_run ops
  rwa [← hops] at horderly

theorem inTurn_start (config : Config) (host : Host.Condition) : (start config host).InTurn where
  run := ⟨[], rfl⟩
  callers := nofun
  inLine := Coordinator.inLine_empty

/-- A move that performs an operation on the coordinator, and may change the
cache besides. -/
theorem InTurn.exists_run (h : c.InTurn) {op : Coordinator.Op}
    (hk : c'.coordinator = (Coordinator.perform c.desk op).1) :
    ∃ ops, c'.desk = Coordinator.run ops := by
  obtain ⟨ops, hops⟩ := h.run
  refine ⟨ops ++ [op] ++ [.world c'.engine.cache], ?_⟩
  rw [Coordinator.run_concat, Coordinator.run_concat, ← hops]
  exact congrArg (·, _) hk

/-- With most moves no command moves up. -/
theorem InTurn.of_leaves (h : c.InTurn) (op : Coordinator.Op) (hop : op.leaves = true)
    (hk : c'.coordinator = (Coordinator.perform c.desk op).1) (hf : c.fresh ≤ c'.fresh) :
    c'.InTurn where
  run := h.exists_run hk
  callers := fun s hs => Nat.lt_of_lt_of_le
    (h.callers s (Coordinator.mem_of_mem_perform hop (hk ▸ hs))) hf
  inLine := hk ▸ Coordinator.InLine.perform (d := c.desk) h.inLine hop

/-- Most moves do not touch the coordinator. -/
theorem InTurn.of_eq (h : c.InTurn) (hk : c'.coordinator = c.coordinator)
    (hf : c.fresh ≤ c'.fresh) : c'.InTurn :=
  h.of_leaves (.world c'.engine.cache) rfl hk hf

/-! ### What leaves the link -/

/-- **What each step keeps, many steps keep.** -/
theorem foldl_andThen {α : Type} {P : Client → Prop} {f : Client → α → Step}
    (hf : ∀ c a, P c → P (f c a).1) (as : List α) {s : Step} (h : P s.1) :
    P (as.foldl (fun s a => s.andThen (f · a)) s).1 := by
  induction as generalizing s with
  | nil => exact h
  | cons a as ih => exact ih (hf s.1 a h)

/-- To resolve a command is an operation on the coordinator. -/
theorem coordinator_resolve {caller : CallId} {previous : Entry} {s : Submission} {route : Route}
    {deadline : Clock} (hfind : c.coordinator.find? caller = some s)
    (hstage : s.stage = .dispatched route previous deadline)
    (result : Except Failure.Command Receipt) :
    (c.resolve caller previous result).1.coordinator
      = (Coordinator.perform c.desk (.resolve caller result
          (c.now + c.config.confirmTimeout.nanos))).1 := by
  rw [Coordinator.perform_resolve (d := c.desk) hfind hstage]
  cases result <;> rfl

theorem InTurn.resolve (h : c.InTurn) {caller : CallId} {previous : Entry} {s : Submission}
    {route : Route} {deadline : Clock} (hfind : c.coordinator.find? caller = some s)
    (hstage : s.stage = .dispatched route previous deadline)
    (result : Except Failure.Command Receipt) : (c.resolve caller previous result).1.InTurn := by
  refine h.of_leaves _ rfl (coordinator_resolve hfind hstage result) ?_
  cases result <;> exact Nat.le_refl _

theorem InTurn.answered (h : c.InTurn) (caller : CallId)
    (result : Except Failure.Command Receipt) : (c.answered caller result).1.InTurn := by
  unfold Client.answered
  split
  · exact h.of_eq rfl (Nat.le_refl _)
  · split
    · rename_i hfind
      exact h.resolve hfind rfl result
    · exact h
  · exact h

theorem InTurn.absorb (h : c.InTurn) (o : Link.Output) : (c.absorb o).1.InTurn := by
  cases o with
  | report r =>
    show (if c.isOpen then { c with reports := c.reports ++ [r] } else c).InTurn
    split
    · exact h.of_eq rfl (Nat.le_refl _)
    · exact h
  | reply caller result => exact h.answered caller result
  | publish | connect | send | close => exact h.of_eq rfl (Nat.le_refl _)

theorem InTurn.onLink (h : c.InTurn) (s : Link.Step) : (c.onLink s).1.InTurn :=
  foldl_andThen (fun _ o hc => hc.absorb o) s.2 (h.of_eq rfl (Nat.le_refl _))

theorem InTurn.enqueue (h : c.InTurn) (command : Command) : (c.enqueue command).1.InTurn :=
  h.onLink _

theorem InTurn.sendCommand (h : c.InTurn) (caller : CallId) (id : EntityId) (version : Version)
    (action : Action) : (c.sendCommand caller id version action).1.InTurn :=
  InTurn.enqueue (c := c.freshRequest.1) (h.of_eq rfl (Nat.le_succ _)) _

/-! ### The moves -/

theorem InTurn.submit (h : c.InTurn) (m : Mutation) : (c.submit m).1.InTurn := by
  have hnew : c.coordinator.find? c.fresh = none := by
    refine List.find?_eq_none.mpr fun s hs hc => ?_
    exact Nat.ne_of_lt (h.callers s hs) (of_decide_eq_true hc)
  have hop : (c.submit m).1.coordinator
      = (Coordinator.perform c.desk (.join c.fresh m)).1 := by
    rw [Coordinator.perform_join (d := c.desk) hnew]
    rfl
  refine ⟨h.exists_run hop, fun s hs => ?_, h.inLine.join c.fresh m⟩
  have hmem : s ∈ (c.coordinator.join c.fresh m).submissions := hs
  rw [Coordinator.submissions_join, List.mem_append, List.mem_singleton] at hmem
  rcases hmem with hmem | rfl
  · exact Nat.lt_succ_of_lt (h.callers s hmem)
  · exact Nat.lt_succ_self _

theorem InTurn.dispatch (h : c.InTurn) (caller : CallId) (m : Mutation) (previous : Entry)
    (route : Route) : (c.dispatch caller m previous route).1.InTurn := by
  cases route with
  | live => exact h.sendCommand caller _ _ _
  | api => exact h

/-- **A command that is first in line gets its turn.** -/
theorem InTurn.onCoordinator_enter (h : c.InTurn) {caller : CallId} {s : Submission}
    (hfind : c.coordinator.find? caller = some s) (hnext : c.coordinator.isNext s = true)
    (route : Route) (now : Instant) (deadline : Clock) :
    (c.onCoordinator (·.enter · s route now deadline)).1.InTurn := by
  obtain ⟨hs, hcaller⟩ := Coordinator.mem_of_find? hfind
  have hwaiting := (h.orderly.first?_of_isNext hs hnext).1
  have hfree := h.inLine.isFree_of_isNext h.orderly hs hnext
  have hop : (c.onCoordinator (·.enter · s route now deadline)).1.coordinator
      = (Coordinator.perform c.desk (.enter caller route now deadline)).1 := by
    rw [Coordinator.perform_enter (d := c.desk) hfind hwaiting hfree]
    rfl
  have hcases : (c.onCoordinator (·.enter · s route now deadline)).1.coordinator
        = c.coordinator.forget s.caller
      ∨ ∃ previous, (c.onCoordinator (·.enter · s route now deadline)).1.coordinator
        = c.coordinator.setStage s.caller (.dispatched route previous deadline) :=
    c.coordinator.enter_cases c.engine.cache s route now deadline
  refine ⟨h.exists_run hop, fun t ht => ?_, ?_⟩
  · rcases hcases with heq | ⟨previous, heq⟩
    · exact h.callers t (Coordinator.mem_forget.mp (heq ▸ ht)).1
    · obtain ⟨-, u, hu, hc, -⟩ := Coordinator.of_mem_setStage (heq ▸ ht)
      exact hc ▸ h.callers u hu
  · rcases hcases with heq | ⟨previous, heq⟩
    · exact heq ▸ h.inLine.forget s.caller
    · exact heq ▸ h.inLine.setStage h.orderly hs hnext _

theorem InTurn.enter (h : c.InTurn) (caller : CallId) : (c.enter caller).1.InTurn := by
  unfold Client.enter
  split
  · rename_i s hfind
    split
    · rename_i hnext
      have hturn := h.onCoordinator_enter hfind hnext c.routeNow c.instant
        (c.now + c.config.commandTimeout.nanos)
      dsimp only
      split
      · exact hturn.dispatch caller _ _ _
      · exact hturn.of_eq rfl (Nat.le_refl _)
    · exact h
  · exact h

theorem InTurn.startFetch (h : c.InTurn) (id : EntityId) (force : Bool) (purpose : Purpose) :
    (c.startFetch id force purpose).1.InTurn :=
  h.of_eq rfl (Nat.le_succ _)

theorem InTurn.resynchronize (h : c.InTurn) (epoch : Epoch) : (c.resynchronize epoch).1.InTurn := by
  unfold Client.resynchronize
  dsimp only
  split
  · exact h.of_eq rfl (Nat.le_refl _)
  · exact foldl_andThen (fun _ id hc => hc.startFetch id true .resync) _
      (h.of_eq rfl (Nat.le_refl _))

theorem InTurn.routeFrame (h : c.InTurn) (frame : Wire.ServerFrame) :
    (c.routeFrame frame).InTurn := by
  cases frame <;> exact h.of_eq rfl (Nat.le_refl _)

theorem InTurn.route (h : c.InTurn) : c.route.1.InTurn := by
  unfold Client.route
  split
  · exact h
  · rename_i r rest _
    have hrest : ({ c with reports := rest } : Client).InTurn := h.of_eq rfl (Nat.le_refl _)
    cases r with
    | established epoch user => exact hrest.resynchronize epoch
    | frame f => exact hrest.routeFrame f
    | failed error => exact hrest.of_eq rfl (Nat.le_refl _)

theorem InTurn.showRefresh (h : c.InTurn) (id : EntityId) {α : Type} (r : Except Failure.Fetch α) :
    (c.showRefresh id r).InTurn := by
  cases r <;> exact h.of_eq rfl (Nat.le_refl _)

theorem InTurn.endResyncFetch (h : c.InTurn) (id : EntityId)
    (r : Except Failure.Fetch RefreshOutcome) : (c.endResyncFetch id r).InTurn := by
  simp only [Client.endResyncFetch]
  repeat' split
  all_goals exact h.of_eq rfl (Nat.le_refl _)

theorem InTurn.finish (h : c.InTurn) (caller : CallId) (result : CallResult) :
    (c.finish caller result).1.InTurn :=
  h.of_eq rfl (Nat.le_refl _)

/-- What a fetch brought is reconciled, and whoever wanted it goes on. -/
theorem InTurn.endFetch (h : c.InTurn) (f : Fetch) (result : Except Failure.Fetch FetchOutcome) :
    (c.endFetch f result).1.InTurn := by
  unfold Client.endFetch
  dsimp only
  generalize hu : (c.dropFetches fun g => g.id = f.id).onEngine
    (·.onCache (·.reconcile f.entity (c.dropFetches fun g => g.id = f.id).instant result)) = u
  have hturn : u.1.InTurn := hu ▸ h.of_eq rfl (Nat.le_refl _)
  split
  · exact (hturn.showRefresh _ _).finish _ _
  · exact (hturn.showRefresh _ _).finish _ _
  · exact hturn.endResyncFetch _ _
  · exact hturn.of_leaves (.confirm f.entity (hasFailed u.2)) rfl rfl (Nat.le_refl _)

theorem InTurn.shutdown (h : c.InTurn) : c.shutdown.1.InTurn := by
  unfold Client.shutdown
  split
  · refine InTurn.enqueue ?_ _
    exact h.of_leaves .shutdown rfl rfl (Nat.le_refl _)
  · exact h

theorem InTurn.subscribe (h : c.InTurn) (id : EntityId) (seat : Option Seat) :
    (c.subscribe id seat).1.InTurn := by
  unfold Client.subscribe
  dsimp only
  split
  · refine InTurn.enqueue ?_ _
    exact h.of_eq rfl (Nat.le_refl _)
  · exact h.of_eq rfl (Nat.le_refl _)

theorem InTurn.unsubscribe (h : c.InTurn) (handle : Nat) : (c.unsubscribe handle).1.InTurn := by
  unfold Client.unsubscribe
  split
  · dsimp only
    split
    · refine InTurn.enqueue ?_ _
      exact h.of_eq rfl (Nat.le_refl _)
    · exact h.of_eq rfl (Nat.le_refl _)
  · exact h

theorem InTurn.manageHost (h : c.InTurn) : c.manageHost.1.InTurn := by
  unfold Client.manageHost
  split
  · exact h
  · dsimp only
    split
    · refine InTurn.onLink ?_ _
      exact h.of_eq rfl (Nat.le_refl _)
    · exact h.of_eq rfl (Nat.le_refl _)
    · exact h.of_eq rfl (Nat.le_refl _)

theorem InTurn.lookAgain (h : c.InTurn) (caller : CallId) : (c.lookAgain caller).1.InTurn := by
  unfold Client.lookAgain
  split
  · split
    · exact h.of_eq rfl (Nat.le_refl _)
    · split
      · exact h.of_eq rfl (Nat.le_refl _)
      · exact h
  · exact h

theorem InTurn.detect (h : c.InTurn) : c.detect.InTurn := by
  unfold Client.detect
  split
  · exact h.of_eq rfl (Nat.le_refl _)
  · exact h

theorem InTurn.step (h : c.InTurn) (m : Move) : (c.step m).1.InTurn := by
  cases m with
  | tick | host | push | handshakeTimer | retryTimer => exact h.of_eq rfl (Nat.le_refl _)
  | wait status => exact h.of_eq rfl (Nat.le_succ _)
  | load id => exact InTurn.startFetch (c := (c.call .load).1) (h.of_eq rfl (Nat.le_succ _)) _ _ _
  | refresh id =>
    exact InTurn.startFetch (c := (c.call .refresh).1) (h.of_eq rfl (Nat.le_succ _)) _ _ _
  | connect | disconnect => exact h.enqueue _
  | shutdown => exact h.shutdown
  | subscribe id seat => exact h.subscribe id seat
  | unsubscribe handle => exact h.unsubscribe handle
  | submit m => exact h.submit m
  | command id version action =>
    exact InTurn.sendCommand (c := (c.call .command).1) (h.of_eq rfl (Nat.le_succ _)) _ _ _ _
  | abandon caller => exact h.of_leaves (.forget caller) rfl rfl (Nat.le_refl _)
  | manageCommand | manageInput => exact h.onLink _
  | manageHost => exact h.manageHost
  | line epoch move => exact h.onLink _
  | route => exact h.route
  | detect => exact h.detect
  | enter caller => exact h.enter caller
  | lookAgain caller => exact h.lookAgain caller
  | fetched id result =>
    simp only [Client.step, Client.fetched]
    split
    · exact h.endFetch _ _
    · exact h
  | submitted caller result =>
    simp only [Client.step, Client.submitted]
    split
    · rename_i hfind
      exact h.resolve hfind rfl result
    · exact h
  | fetchTimer id =>
    simp only [Client.step, Client.fetchTimer]
    split
    · split
      · exact h.endFetch _ _
      · exact h
    · exact h
  | commandTimer caller =>
    simp only [Client.step, Client.commandTimer]
    split
    · rename_i hfind
      split
      · exact h.resolve hfind rfl _
      · exact h
    · exact h
  | watchdog id =>
    have hturn : ({ c with coordinator := (c.coordinator.wake c.engine.cache id c.now).1 } :
        Client).InTurn :=
      h.of_leaves (.wake id c.now) rfl rfl (Nat.le_refl _)
    simp only [Client.step, Client.wakeWatchdog]
    split
    · exact hturn.startFetch id true .confirm
    · exact hturn

theorem inTurn_run (h : c.InTurn) (moves : List Move) : (c.run moves).1.InTurn :=
  foldl_andThen (fun _ m hc => hc.step m) moves h

/-- **Commands take turns.** Whatever commands come for whatever entities, and
in whichever order they get their turns, are answered, time out or are given
up, at most one command for an entity was dispatched and is not resolved;
no gate that a command refers to is ever discarded, so that commands for one
entity always meet at one gate, and those for different entities do not wait
for each other. What a client's coordinator goes through, whatever the client
does, is one of those orders. -/
theorem commands_take_turns :
    (∀ ops, (Coordinator.run ops).1.TakesTurns)
      ∧ ∀ config host moves, ∃ ops,
          ((start config host).run moves).1.desk = Coordinator.run ops :=
  ⟨fun ops => (Coordinator.orderly_run ops).takesTurns,
    fun config host moves => (inTurn_run (inTurn_start config host) moves).run⟩

end Client

end LiveSync
