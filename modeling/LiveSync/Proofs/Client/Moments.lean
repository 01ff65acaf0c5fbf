import LiveSync.Proofs.Client.LetGo
import LiveSync.Proofs.Link.Inputs

/-!
# Moves of a client and moments of its link

A client has many parts, and most moves concern none but one of them. For the
connection a move is a moment of the link, or nothing at all (`Client.link_step`);
inputs out of the blue, which a link on its own must put up with, do not occur. The
host changes only when it reports something, and what its listeners have read only
when the manager reads (`Client.host_step`).

So a run of a client is a run of the machine of its connection, on the inputs that
the moves feed it (`Client.machine_run`).
-/

namespace LiveSync

open LiveSync.Connection

namespace Client

variable {c c' : Client} {m : Move}

/-! ### The host -/

/-- **The host and its listeners after a move.** -/
def nextHost (c : Client) : Move → Host
  | .host signal => c.host.emit signal
  | .manageHost =>
    if c.link.manager.stopped then c.host
    else { c.host with channel := c.host.channel.advance 0 }
  | _ => c.host

theorem host_resolve (c : Client) (caller : CallId) (previous : Entry)
    (result : Except Failure.Command Receipt) :
    (c.resolve caller previous result).1.host = c.host := by
  cases result <;> rfl

theorem host_answered (c : Client) (caller : CallId) (result : Except Failure.Command Receipt) :
    (c.answered caller result).1.host = c.host := by
  unfold answered
  split
  · rfl
  · split
    · exact c.host_resolve ..
    · rfl
  · rfl

theorem host_absorb (c : Client) (o : Link.Output) : (c.absorb o).1.host = c.host := by
  cases o with
  | report r =>
    dsimp only [absorb, still]
    split <;> rfl
  | reply caller result => exact c.host_answered caller result
  | publish | connect | send | close => rfl

/-- The host does not notice what leaves the link. -/
theorem host_onLink (c : Client) (s : Link.Step) : (c.onLink s).1.host = c.host :=
  foldl_andThen (P := fun d => d.host = c.host) (fun d o hd => (d.host_absorb o).trans hd) s.2 rfl

theorem host_enter (c : Client) (caller : CallId) : (c.enter caller).1.host = c.host := by
  unfold enter
  split
  · split
    · dsimp only
      split
      · cases c.routeNow with
        | live => exact host_onLink ..
        | api => rfl
      · rfl
    · rfl
  · rfl

theorem host_resynchronize (c : Client) (epoch : Epoch) :
    (c.resynchronize epoch).1.host = c.host := by
  unfold resynchronize
  dsimp only
  split
  · rfl
  · exact foldl_andThen (P := fun d => d.host = c.host) (fun _ _ hd => hd) _ rfl

theorem host_route (c : Client) : c.route.1.host = c.host := by
  unfold route
  split
  · rfl
  · rename_i r rest _
    cases r with
    | established epoch user => exact host_resynchronize ..
    | frame f => cases f <;> rfl
    | failed error => rfl

theorem host_endResyncFetch (c : Client) (id : EntityId)
    (r : Except Failure.Fetch RefreshOutcome) : (c.endResyncFetch id r).host = c.host := by
  simp only [endResyncFetch]
  repeat' split
  all_goals rfl

theorem host_endFetch (c : Client) (f : Fetch) (result : Except Failure.Fetch FetchOutcome) :
    (c.endFetch f result).1.host = c.host := by
  unfold endFetch
  dsimp only
  generalize hu : (c.dropFetches fun g => g.id = f.id).onEngine
    (·.onCache (·.reconcile f.entity (c.dropFetches fun g => g.id = f.id).instant result)) = u
  have hhost : u.1.host = c.host := hu ▸ rfl
  split
  · cases u.2 <;> exact hhost
  · cases u.2 <;> exact hhost
  · exact (host_endResyncFetch ..).trans hhost
  · exact hhost

theorem host_manageHost (c : Client) : c.manageHost.1.host = c.nextHost .manageHost := by
  unfold manageHost nextHost
  split
  · rfl
  · dsimp only
    split
    · exact host_onLink ..
    · rfl
    · rfl

/-- **Only the host changes the host**, and only the manager reads what it
announces. -/
theorem host_step (c : Client) (m : Move) : (c.step m).1.host = c.nextHost m := by
  cases m with
  | tick | host | load | refresh | submit | wait | abandon | push | handshakeTimer | retryTimer =>
    rfl
  | connect | disconnect | command | manageCommand | manageInput | line => exact host_onLink ..
  | manageHost => exact c.host_manageHost
  | route => exact c.host_route
  | enter caller => exact c.host_enter caller
  | shutdown =>
    simp only [step, shutdown]
    split
    · exact host_onLink ..
    · rfl
  | subscribe id seat =>
    simp only [step, subscribe]
    split
    · exact host_onLink ..
    · rfl
  | unsubscribe handle =>
    simp only [step, unsubscribe]
    split
    · split
      · exact host_onLink ..
      · rfl
    · rfl
  | detect =>
    simp only [step, detect]
    split <;> rfl
  | lookAgain caller =>
    simp only [step, lookAgain]
    repeat' split
    all_goals rfl
  | fetched id result =>
    simp only [step, fetched]
    split
    · exact host_endFetch ..
    · rfl
  | submitted caller result =>
    simp only [step, submitted]
    split
    · exact host_resolve ..
    · rfl
  | fetchTimer id =>
    simp only [step, fetchTimer]
    split
    · split
      · exact host_endFetch ..
      · rfl
    · rfl
  | commandTimer caller =>
    simp only [step, commandTimer]
    split
    · split
      · exact host_resolve ..
      · rfl
    · rfl
  | watchdog id =>
    simp only [step, wakeWatchdog]
    split <;> rfl

/-! ### The connection -/

/-- **The input that the machine is fed** in a move, if it is fed one. -/
def fedAt (c : Client) : Move → Option Input
  | .manageCommand => c.link.fedAt .takeCommand
  | .manageInput => c.link.fedAt .takeInput
  | .manageHost =>
    match c.host.channel.peek 0 with
    | .item a => c.link.fedAt (.takeHost a.active)
    | .lagged _ | .empty => none
  | _ => none

/-- **What the machine is fed** in a run, one input after another. -/
def fed (c : Client) : List Move → List Input
  | [] => []
  | m :: later => (c.fedAt m).toList ++ (c.step m).1.fed later

/-- A manager that has stopped is fed nothing. -/
theorem fedAt_of_stopped (hs : c.link.manager.stopped = true) (m : Move) : c.fedAt m = none := by
  have hnone (move : Link.Move) : c.link.fedAt move = none :=
    Option.bind_eq_none_iff.mpr fun p _ => if_pos hs
  unfold fedAt
  split
  · exact hnone _
  · exact hnone _
  · split
    · exact hnone _
    · rfl
    · rfl
  · rfl

/-- **A move is a moment of the link**, at which it hears nothing out of the blue. -/
def IsMoment (c : Client) (m : Move) (t : Link.Moment) : Prop :=
  (c.step m).1.link = (c.link.step t).1 ∧ c.link.fedAt t.move = c.fedAt m
    ∧ t.move.isHear = false

theorem link_onLink (c : Client) (s : Link.Step) : (c.onLink s).1.link = s.1 :=
  (absorbs_onLink c s).link

/-- A command is queued. -/
theorem exists_isMoment_of_enqueue (command : Command) (hm : c.fedAt m = none)
    (hlink : (c.step m).1.link = (c.link.enqueue command).1) : ∃ t, c.IsMoment m t :=
  ⟨c.moment (.ask command), hlink, hm.symm, rfl⟩

/-- **A move is a moment of the link, or leaves it alone.** -/
theorem link_step (c : Client) (m : Move) :
    (c.step m).1.link = c.link ∧ c.fedAt m = none ∨ ∃ t, c.IsMoment m t := by
  cases m with
  | tick | host | load | refresh | submit | wait | abandon | push => exact .inl ⟨rfl, rfl⟩
  | connect | disconnect | command =>
    exact .inr (exists_isMoment_of_enqueue _ rfl (link_onLink ..))
  | manageCommand => exact .inr ⟨c.moment .takeCommand, link_onLink .., rfl, rfl⟩
  | manageInput => exact .inr ⟨c.moment .takeInput, link_onLink .., rfl, rfl⟩
  | line epoch move => exact .inr ⟨c.moment (.line epoch move), link_onLink .., rfl, rfl⟩
  | handshakeTimer => exact .inr ⟨c.moment .handshakeTimer, rfl, rfl, rfl⟩
  | retryTimer => exact .inr ⟨c.moment .retryTimer, rfl, rfl, rfl⟩
  | manageHost =>
    cases hs : c.link.manager.stopped with
    | true =>
      refine .inl ⟨?_, fedAt_of_stopped hs _⟩
      simp only [step, manageHost, hs]
      rfl
    | false =>
      simp only [IsMoment, step, manageHost, hs, fedAt, Channel.receive]
      cases hpeek : c.host.channel.peek 0 with
      | item a => exact .inr ⟨c.moment (.takeHost a.active), link_onLink .., rfl, rfl⟩
      | lagged | empty => exact .inl ⟨rfl, rfl⟩
  | shutdown =>
    cases hopen : c.isOpen with
    | true =>
      refine .inr (exists_isMoment_of_enqueue .shutdown rfl ?_)
      simp only [step, shutdown, hopen]
      exact link_onLink ..
    | false =>
      refine .inl ⟨?_, rfl⟩
      simp only [step, shutdown, hopen]
      rfl
  | subscribe id seat =>
    cases hframe : ((c.engine.watch id seat).subscribe (.game id)).2 with
    | some f =>
      refine .inr (exists_isMoment_of_enqueue (.send f) rfl ?_)
      simp only [step, subscribe, hframe]
      exact link_onLink ..
    | none =>
      refine .inl ⟨?_, rfl⟩
      simp only [step, subscribe, hframe]
      rfl
  | unsubscribe handle =>
    simp only [IsMoment, step, unsubscribe]
    split
    · split
      · rename_i f _
        exact .inr ⟨c.moment (.ask (.send f)), link_onLink .., rfl, rfl⟩
      · exact .inl ⟨rfl, rfl⟩
    · exact .inl ⟨rfl, rfl⟩
  | enter caller =>
    simp only [IsMoment, step, enter]
    split
    · split
      · split
        · cases c.routeNow with
          | live => exact .inr ⟨c.moment (.ask _), link_onLink .., rfl, rfl⟩
          | api => exact .inl ⟨rfl, rfl⟩
        · exact .inl ⟨rfl, rfl⟩
      · exact .inl ⟨rfl, rfl⟩
    · exact .inl ⟨rfl, rfl⟩
  | route => exact .inl ⟨c.apart_route.link, rfl⟩
  | detect => exact .inl ⟨c.apart_detect.link, rfl⟩
  | lookAgain caller => exact .inl ⟨(c.apart_lookAgain caller).link, rfl⟩
  | watchdog id => exact .inl ⟨(c.apart_wakeWatchdog id).link, rfl⟩
  | fetched id result => exact .inl ⟨(c.apart_fetched id result).link, rfl⟩
  | fetchTimer id => exact .inl ⟨(c.apart_fetchTimer id).link, rfl⟩
  | submitted caller result => exact .inl ⟨(c.apart_submitted caller result).link, rfl⟩
  | commandTimer caller => exact .inl ⟨(c.apart_commandTimer caller).link, rfl⟩

/-- **The life of the connection goes on by what it is fed.** -/
theorem machine_step (c : Client) (m : Move) :
    (c.step m).1.link.manager.machine = (c.link.manager.machine.run (c.fedAt m).toList).1 := by
  rcases c.link_step m with ⟨hlink, hnone⟩ | ⟨t, hlink, hfed, -⟩
  · rw [hlink, hnone]
    rfl
  · rw [hlink, ← hfed]
    exact Link.machine_step c.link t

/-- What waits for the manager comes from attempts and timers. -/
theorem ownInputs_step (h : c.link.OwnInputs) (m : Move) : (c.step m).1.link.OwnInputs := by
  rcases c.link_step m with ⟨hlink, -⟩ | ⟨t, hlink, -, hhear⟩
  · exact hlink ▸ h
  · exact hlink ▸ h.step hhear

/-! ### Runs -/

theorem run_append (c : Client) (past later : List Move) :
    (c.run (past ++ later)).1 = ((c.run past).1.run later).1 := by
  induction later using List.reverseRecOn with
  | nil => rw [List.append_nil]; rfl
  | append_singleton later m ih =>
    rw [← List.append_assoc, run_concat, run_concat, Step.andThen, ih]
    rfl

/-- A run is its first move and the run after it. -/
theorem run_cons (c : Client) (m : Move) (later : List Move) :
    (c.run (m :: later)).1 = ((c.step m).1.run later).1 :=
  c.run_append [m] later

theorem fed_append (c : Client) (past later : List Move) :
    c.fed (past ++ later) = c.fed past ++ (c.run past).1.fed later := by
  induction past generalizing c with
  | nil => rfl
  | cons m past ih => rw [List.cons_append, fed, ih, fed, run_cons, List.append_assoc]

/-- **What the moves feed the machine is its run.** -/
theorem machine_run (c : Client) (moves : List Move) :
    (c.run moves).1.link.manager.machine = (c.link.manager.machine.run (c.fed moves)).1 := by
  induction moves generalizing c with
  | nil => rfl
  | cons m later ih =>
    rw [run_cons, ih, machine_step, fed, Machine.run_append]
    rfl

end Client

end LiveSync
