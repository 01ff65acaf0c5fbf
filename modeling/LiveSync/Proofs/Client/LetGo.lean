import LiveSync.Proofs.Client.Account

/-!
# A client that was let go of

A program may let go of a client at any moment: while a resynchronization is
under way, while watchdogs sleep or fetch, while the manager has queued reports
that nobody has taken up. From then on nothing may happen in the background
that the program could notice, apart from the connection going down.

Letting go of a client stops the parts that work for it and queues the command
to shut down; it cannot wait for the manager, which may still take up whatever
was queued before. So there are two moments. From the first one on there is
nobody left whom the manager could make write something (`Client.IsStill`): its
reports are taken up by nobody, and no fetch is under way whose end would be.
From the second one on the connection itself is at rest (`Link.AtRest`).

That nothing is left at the first moment rests on two things. Whoever is in the
middle of a call on the client has it borrowed, so at that moment there are no
such calls; and every other fetch belongs to a part that is stopped
(`Client.Owned`).

The connection may be shared. Those who share it may go on asking something of
it, before and after (`Client.Act`), and those who have sent a command go on
waiting for the answer.
-/

namespace LiveSync

open LiveSync.Connection

/-! ### What can happen around a client -/

/-- Whether a caller has borrowed the client until the call is answered. -/
def Call.isOnClient : Call → Bool
  | .load | .refresh | .submit => true
  | .command | .wait _ => false

/-- Whether a move is possible only for those who have the client. -/
def Move.isOnClient : Move → Bool
  | .subscribe _ _ | .load _ | .refresh _ | .submit _ => true
  | _ => false

/-- Whether a program itself writes to the cache, which it may share. -/
def Move.isPush : Move → Bool
  | .push _ _ _ => true
  | _ => false

/-- Whether an event says nothing but the status of the connection. -/
def Event.isStatus : Event → Bool
  | .connectionChanged _ _ => true
  | _ => false

namespace Client

variable {c c' : Client} {s : Step} {m : Move}

/-- **What can happen around a client**: one of its moves, or somebody who
shares its connection asks something of that, and waits for no answer. -/
inductive Act where
  | move (m : Move)
  | ask (command : Command) (h : command.request? = none)

/-- Whether an act is possible only for those who have the client. -/
def Act.isOnClient : Act → Bool
  | .move m => m.isOnClient
  | .ask _ _ => false

/-- Whether the program itself writes to the cache. -/
def Act.isPush : Act → Bool
  | .move m => m.isPush
  | .ask _ _ => false

/-- **One act.** -/
def act (c : Client) : Act → Step
  | .move m => c.step m
  | .ask command _ => c.enqueue command

/-- **Acts one after another.** -/
def enact (c : Client) (acts : List Act) : Step :=
  acts.foldl (fun s a => s.andThen (act · a)) (c, [])

theorem enact_concat (c : Client) (acts : List Act) (a : Act) :
    c.enact (acts ++ [a]) = (c.enact acts).andThen (act · a) := by
  rw [enact, List.foldl_append]
  rfl

theorem Owned.act (h : c.Owned) (a : Act) : (c.act a).1.Owned := by
  cases a with
  | move m => exact h.step m
  | ask command _ => exact h.onLink _

theorem Accounted.act (h : c.Accounted) (a : Act) : c.Accounts (c.act a) := by
  cases a with
  | move m => exact h.step m
  | ask command hcommand => exact h.enqueue command hcommand

theorem Owned.enact (h : c.Owned) (acts : List Act) : (c.enact acts).1.Owned :=
  foldl_andThen (fun _ a hc => hc.act a) acts h

theorem Accounted.enact (h : c.Accounted) (acts : List Act) : (c.enact acts).1.Accounted :=
  foldl_andThen (fun _ a hc => (hc.act a).after) acts h

/-- **A manager that has stopped asks for no transport**, whatever happens
later. -/
theorem Accounted.connect_not_mem (h : c.Accounted) (hs : c.link.manager.stopped = true)
    (later : List Act) :
    (c.enact later).1.link.manager.stopped = true
      ∧ ∀ epoch, .connect epoch ∉ (c.enact later).2 := by
  induction later using List.reverseRecOn with
  | nil => exact ⟨hs, nofun⟩
  | append_singleton later a ih =>
    obtain ⟨hstopped, hnone⟩ := ih
    obtain ⟨hstopped', hnone'⟩ := ((h.enact later).act a).stopped hstopped
    rw [enact_concat]
    refine ⟨hstopped', fun epoch he => ?_⟩
    exact (List.mem_append.mp he).elim (hnone epoch) (hnone' epoch)

/-! ### Nothing works in the background -/

/-- **Nothing works in the background.** -/
structure IsStill (c : Client) : Prop where
  closed : c.isOpen = false
  reports : c.reports = []
  fetches : c.fetches = []
  watchdogs : c.coordinator.watchdogs = .empty
  submissions : c.coordinator.submissions = []

theorem IsStill.of_eq (h : c.IsStill) (hopen : c'.isOpen = c.isOpen)
    (hreports : c'.reports = c.reports) (hfetches : c'.fetches = c.fetches)
    (hcoordinator : c'.coordinator = c.coordinator) : c'.IsStill :=
  ⟨hopen.trans h.closed, hreports.trans h.reports, hfetches.trans h.fetches,
    hcoordinator ▸ h.watchdogs, hcoordinator ▸ h.submissions⟩

theorem IsStill.find?_eq_none (h : c.IsStill) (caller : CallId) :
    c.coordinator.find? caller = none := by
  rw [Coordinator.find?, h.submissions]
  rfl

/-- **A quiet step**: nothing works in the background after it, the cache and
the errors that are shown are as they were, and nothing is published but the
status of the connection. -/
structure Quiet (c : Client) (s : Step) : Prop where
  isStill : s.1.IsStill
  cache : s.1.engine.cache = c.engine.cache
  notice : s.1.engine.notice = c.engine.notice
  published : ∃ events, s.1.bus.log = c.bus.log ++ events ∧ ∀ e ∈ events, e.isStatus = true

/-- Most moves have nothing to do with what works in the background. -/
theorem quiet_of_eq (hstill : s.1.IsStill)
    (hengine : s.1.engine.cache = c.engine.cache ∧ s.1.engine.notice = c.engine.notice)
    (hlog : s.1.bus.log = c.bus.log) : c.Quiet s :=
  ⟨hstill, hengine.1, hengine.2, [], by rw [hlog, List.append_nil], nofun⟩

theorem Quiet.andThen {f : Client → Step} (h : c.Quiet s) (hf : s.1.Quiet (f s.1)) :
    c.Quiet (s.andThen f) := by
  obtain ⟨events, hlog, hstatus⟩ := h.published
  obtain ⟨events', hlog', hstatus'⟩ := hf.published
  refine ⟨hf.isStill, hf.cache.trans h.cache, hf.notice.trans h.notice, events ++ events', ?_,
    List.forall_mem_append.mpr ⟨hstatus, hstatus'⟩⟩
  rw [Step.andThen, hlog', hlog, List.append_assoc]

/-- A caller who shares the connection is answered, and nobody else is left. -/
theorem IsStill.quiet_answered (h : c.IsStill) (caller : CallId)
    (result : Except Failure.Command Receipt) : c.Quiet (c.answered caller result) := by
  unfold answered
  split
  · exact quiet_of_eq (h.of_eq rfl rfl rfl rfl) ⟨rfl, rfl⟩ rfl
  · split
    · rename_i hfind
      cases (h.find?_eq_none caller).symm.trans hfind
    · exact quiet_of_eq h ⟨rfl, rfl⟩ rfl
  · exact quiet_of_eq h ⟨rfl, rfl⟩ rfl

theorem IsStill.quiet_absorb (h : c.IsStill) {stopped : Bool} {o : Link.Output}
    (ho : o.IsFitting stopped) : c.Quiet (c.absorb o) := by
  cases o with
  | publish event =>
    obtain ⟨status, attempt, rfl⟩ := ho
    exact ⟨h.of_eq rfl rfl rfl rfl, rfl, rfl, [.connectionChanged status attempt], rfl,
      List.forall_mem_singleton.mpr rfl⟩
  | report r =>
    simp only [absorb, h.closed]
    exact quiet_of_eq h ⟨rfl, rfl⟩ rfl
  | reply caller result => exact h.quiet_answered caller result
  | connect | send | close => exact quiet_of_eq h ⟨rfl, rfl⟩ rfl

/-- **Whatever leaves the link is quiet.** -/
theorem IsStill.quiet_onLink (h : c.IsStill) (t : Link.Moment) :
    c.Quiet (c.onLink (c.link.step t)) := by
  have hfitting := Link.fitting_step c.link t
  unfold onLink
  generalize (c.link.step t).2 = outputs at hfitting
  induction outputs using List.reverseRecOn with
  | nil => exact quiet_of_eq (h.of_eq rfl rfl rfl rfl) ⟨rfl, rfl⟩ rfl
  | append_singleton outputs o ih =>
    obtain ⟨hfitting, ho⟩ := List.forall_mem_append.mp hfitting
    rw [List.foldl_append]
    have hrest := ih hfitting
    exact hrest.andThen (f := (absorb · o))
      (hrest.isStill.quiet_absorb (ho o (List.mem_singleton_self o)))

/-- The link may move after something that is quiet. -/
theorem Quiet.onLink (h : c.Quiet c'.still) (t : Link.Moment) :
    c.Quiet (c'.onLink (c'.link.step t)) :=
  h.andThen (f := fun d => d.onLink (d.link.step t)) (h.isStill.quiet_onLink t)

/-- A subscription may outlast the client. -/
theorem IsStill.quiet_unsubscribe (h : c.IsStill) (handle : Nat) :
    c.Quiet (c.unsubscribe handle) := by
  unfold unsubscribe
  split
  · rename_i sub _
    have hengine : (c.engine.unsubscribe sub).1.cache = c.engine.cache
        ∧ (c.engine.unsubscribe sub).1.notice = c.engine.notice := by
      simp only [Engine.unsubscribe]
      split <;> exact ⟨rfl, rfl⟩
    have hgiven : c.Quiet ({ c with
        engine := (c.engine.unsubscribe sub).1
        subscriptions := c.subscriptions.set handle none } : Client).still :=
      quiet_of_eq (h.of_eq rfl rfl rfl rfl) hengine rfl
    dsimp only
    split
    · rename_i f _
      exact hgiven.onLink (c.moment (.ask (.send f)))
    · exact hgiven
  · exact quiet_of_eq h ⟨rfl, rfl⟩ rfl

theorem IsStill.quiet_manageHost (h : c.IsStill) : c.Quiet c.manageHost := by
  have hheard (host : Host) : c.Quiet ({ c with host := host } : Client).still :=
    quiet_of_eq (h.of_eq rfl rfl rfl rfl) ⟨rfl, rfl⟩ rfl
  unfold manageHost
  split
  · exact quiet_of_eq h ⟨rfl, rfl⟩ rfl
  · dsimp only
    split
    · rename_i a _
      exact (hheard _).onLink (c.moment (.takeHost a.active))
    · exact hheard _
    · exact hheard _

/-- **Without the client every move is quiet**, except that a program may write
to the cache itself. -/
theorem IsStill.quiet_step (h : c.IsStill) (hclient : m.isOnClient = false)
    (hpush : m.isPush = false) : c.Quiet (c.step m) := by
  have hstill : c.Quiet c.still := quiet_of_eq h ⟨rfl, rfl⟩ rfl
  cases m with
  | subscribe | load | refresh | submit => cases hclient
  | push => cases hpush
  | tick | host | wait | handshakeTimer | retryTimer =>
    exact quiet_of_eq (h.of_eq rfl rfl rfl rfl) ⟨rfl, rfl⟩ rfl
  | connect => exact h.quiet_onLink (c.moment (.ask .connect))
  | disconnect => exact h.quiet_onLink (c.moment (.ask .disconnect))
  | shutdown =>
    simp only [Client.step, shutdown, h.closed]
    exact hstill
  | unsubscribe handle => exact h.quiet_unsubscribe handle
  | command id version action =>
    have hasks : c.Quiet ((c.call .command).1.freshRequest.1).still :=
      quiet_of_eq (h.of_eq rfl rfl rfl rfl) ⟨rfl, rfl⟩ rfl
    exact hasks.onLink (c.moment (.ask (.submit (.numbered (c.fresh + 1)) id version action
      c.fresh)))
  | abandon caller =>
    refine quiet_of_eq ⟨h.closed, h.reports, ?_, h.watchdogs, ?_⟩ ⟨rfl, rfl⟩ rfl
    · show c.fetches.filter _ = []
      rw [h.fetches]
      rfl
    · show c.coordinator.submissions.filter _ = []
      rw [h.submissions]
      rfl
  | manageCommand => exact h.quiet_onLink (c.moment .takeCommand)
  | manageInput => exact h.quiet_onLink (c.moment .takeInput)
  | manageHost => exact h.quiet_manageHost
  | line epoch move => exact h.quiet_onLink (c.moment (.line epoch move))
  | route =>
    simp only [Client.step, route, h.reports]
    exact hstill
  | detect =>
    simp only [Client.step, detect, h.closed]
    exact hstill
  | enter caller =>
    simp only [Client.step, enter, h.find?_eq_none]
    exact hstill
  | lookAgain caller =>
    simp only [Client.step, lookAgain]
    repeat' split
    all_goals exact quiet_of_eq (h.of_eq rfl rfl rfl rfl) ⟨rfl, rfl⟩ rfl
  | fetched id result =>
    simp only [Client.step, fetched, h.fetches]
    exact hstill
  | submitted caller result =>
    simp only [Client.step, submitted, h.find?_eq_none]
    exact hstill
  | fetchTimer id =>
    simp only [Client.step, fetchTimer, h.fetches]
    exact hstill
  | commandTimer caller =>
    simp only [Client.step, commandTimer, h.find?_eq_none]
    exact hstill
  | watchdog id =>
    have hwake : c.coordinator.wake c.engine.cache id c.now = (c.coordinator, false) := by
      rw [Coordinator.wake, h.watchdogs]
      rfl
    simp only [Client.step, wakeWatchdog, hwake]
    exact hstill

theorem IsStill.step (h : c.IsStill) (hclient : m.isOnClient = false) : (c.step m).1.IsStill := by
  cases hpush : m.isPush with
  | false => exact (h.quiet_step hclient hpush).isStill
  | true =>
    cases m with
    | push => exact h.of_eq rfl rfl rfl rfl
    | _ => cases hpush

theorem IsStill.act (h : c.IsStill) {a : Act} (hclient : a.isOnClient = false) :
    (c.act a).1.IsStill := by
  cases a with
  | move m => exact h.step hclient
  | ask command _ => exact (h.quiet_onLink (c.moment (.ask command))).isStill

theorem IsStill.quiet_act (h : c.IsStill) {a : Act} (hclient : a.isOnClient = false)
    (hpush : a.isPush = false) : c.Quiet (c.act a) := by
  cases a with
  | move m => exact h.quiet_step hclient hpush
  | ask command _ => exact h.quiet_onLink (c.moment (.ask command))

/-! ### Letting go -/

/-- The callers who have borrowed the client. -/
def borrowers (c : Client) : List CallId := (c.calls.pairs.filter (·.2.isOnClient)).map Prod.fst

/-- **A client is let go of**: whoever has borrowed it no longer waits, and it
is shut down. -/
def letGo (c : Client) : Step := c.run (c.borrowers.map .abandon ++ [.shutdown])

theorem run_concat (c : Client) (moves : List Move) (m : Move) :
    c.run (moves ++ [m]) = (c.run moves).andThen (step · m) := by
  rw [run, List.foldl_append]
  rfl

/-- What is left when some callers no longer wait. -/
theorem run_abandon (c : Client) (callers : List CallId) :
    (c.run (callers.map .abandon)).1.isOpen = c.isOpen
      ∧ ∀ caller what, (c.run (callers.map .abandon)).1.calls.get? caller = some what →
        c.calls.get? caller = some what ∧ caller ∉ callers := by
  induction callers using List.reverseRecOn with
  | nil => exact ⟨rfl, fun _ _ hcall => ⟨hcall, nofun⟩⟩
  | append_singleton callers k ih =>
    rw [List.map_append, List.map_singleton, run_concat]
    refine ⟨ih.1, fun caller what hcall => ?_⟩
    have hcall : ((c.run (callers.map .abandon)).1.calls.erase k).get? caller = some what := hcall
    obtain ⟨hbefore, hnot⟩ := ih.2 caller what (Table.get?_of_erase hcall)
    refine ⟨hbefore, fun hmem => (List.mem_append.mp hmem).elim hnot fun hk => ?_⟩
    rw [List.mem_singleton.mp hk, Table.get?_erase_self] at hcall
    cases hcall

/-- **Nothing is left behind** when nobody has borrowed the client any more:
every fetch belongs to a part that is stopped. -/
theorem Owned.isStill_shutdown (h : c.Owned) (hopen : c.isOpen = true)
    (hcalls : ∀ caller what, c.calls.get? caller = some what → what.isOnClient = false) :
    c.shutdown.1.IsStill ∧ c.shutdown.1.link.IsClosing := by
  have hfetches : c.fetches.filter (fun f => !f.purpose.isBackground) = [] := by
    refine List.filter_eq_nil_iff.mpr fun f hf hforeground => ?_
    have hwanted := h.wanted f hf
    obtain ⟨fid, entity, deadline, purpose⟩ := f
    cases purpose with
    | load caller | refresh caller =>
      rcases hwanted with hcall | hcall <;> cases hcalls caller _ hcall
    | resync | confirm => cases hforeground
  have hsubmissions : c.coordinator.submissions = [] :=
    List.eq_nil_iff_forall_not_mem.mpr fun s hs => by
      cases hcalls s.caller _ (h.submissions s hs)
  unfold Client.shutdown
  rw [if_pos hopen]
  have hstill : ({ c.dropFetches (·.purpose.isBackground) with
      coordinator := (c.dropFetches (·.purpose.isBackground)).coordinator.shutdown
      resync := none
      reports := []
      bus := (c.dropFetches (·.purpose.isBackground)).bus.drop 0
      isOpen := false } : Client).IsStill :=
    ⟨rfl, rfl, hfetches, rfl, hsubmissions⟩
  refine ⟨(hstill.quiet_onLink (c.moment (.ask .shutdown))).isStill, ?_⟩
  exact (absorbs_onLink _ _).link ▸ Link.isClosing_enqueue c.link

theorem Owned.isStill_letGo (h : c.Owned) (hopen : c.isOpen = true) :
    c.letGo.1.IsStill ∧ c.letGo.1.link.IsClosing := by
  obtain ⟨hopen', hcalls⟩ := c.run_abandon c.borrowers
  rw [letGo, run_concat]
  refine (h.run _).isStill_shutdown (hopen'.trans hopen) fun caller what hcall => ?_
  obtain ⟨hbefore, hnot⟩ := hcalls caller what hcall
  refine Bool.eq_false_iff.mpr fun hwhat => hnot (List.mem_map.mpr ⟨(caller, what), ?_, rfl⟩)
  exact List.mem_filter.mpr ⟨Table.mem_pairs_of_get? hbefore, hwhat⟩

/-! ### A client that was let go of is inert -/

/-- **A client is inert**: nothing works in the background, and all that its
connection still does is to go down. -/
structure Inert (c : Client) : Prop where
  isStill : c.IsStill
  /-- No part writes the cache any more or publishes anything but the status of
  the connection, whatever messages the manager still takes up. -/
  quiet : ∀ a : Act, a.isOnClient = false → a.isPush = false → c.Quiet (c.act a)
  /-- The command to shut down waits for the manager or was taken up. -/
  closing : c.link.IsClosing
  /-- Once it was taken up, there is no attempt and no timer, and earlier
  attempts know that nothing more will be sent and close their transports. -/
  atRest : c.link.manager.stopped = true → c.link.AtRest
  /-- No attempt is opened any more. -/
  connects : c.link.manager.stopped = true → ∀ later epoch, .connect epoch ∉ (c.enact later).2
  /-- Nobody waits any more for the answer to a command. -/
  commands : c.link.manager.stopped = true → c.fresh ≤ 2 ^ 128 →
    ∀ caller, c.calls.get? caller ≠ some .command
  /-- Whoever waits when the command to shut down is taken up is told that the
  command failed. -/
  told : ∀ a, (c.act a).1.link.manager.stopped = true → (c.act a).1.fresh ≤ 2 ^ 128 →
    ∀ caller, c.calls.get? caller = some .command →
      ∃ text, .finish caller (.submitted (.error (.delivery text))) ∈ (c.act a).2

theorem Accounted.inert (h : c.Accounted) (hstill : c.IsStill) (hclosing : c.link.IsClosing) :
    c.Inert where
  isStill := hstill
  quiet _ hclient hpush := hstill.quiet_act hclient hpush
  closing := hclosing
  atRest hs := h.link.atRest hs
  connects hs later := (h.connect_not_mem hs later).2
  commands hs hbound := h.get?_ne_of_stopped hbound hs
  told a hs hbound := (h.act a).told hbound hs

theorem Accounted.run (h : c.Accounted) (moves : List Move) : (c.run moves).1.Accounted :=
  foldl_andThen (fun _ m hc => (hc.step m).after) moves h

/-- **A client that was let go of is inert.** Whatever happened before and
however much is under way, every fetch belongs to a call, to the
resynchronization or to a watchdog, each to its own one; therefore nothing is
left in the background when the client is let go of. Whatever happens
afterwards – the client itself is gone, but its connection, its subscriptions
and its cache may be shared –, no part writes anything or publishes more than
the status of the connection; and once the manager has taken up the command to
shut down, there is no attempt, there will be none, and no caller of a command
waits for an answer. Identifiers of requests are not given out twice. -/
theorem inert_of_letGo (config : Config) (host : Host.Condition) (before after : List Act)
    (hopen : ((start config host).enact before).1.isOpen = true)
    (hafter : ∀ a ∈ after, a.isOnClient = false) :
    let c := ((start config host).enact before).1
    (c.fetches.map Fetch.owner).Nodup ∧ (∀ f ∈ c.fetches, c.Wants f.owner)
      ∧ (c.letGo.1.enact after).1.Inert := by
  intro c
  have howned : c.Owned := (owned_start config host).enact before
  have haccounted : c.letGo.1.Accounted := ((accounted_start config host).enact before).run _
  refine ⟨howned.distinct, howned.wanted, ?_⟩
  obtain ⟨hstill, hclosing⟩ := howned.isStill_letGo hopen
  have hlater : (c.letGo.1.enact after).1.IsStill ∧ (c.letGo.1.enact after).1.link.IsClosing := by
    induction after using List.reverseRecOn with
    | nil => exact ⟨hstill, hclosing⟩
    | append_singleton after a ih =>
      obtain ⟨hafter, ha⟩ := List.forall_mem_append.mp hafter
      obtain ⟨hstill, hclosing⟩ := ih hafter
      rw [enact_concat]
      exact ⟨hstill.act (ha a (List.mem_singleton_self a)),
        ((haccounted.enact after).act a).closing hclosing⟩
  exact (haccounted.enact after).inert hlater.1 hlater.2

/-- A client is let go of while a watchdog has its entity fetched, a caller
loads another one, and the manager has yet to hear that a transport is there.
The manager hears of it afterwards, the fetch of the watchdog is answered, and
somebody who shares the connection sends a command. -/
def parting : List Act × List Act :=
  ([.push 5 3 (.obj []), .submit ⟨5, .ready true⟩, .enter 0, .submitted 0 (.ok ⟨none⟩),
      .tick 1000000000000, .watchdog 5, .load 7, .connect, .manageCommand,
      .line 1 (.answered none)].map .move,
    [.manageInput, .fetched 1 (.ok .notModified), .command 5 3 (.ready false)].map .move)

/-- The command comes too late. -/
theorem inert_of_letGo_parting :
    let c := ((start .default .initial).enact parting.1).1
    let d := (c.letGo.1.enact parting.2).1
    c.isOpen = true ∧ (∀ a ∈ parting.2, a.isOnClient = false)
      ∧ c.fetches.map Fetch.owner = [.watchdog 5, .call 2] ∧ c.borrowers = [2]
      ∧ d.Inert ∧ d.link.manager.machine.phase = some .handshaking
      ∧ (d.step .manageCommand).1.link.manager.stopped = true
      ∧ d.calls.get? 4 = some .command
      ∧ ∃ text, .finish 4 (.submitted (.error (.delivery text))) ∈ (d.step .manageCommand).2 := by
  have hopen : ((start .default .initial).enact parting.1).1.isOpen = true := by rfl
  have hafter : ∀ a ∈ parting.2, a.isOnClient = false := by
    simp [parting, Act.isOnClient, Move.isOnClient]
  obtain ⟨-, -, hinert⟩ := inert_of_letGo .default .initial parting.1 parting.2 hopen hafter
  refine ⟨hopen, hafter, by rfl, by rfl, hinert, by rfl, by rfl, by rfl, ?_⟩
  exact hinert.told (.move .manageCommand) (by rfl) (by decide) 4 (by rfl)

end Client

end LiveSync
