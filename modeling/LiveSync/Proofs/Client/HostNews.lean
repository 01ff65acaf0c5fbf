import LiveSync.Proofs.Broadcast.Unread
import LiveSync.Proofs.Client.Moments

/-!
# The manager hears the host

A program may report a burst of signals between two steps of the manager – a
window is hidden, frozen, loses the network and comes back within a moment – and
the manager keeps up with the last 64 announcements only. What it must not miss
is how the burst ends: a host that is taken for inactive never gets its connection
back, and one that is taken for active is connected while it is frozen.

No announcement tells which of the three flags has changed and what the others
are. It tells the activity that all of them amount to, so the last one is enough;
and the last one is always kept (`Channel.Listens.unread_ne_nil_of_lagged`). The
invariant is that the manager has heard everything up to what it has not read yet,
apart from what was lost, and that whenever it has read everything, what it heard
last is what was announced last (`Client.Hears`).
-/

namespace LiveSync

open LiveSync.Connection

namespace Host.Condition

/-- **What is announced** while the host reports signals: after each of them, whether
it is active. -/
def announced (c : Condition) : List Signal → List Bool
  | [] => []
  | s :: later => (c.after s).isActive :: (c.after s).announced later

theorem announced_concat (c : Condition) (signals : List Signal) (s : Signal) :
    c.announced (signals ++ [s])
      = c.announced signals ++ [((signals.foldl after c).after s).isActive] := by
  induction signals generalizing c with
  | nil => rfl
  | cons s' signals ih => rw [List.cons_append, announced, ih]; rfl

/-- **What was announced last is how the host is.** -/
theorem getLast?_announced (c : Condition) (signals : List Signal) :
    (c.announced signals).getLast?.getD c.isActive = (signals.foldl after c).isActive := by
  induction signals using List.reverseRecOn with
  | nil => rfl
  | append_singleton signals s _ =>
    rw [announced_concat, List.getLast?_concat, List.foldl_concat]
    rfl

end Host.Condition

/-- What the host reports in a move. -/
def Move.signal? : Move → Option Host.Signal
  | .host signal => some signal
  | _ => none

/-- **What the host reports** in a run, in order. -/
def hostSignals (moves : List Move) : List Host.Signal := moves.filterMap Move.signal?

theorem hostSignals_concat (moves : List Move) (m : Move) :
    hostSignals (moves ++ [m]) = hostSignals moves ++ m.signal?.toList := by
  rw [hostSignals, List.filterMap_append]
  rcases m.signal?.eq_none_or_eq_some with h | ⟨s, h⟩ <;> simp [hostSignals, h]

namespace Client

variable {c c' : Client} {m : Move} {host : Host.Condition} {signals : List Host.Signal}
  {heard : List Bool}

/-! ### What a move says of the host -/

/-- Apart from the host itself nobody says anything of it. -/
theorem hostReports_fedAt (h : c.link.OwnInputs) (hm : m ≠ .manageHost) :
    hostReports (c.fedAt m).toList = [] := by
  have hnone {move : Link.Move} (hmove : ∀ active, move ≠ .takeHost active) :
      hostReports (c.link.fedAt move).toList = [] := by
    cases hfed : c.link.fedAt move with
    | none => rfl
    | some i => exact List.filterMap_cons_none (h.host?_fedAt hmove hfed)
  unfold fedAt
  split
  · exact hnone nofun
  · exact hnone nofun
  · exact absurd rfl hm
  · rfl

theorem hostReports_manageHost (hs : c.link.manager.stopped = false) :
    hostReports (c.fedAt .manageHost).toList
      = match c.host.channel.peek 0 with
        | .item a => [a.active]
        | .lagged _ | .empty => [] := by
  unfold fedAt
  cases c.host.channel.peek 0 with
  | item a =>
    show hostReports (c.link.manager.fed? (.host a.active)).toList = [a.active]
    unfold Manager.fed?
    rw [hs]
    rfl
  | lagged | empty => rfl

/-! ### What the manager has heard -/

/-- What was announced and the manager has not read yet. -/
def unheard (c : Client) : List Bool := (c.host.channel.unread 0).map (·.active)

/-- **The manager hears the host**: in order, and what is announced last as soon as
it has read everything. -/
structure Hears (host : Host.Condition) (signals : List Host.Signal) (heard : List Bool)
    (c : Client) : Prop where
  condition : c.host.condition = signals.foldl .after host
  listens : c.host.channel.Listens 0
  capacity : c.host.channel.capacity = Host.capacity
  /-- The manager has heard some of what it has read. -/
  order : ∃ read, host.announced signals = read ++ c.unheard ∧ heard.Sublist read
  newest : c.unheard = [] → heard.getLast? = (host.announced signals).getLast?

theorem hears_start (config : Config) (host : Host.Condition) :
    (start config host).Hears host [] [] where
  condition := rfl
  listens := (Channel.listens_subscribe _).1
  capacity := by rfl
  order := ⟨[], rfl, .refl _⟩
  newest _ := rfl

theorem Hears.sublist (h : c.Hears host signals heard) :
    heard.Sublist (host.announced signals) := by
  obtain ⟨read, hread, hsub⟩ := h.order
  rw [hread]
  exact hsub.trans (List.sublist_append_left ..)

/-- Most moves have nothing to do with the host. -/
theorem Hears.of_eq (h : c.Hears host signals heard) (heq : c'.host = c.host) :
    c'.Hears host signals heard := by
  have hunheard : c'.unheard = c.unheard := by rw [unheard, heq, unheard]
  exact ⟨heq ▸ h.condition, heq ▸ h.listens, heq ▸ h.capacity, hunheard ▸ h.order,
    hunheard ▸ h.newest⟩

/-- **The host reports something.** Now the manager has something to read. -/
theorem Hears.emit (h : c.Hears host signals heard) {s : Host.Signal}
    (heq : c'.host = c.host.emit s) : c'.Hears host (signals ++ [s]) heard := by
  have hunheard : c'.unheard = c.unheard ++ [((signals.foldl .after host).after s).isActive] := by
    rw [unheard, heq, Host.emit, h.listens.unread_publish, List.map_append, ← h.condition]
    rfl
  refine ⟨?_, ?_, ?_, ?_, fun hnil => ?_⟩
  · rw [heq, Host.emit, h.condition, List.foldl_concat]
  · rw [heq]
    exact h.listens.publish _
  · rw [heq]
    exact (Channel.capacity_publish _ _).trans h.capacity
  · obtain ⟨read, hread, hsub⟩ := h.order
    refine ⟨read, ?_, hsub⟩
    rw [Host.Condition.announced_concat, hread, hunheard, List.append_assoc]
  · rw [hunheard] at hnil
    exact absurd hnil (List.append_ne_nil_of_right_ne_nil _ (List.cons_ne_nil _ _))

/-- **The manager reads.** What it hears comes behind what it has heard, and when it
was the last thing to hear, it is the last thing that was announced. -/
theorem Hears.read (h : c.Hears host signals heard) (hs : c.link.manager.stopped = false)
    (heq : c'.host = { c.host with channel := c.host.channel.advance 0 }) :
    c'.Hears host signals (heard ++ hostReports (c.fedAt .manageHost).toList) := by
  obtain ⟨hlistens, hcases⟩ := h.listens.receive_cases
  obtain ⟨read, hread, hsub⟩ := h.order
  have hunheard : c'.unheard = ((c.host.channel.advance 0).unread 0).map (·.active) := by
    rw [unheard, heq]
  have hnext (order newest) : c'.Hears host signals
      (heard ++ hostReports (c.fedAt .manageHost).toList) :=
    ⟨heq ▸ h.condition, heq ▸ hlistens,
      heq ▸ (Channel.capacity_advance _ _).trans h.capacity, order, newest⟩
  rw [hostReports_manageHost hs] at hnext ⊢
  rcases hcases with ⟨hpeek, hnil, hnil'⟩ | ⟨a, hpeek, hunread⟩ | ⟨lost, hpeek, hunread⟩
  · simp only [hpeek, List.append_nil] at hnext ⊢
    have hsame : c'.unheard = c.unheard := by rw [hunheard, hnil', unheard, hnil]
    exact hnext (hsame ▸ ⟨read, hread, hsub⟩) (hsame ▸ h.newest)
  · simp only [hpeek] at hnext ⊢
    have hfirst : c.unheard = a.active :: c'.unheard := by
      rw [unheard, hunread, List.map_cons, hunheard]
    refine hnext ⟨read ++ [a.active], ?_, hsub.append (.refl _)⟩ fun hnil => ?_
    · rw [hread, hfirst, List.append_assoc]
      rfl
    · rw [hread, hfirst, hnil, List.getLast?_concat, List.getLast?_concat]
  · simp only [hpeek, List.append_nil] at hnext ⊢
    -- what is lost counts as read
    refine hnext ⟨read ++ c.unheard.take lost, ?_, hsub.trans (List.sublist_append_left ..)⟩
      fun hnil => ?_
    · rw [hread, hunheard, hunread, unheard, List.map_drop, List.append_assoc,
        List.take_append_drop]
    · have hkept := h.listens.unread_ne_nil_of_lagged (h.capacity ▸ by decide) hpeek
      exact absurd (List.map_eq_nil_iff.mp (hunheard ▸ hnil)) hkept

/-- **A move keeps the manager informed.** -/
theorem Hears.step (h : c.Hears host signals heard) (hown : c.link.OwnInputs) (m : Move) :
    (c.step m).1.Hears host (signals ++ m.signal?.toList)
      (heard ++ hostReports (c.fedAt m).toList) := by
  have hhost := c.host_step m
  by_cases hm : m = .manageHost
  · subst hm
    have hsilent : signals ++ Move.manageHost.signal?.toList = signals := List.append_nil signals
    rw [hsilent]
    cases hs : c.link.manager.stopped with
    | true =>
      simp only [nextHost, hs, if_true] at hhost
      rw [fedAt_of_stopped hs]
      exact (List.append_nil heard).symm ▸ h.of_eq hhost
    | false =>
      simp only [nextHost, hs, Bool.false_eq_true, if_false] at hhost
      exact h.read hs hhost
  · rw [hostReports_fedAt hown hm, List.append_nil]
    cases m with
    | manageHost => exact absurd rfl hm
    | host s => exact h.emit hhost
    | _ => exact (List.append_nil signals).symm ▸ h.of_eq hhost

/-- **At any time of any run**, what waits for the manager comes from attempts and
timers, and the manager hears the host. -/
theorem hears_run (config : Config) (host : Host.Condition) (moves : List Move) :
    ((start config host).run moves).1.link.OwnInputs
      ∧ ((start config host).run moves).1.Hears host (hostSignals moves)
        (hostReports ((start config host).fed moves)) := by
  induction moves using List.reverseRecOn with
  | nil => exact ⟨nofun, hears_start config host⟩
  | append_singleton moves m ih =>
    obtain ⟨hown, hhears⟩ := ih
    rw [run_concat, hostSignals_concat, fed_append, hostReports_append]
    refine ⟨ownInputs_step hown m, ?_⟩
    rw [fed, fed, List.append_nil]
    exact hhears.step hown m

/-! ### Reading everything -/

theorem stopped_manageHost (c : Client) :
    (c.step .manageHost).1.link.manager.stopped = c.link.manager.stopped := by
  simp only [step, manageHost]
  split
  · rfl
  · split
    · rw [link_onLink, Link.takeHost, (Link.told_tell ..).manager]
      exact Manager.stopped_handle_host _ _ _
    · rfl
    · rfl

/-- **The manager reads everything there is**, and hears the newest announcements, as
many as are kept. -/
theorem read_all (hlistens : c.host.channel.Listens 0) (hs : c.link.manager.stopped = false) :
    let reads := List.replicate (c.host.channel.waiting 0) Move.manageHost
    (c.run reads).1.host.channel.peek 0 = .empty
      ∧ hostReports (c.fed reads) = (c.host.channel.kept 0).map (·.active) := by
  generalize hn : c.host.channel.waiting 0 = n
  induction n generalizing c with
  | zero =>
    rcases hlistens.waiting_cases with ⟨-, hpeek, hkept⟩ | ⟨hwaiting, -⟩
    · rw [hkept]
      exact ⟨hpeek, rfl⟩
    · cases hn.symm.trans hwaiting
  | succ n ih =>
    have hhost : (c.step .manageHost).1.host
        = { c.host with channel := c.host.channel.advance 0 } := by
      rw [host_step, nextHost, hs]
      rfl
    rcases hlistens.waiting_cases with ⟨hzero, -⟩ | ⟨hwaiting, hcases⟩
    · cases hn.symm.trans hzero
    obtain ⟨hpeek, hheard⟩ := ih (c := (c.step .manageHost).1)
      (hhost ▸ hlistens.receive_cases.1) ((stopped_manageHost c).trans hs)
      (hhost ▸ Nat.succ.inj (hwaiting.symm.trans hn))
    rw [List.replicate_succ]
    refine ⟨(run_cons ..) ▸ hpeek, ?_⟩
    rw [fed, hostReports_append, hheard, hhost, hostReports_manageHost hs]
    rcases hcases with ⟨a, hitem, hkept⟩ | ⟨lost, hlagged, hkept⟩
    · rw [hitem, hkept]
      rfl
    · rw [hlagged, hkept]
      rfl

theorem condition_run_reads (c : Client) (n : Nat) :
    (c.run (List.replicate n .manageHost)).1.host.condition = c.host.condition := by
  induction n generalizing c with
  | zero => rfl
  | succ n ih =>
    rw [List.replicate_succ, run_cons, ih, host_step, nextHost]
    split <;> rfl

/-! ### How a burst ends -/

/-- The life of the connection goes by what was heard last. -/
theorem hostActive_run (config : Config) (host : Host.Condition) (moves : List Move) :
    ((start config host).run moves).1.link.manager.machine.hostActive
      = (hostReports ((start config host).fed moves)).getLast?.getD host.isActive := by
  have hsound : (Machine.ofConfig config host.isActive).Sound := Machine.sound_initial ..
  rw [machine_run, ← hostAfter_eq]
  exact hsound.hostActive_run _

/-- **Whoever has read everything knows how the host is.** -/
theorem hostActive_of_empty {config : Config} {moves : List Move}
    (hempty : ((start config host).run moves).1.host.channel.peek 0 = .empty) :
    (hostReports ((start config host).fed moves)).getLast?
        = (host.announced (hostSignals moves)).getLast?
      ∧ ((start config host).run moves).1.link.manager.machine.hostActive
        = ((start config host).run moves).1.host.isActive := by
  obtain ⟨-, hhears⟩ := hears_run config host moves
  have hnil : ((start config host).run moves).1.unheard = [] := by
    rcases hhears.listens.receive_cases.2 with ⟨-, hnil, -⟩ | ⟨a, hpeek, -⟩ | ⟨lost, hpeek, -⟩
    · exact List.map_eq_nil_iff.mpr hnil
    · cases hpeek.symm.trans hempty
    · cases hpeek.symm.trans hempty
  have hlast := hhears.newest hnil
  refine ⟨hlast, ?_⟩
  rw [hostActive_run, hlast, Host.Condition.getLast?_announced, ← hhears.condition]
  rfl

/-- **The manager ends up with the real activity of the host**, however far it is
behind. In any run, the life of the connection goes through what the manager feeds
it, and what this says of the host is some of what the host announced, in order.
Whenever the manager has read everything, the last of it was the last announcement,
and the host is taken for what it is. And a manager that goes on needs no more than
to read: it then hears the newest announcements, as many as are kept, and is up to
date. -/
theorem manager_hears_host (config : Config) (host : Host.Condition) (moves : List Move) :
    let c := ((start config host).run moves).1
    let inputs := (start config host).fed moves
    let emitted := host.announced (hostSignals moves)
    c.link.manager.machine = ((Machine.ofConfig config host.isActive).run inputs).1
      ∧ (hostReports inputs).Sublist emitted
      ∧ (c.host.channel.peek 0 = .empty →
          (hostReports inputs).getLast? = emitted.getLast?
            ∧ c.link.manager.machine.hostActive = c.host.isActive)
      ∧ (c.link.manager.stopped = false →
          let reads := List.replicate (c.host.channel.waiting 0) Move.manageHost
          let d := (c.run reads).1
          d.host.channel.peek 0 = .empty ∧ d.host.condition = c.host.condition
            ∧ hostReports (c.fed reads) = c.unheard.rtake Host.capacity
            ∧ d.link.manager.machine.hostActive = c.host.isActive) := by
  intro c inputs emitted
  obtain ⟨-, hhears⟩ := hears_run config host moves
  refine ⟨machine_run .., hhears.sublist, hostActive_of_empty, fun hs => ?_⟩
  intro reads d
  obtain ⟨hempty, hheard⟩ := read_all hhears.listens hs
  have hcondition : d.host.condition = c.host.condition := condition_run_reads c _
  refine ⟨hempty, hcondition, ?_, ?_⟩
  · rw [hheard, Channel.kept, hhears.capacity, List.rtake, List.rtake, unheard, List.map_drop,
      List.length_map]
  · have hd : ((start config host).run (moves ++ reads)).1 = d := run_append ..
    have hactive : d.link.manager.machine.hostActive = d.host.isActive :=
      hd ▸ (hostActive_of_empty (hd ▸ hempty)).2
    exact hactive.trans (congrArg Host.Condition.isActive hcondition)

/-- A frozen host, on which a user wants to be connected, loses and gains the network
forty times and is resumed, while the manager does nothing. -/
def burst : List Move :=
  [.connect, .manageCommand] ++ (List.replicate 40 [.host .offline, .host .online]).flatten
    ++ [.host .resumed]

/-- Of 81 announcements the manager hears 64, and the last one lets the connection
start. -/
theorem manager_hears_host_burst :
    let c := ((start .default ⟨true, true, true⟩).run burst).1
    let d := (c.run (List.replicate 65 .manageHost)).1
    c.link.manager.machine.hostActive = false ∧ c.host.isActive = true
      ∧ c.unheard.length = 81 ∧ c.host.channel.peek 0 = .lagged 17
      ∧ d.host.channel.peek 0 = .empty ∧ d.link.manager.machine.hostActive = true
      ∧ d.link.manager.machine.phase = some .opening := by
  have hs : ((start .default ⟨true, true, true⟩).run burst).1.link.manager.stopped = false := by
    decide +kernel
  obtain ⟨hempty, -, -, hactive⟩ :=
    (manager_hears_host .default ⟨true, true, true⟩ burst).2.2.2 hs
  have hwaiting :
      ((start .default ⟨true, true, true⟩).run burst).1.host.channel.waiting 0 = 65 := by
    decide +kernel
  rw [hwaiting] at hempty hactive
  have hreal : ((start .default ⟨true, true, true⟩).run burst).1.host.isActive = true := by
    decide +kernel
  exact ⟨by decide +kernel, hreal, by decide +kernel, by decide +kernel, hempty,
    hactive.trans hreal, by decide +kernel⟩

end Client

end LiveSync
