import LiveSync.Proofs.Connection.GivenUp
import LiveSync.Proofs.Link.Closing

/-!
# What the life of a connection is fed

Commands, inputs and the host reach the manager in three queues, and only a part
of what it takes up is fed to the life of the connection (`Manager.fed?`). A run
of a link is therefore a run of its machine on the inputs of those moments at which
one is fed (`Link.machine_step`).

Who reports an input is not written on it. But attempts report only what happened
to themselves, and so do the timers; so whatever is said of the host comes from
the host (`Link.OwnInputs`).
-/

namespace LiveSync.Connection

/-! ### What is said of the host -/

/-- What an input says of the host, if it says something. -/
def Input.host? : Input → Option Bool
  | .host active => some active
  | _ => none

/-- **What is said of the host** by inputs, in their order. -/
def hostReports (inputs : List Input) : List Bool := inputs.filterMap Input.host?

theorem hostReports_append (inputs inputs' : List Input) :
    hostReports (inputs ++ inputs') = hostReports inputs ++ hostReports inputs' :=
  List.filterMap_append ..

/-- The host is as it was said to be last. -/
theorem hostAfter_eq (active : Bool) (inputs : List Input) :
    hostAfter active inputs = (hostReports inputs).getLast?.getD active := by
  induction inputs using List.reverseRecOn with
  | nil => rfl
  | append_singleton inputs i ih =>
    rw [hostAfter_concat, hostReports_append, List.getLast?_append, ih]
    cases i <;> rfl

/-- The input that a message brings. -/
def ManagerMessage.input? : ManagerMessage → Option Input
  | .input i => some i
  | _ => none

/-! ### The manager -/

namespace Manager

variable {m : Manager} {env : Surroundings} {message : ManagerMessage}

/-- **The input that a message is**, to a manager that goes on. To shut down is to
disconnect first. -/
def fed? (m : Manager) (message : ManagerMessage) : Option Input :=
  if m.stopped then none
  else
    match message with
    | .command .connect => some .connect
    | .command .disconnect | .command .shutdown => some .disconnect
    | .command (.send _) | .command (.submit ..) => none
    | .input i => some i
    | .host active => some (.host active)

/-- **A message is fed to the machine**, or leaves it as it is. -/
theorem machine_handle (env : Surroundings) (m : Manager) (message : ManagerMessage) :
    (m.handle env message).1.machine = (m.machine.run (m.fed? message).toList).1 := by
  unfold fed?
  cases hs : m.stopped with
  | true =>
    rw [handle_of_stopped hs]
    rfl
  | false =>
    have hfeed (i : Input) : (m.feed env i).1.machine = (m.machine.run [i]).1 :=
      feed_machine env m i
    unfold handle
    rw [hs]
    cases message with
    | command c =>
      cases c with
      | connect => exact hfeed .connect
      | disconnect | shutdown => exact hfeed .disconnect
      | send => rfl
      | submit request id version action caller =>
        show (m.submit env request id version action caller).1.machine = m.machine
        rw [submit_fst]
    | input i => exact hfeed i
    | host active => exact hfeed (.host active)

/-- What a message says of the host, the host itself says, or an input. -/
theorem message_of_fed? {i : Input} {active : Bool} (h : m.fed? message = some i)
    (hi : i.host? = some active) : message = .host active ∨ message = .input i := by
  unfold fed? at h
  split at h
  · cases h
  · split at h <;> cases h
    · cases hi
    · cases hi
    · cases hi
    · exact .inr rfl
    · cases hi
      exact .inl rfl

/-- The host does not stop the manager. -/
theorem stopped_handle_host (env : Surroundings) (m : Manager) (active : Bool) :
    (m.handle env (.host active)).1.stopped = m.stopped := by
  unfold handle
  split
  · rfl
  · exact feed_stopped env m _

end Manager

/-! ### Attempts -/

namespace Attempt

variable {a : Attempt} {now deadline : Clock} {x : Happening} {i : Input}

theorem host?_of_report_liveStep (h : .report i ∈ (a.liveStep deadline now x).2) :
    i.host? = none := by
  cases x with
  | answered => cases h
  | outbound text failure =>
    cases failure with
    | none => cases List.mem_singleton.mp h
    | some error =>
      cases List.mem_singleton.mp h
      rfl
  | retired => cases List.mem_singleton.mp h
  | incoming message =>
    cases message with
    | heartbeat => cases h
    | text text =>
      dsimp only [liveStep, reportOf] at h
      split at h
      · cases List.mem_singleton.mp h
        rfl
      · cases h
  | transportError | hungUp =>
    cases List.mem_singleton.mp h
    rfl
  | silence =>
    dsimp only [liveStep] at h
    split at h
    · rcases List.mem_cons.mp h with heq | hmem
      · cases heq
        rfl
      · cases List.mem_singleton.mp hmem
    · cases h

/-- **An attempt says nothing of the host.** -/
theorem host?_of_report (h : .report i ∈ (a.step now x).2) : i.host? = none := by
  unfold step at h
  split at h
  · cases List.mem_singleton.mp h
    rfl
  · cases List.mem_singleton.mp h
    rfl
  · cases h
  · exact host?_of_report_liveStep h
  · cases h

end Attempt

/-! ### The link -/

namespace Link

variable {l : Link} {t : Moment} {i : Input}

/-- Whether an input is heard in a move, true or not. -/
def Move.isHear : Move → Bool
  | .hear _ => true
  | _ => false

/-- **The input that the machine is fed** in a move, if it is fed one. -/
def fedAt (l : Link) (move : Move) : Option Input :=
  (l.takes move).bind fun p => l.manager.fed? p.1

/-- **The life of the connection goes on by what it is fed.** -/
theorem machine_step (l : Link) (t : Moment) :
    (l.step t).1.manager.machine = (l.manager.machine.run (l.fedAt t.move).toList).1 := by
  unfold fedAt
  cases htakes : l.takes t.move with
  | none => rw [manager_step htakes]; rfl
  | some p => rw [manager_step_of_takes htakes, Manager.machine_handle]; rfl

theorem inputs_carryOutAll (now : Clock) (l : Link) (orders : List Order) :
    (l.carryOutAll now orders).1.inputs = l.inputs := by
  unfold carryOutAll
  induction orders using List.reverseRecOn with
  | nil => rfl
  | append_singleton orders o ih =>
    rw [List.foldl_append]
    refine Eq.trans ?_ ih
    cases o with
    | transmit | retire =>
      dsimp only [List.foldl_cons, List.foldl_nil, Step.andThen, carryOut]
      split <;> rfl
    | _ => rfl

theorem mem_inputs_report {j : Input} (h : i ∈ (l.report j).inputs) : i ∈ l.inputs ∨ i = j := by
  unfold report at h
  split at h
  · exact .inl h
  · exact (List.mem_append.mp h).imp_right List.mem_singleton.mp

theorem mem_inputs_doDeeds {epoch : Epoch} {deeds : List Attempt.Deed}
    (h : i ∈ (deeds.foldl (fun s d => Step.andThen s (doDeed epoch · d)) (l, [])).1.inputs) :
    i ∈ l.inputs ∨ .report i ∈ deeds := by
  induction deeds using List.reverseRecOn with
  | nil => exact .inl h
  | append_singleton deeds d ih =>
    rw [List.foldl_append] at h
    have hearlier : i ∈ l.inputs ∨ .report i ∈ deeds → i ∈ l.inputs ∨ .report i ∈ deeds ++ [d] :=
      Or.imp_right (List.mem_append_left _)
    cases d with
    | report j =>
      rcases mem_inputs_report h with h | rfl
      · exact hearlier (ih h)
      · exact .inr (List.mem_append_right _ (List.mem_singleton_self _))
    | send | close => exact hearlier (ih h)

/-- What the manager takes up leaves the other inputs where they are. -/
theorem takes_inputs {move : Move} {message : ManagerMessage} {rest : Link}
    (h : l.takes move = some (message, rest)) :
    l.inputs = message.input?.toList ++ rest.inputs := by
  cases move with
  | takeCommand =>
    simp only [takes] at h
    split at h <;> cases h
    rfl
  | takeInput =>
    simp only [takes] at h
    split at h <;> cases h
    assumption
  | takeHost =>
    cases h
    rfl
  | _ => cases h

/-- **Where the inputs come from** that wait for the manager: they were there
before, or somebody reports them just now, an attempt or a timer among others. -/
theorem mem_inputs_step (h : i ∈ (l.step t).1.inputs) :
    i ∈ l.inputs ∨ t.move = .hear i ∨ i.host? = none := by
  cases htakes : l.takes t.move with
  | some p =>
    left
    rw [step_of_takes htakes] at h
    unfold tell at h
    dsimp only at h
    split at h
    · cases h
    · rw [inputs_carryOutAll] at h
      exact takes_inputs htakes ▸ List.mem_append_right _ h
  | none =>
    obtain ⟨now, topics, waiting, move⟩ := t
    cases move with
    | ask c =>
      simp only [step, enqueue] at h
      split at h <;> exact .inl h
    | hear j =>
      rcases mem_inputs_report h with h | rfl
      · exact .inl h
      · exact .inr (.inl rfl)
    | takeCommand | takeInput =>
      simp only [takes] at htakes
      split at htakes
      · cases htakes
      · rename_i hnil
        simp only [step, takeCommand, takeInput, hnil] at h ⊢
        exact .inl h
    | takeHost => cases htakes
    | line epoch lineMove =>
      rcases moveLine_cases now l epoch lineMove with ⟨line, line', x, -, -, heq⟩ | heq
      · simp only [step, heq] at h
        rcases mem_inputs_doDeeds h with h | h
        · exact .inl h
        · exact .inr (.inr (Attempt.host?_of_report h))
      · simp only [step, heq] at h
        exact .inl h
    | handshakeTimer =>
      simp only [step, fireHandshake] at h
      repeat' split at h
      · rcases mem_inputs_report h with h | rfl
        · exact .inl h
        · exact .inr (.inr rfl)
      · exact .inl h
      · exact .inl h
    | retryTimer =>
      simp only [step, fireRetry] at h
      repeat' split at h
      · rcases mem_inputs_report h with h | rfl
        · exact .inl h
        · exact .inr (.inr rfl)
      · exact .inl h
      · exact .inl h

/-- **What waits for the manager says nothing of the host.** -/
def OwnInputs (l : Link) : Prop := ∀ i ∈ l.inputs, i.host? = none

theorem OwnInputs.step (h : l.OwnInputs) (hhear : t.move.isHear = false) :
    (l.step t).1.OwnInputs := by
  intro i hi
  rcases mem_inputs_step hi with hi | hi | hi
  · exact h i hi
  · rw [hi] at hhear
    cases hhear
  · exact hi

/-- **Whatever is said of the host comes from the host.** -/
theorem OwnInputs.host?_fedAt (h : l.OwnInputs) {move : Move}
    (hmove : ∀ active, move ≠ .takeHost active) (hi : l.fedAt move = some i) :
    i.host? = none := by
  obtain ⟨⟨message, rest⟩, htakes, hinput⟩ := Option.bind_eq_some_iff.mp hi
  refine Option.eq_none_iff_forall_ne_some.mpr fun active hactive => ?_
  rcases Manager.message_of_fed? hinput hactive with rfl | rfl
  · -- nothing else takes the host up
    cases move with
    | takeHost active => exact hmove active rfl
    | takeCommand | takeInput =>
      simp only [takes] at htakes
      split at htakes <;> cases htakes
    | _ => cases htakes
  · cases (h i (takes_inputs htakes ▸ List.mem_cons_self)).symm.trans hactive

end Link

end LiveSync.Connection
