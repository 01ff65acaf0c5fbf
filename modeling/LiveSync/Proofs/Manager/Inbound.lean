import LiveSync.Proofs.Manager.Resources

/-!
# Frames on their way in

What the server says arrives as frames, one after another, and each of them is
meant for somebody: the answer to a command for the caller who submitted it,
everything else for the rest of the client. Where a frame goes is decided in
two places. The life of the connection says whether it is heard at all, and
the manager looks for a command that it answers, on a table that every command
and every lost connection changes.

Between the two no frame gets lost, is handed on twice, or overtakes another
one. A run has its **arrivals** (`Manager.arrivals`), which are the frames that
are heard, each with the manager that it comes to. What a run hands on is, one
after another, what each arrival makes the manager hand on, and this is a
short list (`Manager.Handled`).
-/

namespace LiveSync.Connection

open LiveSync.Wire

/-- Whether a frame answers `hello`. -/
def isHelloAck : ServerFrame → Bool
  | .helloAck _ _ => true
  | _ => false

/-- Whether an order hands on what the server said: a frame, or the answer to
a command. That a command could not be delivered the server has not said. -/
def Order.isInbound : Order → Bool
  | .report (.frame _) => true
  | .reply _ (.error (.delivery _)) => false
  | .reply _ _ => true
  | _ => false

/-- **What is handed on** by orders. -/
def inbound (orders : List Order) : List Order := orders.filter Order.isInbound

theorem inbound_append (orders orders' : List Order) :
    inbound (orders ++ orders') = inbound orders ++ inbound orders' :=
  List.filter_append ..

namespace Manager

variable {m : Manager} {env : Surroundings} {epoch : Epoch} {frame : ServerFrame}
  {message : ManagerMessage} {x : Effect} {effects : List Effect}

/-! ### What is heard -/

/-- **Whether an attempt is heard**: it is the one that the manager holds, and
it has been opened. -/
def hears (m : Manager) (epoch : Epoch) : Bool :=
  m.attempt = some epoch ∧ m.machine.phase ≠ some .opening

/-- **An arrival**: a frame of an attempt, and the manager that takes it up. -/
structure Arrival where
  manager : Manager
  env : Surroundings
  epoch : Epoch
  frame : ServerFrame

/-- What the manager does. -/
def Arrival.step (a : Arrival) : Step := a.manager.handle a.env (.input (.frame a.epoch a.frame))

/-- The arrival that a message is, if it is one: a frame that is heard and is
not the answer to `hello`. -/
def arrival? (m : Manager) (env : Surroundings) : ManagerMessage → Option Arrival
  | .input (.frame epoch frame) =>
    if m.hears epoch ∧ isHelloAck frame = false then some ⟨m, env, epoch, frame⟩ else none
  | _ => none

/-- **The arrivals of a run**, in their order. -/
def arrivals (m : Manager) : List Moment → List Arrival
  | [] => []
  | t :: later =>
    (m.arrival? t.env t.message).toList ++ (m.handle t.env t.message).1.arrivals later

/-- **What becomes of a frame**, and what the manager does about it. -/
inductive Handled (m : Manager) (frame : ServerFrame) : Step → Prop
  /-- It is the answer to one pending command, whose caller is told. -/
  | consumed {request : RequestId} {p : PendingCommand}
    {result : Except Failure.Command Receipt} (hp : m.pending.get? request = some p)
    (ha : Answers request frame result) :
    Handled m frame ({ m with pending := m.pending.erase request }, [.reply p.caller result])
  /-- It answers no pending command, and is handed on to the rest of the
  client. -/
  | forwarded
    (hp : ∀ request p result, m.pending.get? request = some p → ¬ Answers request frame result)
    (hf : ∀ request version, frame ≠ .commandAck request version) :
    Handled m frame (m, [.report (.frame frame)])
  /-- It acknowledges a command that is not pending. -/
  | dropped {request : RequestId} {version : Option Version}
    (hf : frame = .commandAck request version) (hp : m.pending.get? request = none) :
    Handled m frame (m, [])

/-! ### One frame -/

theorem handled_deliver (m : Manager) (frame : ServerFrame) :
    Handled m frame (m.deliver frame) := by
  unfold deliver
  split
  · split
    · rename_i hp
      exact .consumed hp .acknowledged
    · rename_i hp
      exact .dropped rfl hp
  · rename_i code text request
    split
    · rename_i hp
      exact .consumed hp .refused
    · rename_i hp
      refine .forwarded ?_ nofun
      rintro request p result hsome ⟨⟩
      exact absurd (hp.symm.trans hsome) nofun
  · rename_i hack herror
    refine .forwarded ?_ fun request version => hack request version
    rintro request p result - (_ | _)
    · exact hack _ _ rfl
    · exact herror _ _ _ rfl

/-- What the server says of a command is not that it could not be
delivered. -/
theorem Answers.isInbound {request : RequestId} {result : Except Failure.Command Receipt}
    (h : Answers request frame result) (caller : CallId) :
    (Order.reply caller result).isInbound = true := by
  cases h with
  | acknowledged => rfl
  | refused =>
    unfold commandFailure
    split <;> rfl

theorem Handled.inbound_eq {s : Step} (h : Handled m frame s) : inbound s.2 = s.2 := by
  refine List.filter_eq_self.mpr fun o ho => ?_
  cases h with
  | consumed hp ha =>
    rw [List.mem_singleton.mp ho]
    exact ha.isInbound _
  | forwarded =>
    rw [List.mem_singleton.mp ho]
    rfl
  | dropped => cases ho

/-- The attempt that is heard is the one under way, once it is open. -/
theorem Sound.hears_iff (h : m.Sound) :
    m.hears epoch = true ↔ m.machine.isAt epoch [.handshaking, .established] = true := by
  rw [hears, decide_eq_true_iff, h.attends.attempt, m.machine.course_carrier, Machine.isAt_iff]
  cases m.machine.phase with
  | none => simp
  | some phase => cases phase <;> simp [eq_comm]

/-- A manager that has stopped hears nothing. -/
theorem Sound.stopped_of_hears (h : m.Sound) (hh : m.hears epoch = true) : m.stopped = false := by
  refine Bool.eq_false_iff.mpr fun hs => ?_
  exact Machine.phase_ne_none_of_isAt (h.hears_iff.mp hh) (h.stopped hs)

/-- **A frame that is heard is handed on.** -/
theorem Sound.handle_frame (h : m.Sound) (hh : m.hears epoch = true)
    (hf : isHelloAck frame = false) (env : Surroundings) :
    m.handle env (.input (.frame epoch frame)) = m.deliver frame := by
  have hmachine : m.machine.onFrame epoch frame = (m.machine, [.deliver frame]) := by
    unfold Machine.onFrame
    rw [if_pos (h.hears_iff.mp hh)]
    cases frame <;> first | rfl | cases hf
  rw [Manager.handle, h.stopped_of_hears hh]
  show m.feed env (.frame epoch frame) = _
  rw [Manager.feed, Machine.handle, hmachine]
  rfl

/-- **A frame that is not heard changes nothing.** -/
theorem Sound.handle_frame_of_not_hears (h : m.Sound) (hh : m.hears epoch = false)
    (env : Surroundings) (frame : ServerFrame) :
    m.handle env (.input (.frame epoch frame)) = (m, []) := by
  have hat : ¬ m.machine.isAt epoch [.handshaking, .established] = true := by
    rw [← h.hears_iff, hh]
    nofun
  have hmachine : m.machine.onFrame epoch frame = (m.machine, []) := by
    unfold Machine.onFrame
    exact if_neg hat
  unfold Manager.handle
  split
  · rfl
  · show m.feed env (.frame epoch frame) = _
    rw [Manager.feed, Machine.handle, hmachine]
    rfl

/-! ### Other messages -/

theorem inbound_transmit (env : Surroundings) (m : Manager) (frame : ClientFrame) :
    inbound (m.transmit env frame) = [] := by
  unfold transmit
  split
  · split <;> rfl
  · rfl

theorem inbound_replay (env : Surroundings) (m : Manager) (topics : List Topic) :
    inbound (topics.flatMap fun topic => m.transmit env (.subscribe topic)) = [] := by
  induction topics with
  | nil => rfl
  | cons topic topics ih =>
    rw [List.flatMap_cons, inbound_append, inbound_transmit, ih]
    rfl

theorem inbound_retire (m : Manager) (epoch : Epoch) : inbound (m.retire epoch).2 = [] := by
  unfold retire
  split <;> rfl

/-- The loss of a connection is nothing that the server has said. -/
theorem inbound_failPending (m : Manager) (epoch : Epoch) :
    inbound (m.failPending epoch).2 = [] := by
  refine List.filter_eq_nil_iff.mpr fun o ho => ?_
  obtain ⟨p, -, rfl⟩ := List.mem_map.mp ho
  nofun

/-- **Only the effect that hands a frame on makes the manager do so.** -/
theorem inbound_execute (env : Surroundings) (m : Manager) (hx : ∀ frame, x ≠ .deliver frame) :
    inbound (m.execute env x).2 = [] := by
  cases x with
  | «open» epoch =>
    rw [execute]
    cases m.attempt <;> rfl
  | send epoch frame =>
    dsimp only [execute]
    split
    · exact inbound_transmit env m frame
    · rfl
  | close epoch => exact inbound_retire m epoch
  | established epoch user =>
    rw [execute, inbound_append, inbound_replay]
    rfl
  | deliver frame => exact absurd rfl (hx frame)
  | attemptEnded epoch =>
    rw [execute, Step.andThen, inbound_append, inbound_retire, inbound_failPending]
    rfl
  | startHandshakeTimer | cancelHandshakeTimer | scheduleRetry | cancelRetry | statusChanged
  | failed => rfl

theorem inbound_executeAll (env : Surroundings) (m : Manager)
    (hx : ∀ frame, .deliver frame ∉ effects) : inbound (m.executeAll env effects).2 = [] := by
  refine executeAll_induction (P := fun s => inbound s.2 = []) rfl fun s x hmem ih => ?_
  have hnone : inbound (s.1.execute env x).2 = [] :=
    inbound_execute env s.1 fun frame hd => hx frame (hd ▸ hmem)
  rw [Step.andThen, inbound_append, ih, hnone]
  rfl

/-- A frame that the machine hands on is heard, and does not answer `hello`. -/
theorem Sound.hears_of_deliver (h : m.Sound) {i : Input}
    (hmem : .deliver frame ∈ (m.machine.handle i).2) :
    ∃ epoch, i = .frame epoch frame ∧ m.hears epoch = true ∧ isHelloAck frame = false := by
  obtain rfl := Machine.eq_frame_of_deliver_mem hmem
  refine ⟨_, rfl, ?_⟩
  have houtcome := h.machine.outcome (.frame m.machine.epoch frame)
  generalize m.machine.handle (.frame m.machine.epoch frame) = s at hmem houtcome
  cases houtcome with
  | nothing => cases hmem
  | established => exact absurd (Machine.quiet_onHelloAck _ _ _ hmem) nofun
  | delivered hp hf =>
    refine ⟨h.hears_iff.mpr (Machine.isAt_iff.mpr ⟨rfl, ?_⟩), ?_⟩
    · rcases hp with hp | hp
      · exact ⟨_, List.mem_cons_self .., hp⟩
      · exact ⟨_, List.mem_cons_of_mem _ (List.mem_cons_self ..), hp⟩
    · cases frame with
      | helloAck protocol user => exact absurd rfl (hf protocol user)
      | _ => rfl
  | retrying hi => cases hi
  | exhausted hi => cases hi

theorem Sound.inbound_feed (h : m.Sound) (env : Surroundings) {i : Input}
    (hi : ∀ epoch frame, i = .frame epoch frame → m.hears epoch = true → isHelloAck frame = true) :
    inbound (m.feed env i).2 = [] := by
  refine inbound_executeAll env { m with machine := (m.machine.handle i).1 } fun frame hmem => ?_
  obtain ⟨epoch, heq, hh, hf⟩ := h.hears_of_deliver hmem
  exact Bool.false_ne_true (hf.symm.trans (hi epoch frame heq hh))

/-- **Nothing is handed on without an arrival.** -/
theorem Sound.inbound_handle (h : m.Sound) (hm : m.arrival? env message = none) :
    inbound (m.handle env message).2 = [] := by
  unfold Manager.handle
  split
  · rfl
  · cases message with
    | command c =>
      cases c with
      | connect => exact h.inbound_feed env nofun
      | disconnect => exact h.inbound_feed env nofun
      | send frame =>
        dsimp only [obey]
        split
        · exact inbound_transmit env m frame
        · rfl
      | submit request id version action caller =>
        dsimp only [obey]
        rcases h.submit_cases env request id version action caller with ⟨-, -, heq⟩ | heq
        · rw [heq]
          rfl
        · rw [heq]
          rfl
      | shutdown =>
        show inbound ((m.feed env .disconnect).2 ++ []) = []
        rw [List.append_nil]
        exact h.inbound_feed env nofun
    | input i =>
      refine h.inbound_feed env fun epoch frame heq hh => ?_
      rw [heq, arrival?] at hm
      by_contra hf
      rw [if_pos ⟨hh, Bool.eq_false_iff.mpr hf⟩] at hm
      cases hm
    | host active => exact h.inbound_feed env nofun

/-! ### Runs -/

/-- An arrival is a frame that is heard. -/
theorem of_arrival? {a : Arrival} (h : m.arrival? env message = some a) :
    a.manager = m ∧ a.env = env ∧ message = .input (.frame a.epoch a.frame)
      ∧ m.hears a.epoch = true ∧ isHelloAck a.frame = false := by
  unfold arrival? at h
  split at h
  · split at h
    · rename_i hheard
      cases h
      exact ⟨rfl, rfl, rfl, hheard⟩
    · cases h
  · cases h

/-- **A run hands on what its arrivals hand on**, and each of these is dealt
with. -/
theorem Sound.inbound_run (h : m.Sound) (moments : List Moment) :
    inbound (m.run moments).2 = (m.arrivals moments).flatMap (fun a => a.step.2)
      ∧ ∀ a ∈ m.arrivals moments, Handled a.manager a.frame a.step := by
  induction moments generalizing m with
  | nil => exact ⟨rfl, fun a ha => absurd ha List.not_mem_nil⟩
  | cons t later ih =>
    obtain ⟨hinbound, hhandled⟩ := ih (h.handle t.env t.message)
    rw [run_cons, Step.andThen, inbound_append, hinbound, arrivals, List.flatMap_append]
    cases ha : m.arrival? t.env t.message with
    | none =>
      rw [h.inbound_handle ha]
      exact ⟨rfl, hhandled⟩
    | some a =>
      obtain ⟨hmanager, henv, hmessage, hh, hf⟩ := of_arrival? ha
      have hstep : a.step = m.handle t.env t.message := by
        rw [Arrival.step, hmanager, henv, hmessage]
      have hdeal : Handled a.manager a.frame a.step := by
        rw [hstep, hmanager, hmessage, h.handle_frame hh hf]
        exact handled_deliver m a.frame
      refine ⟨?_, List.forall_mem_cons.mpr ⟨hdeal, hhandled⟩⟩
      rw [← hstep, hdeal.inbound_eq]
      simp

/-- **Frames are neither lost nor doubled nor reordered.** Each arrival of a
run is the answer of one pending command and told to its caller, or handed on
to the rest of the client, or acknowledges a command that is not pending and
is dropped. What the run hands on is what its arrivals hand on, one after
another. A frame of an attempt that is not heard changes nothing. -/
theorem inbound_frames_handled (backoff : Backoff) (protocol : UInt32) (timeout : Duration)
    (hostActive : Bool) (moments : List Moment) :
    let m := start (.initial backoff protocol timeout hostActive)
    (∀ a ∈ m.arrivals moments, Handled a.manager a.frame a.step)
      ∧ inbound (m.run moments).2 = (m.arrivals moments).flatMap (fun a => a.step.2)
      ∧ ∀ env epoch frame, (m.run moments).1.hears epoch = false →
        (m.run moments).1.handle env (.input (.frame epoch frame)) = ((m.run moments).1, []) := by
  intro m
  have h : m.Sound := sound_start (Machine.sound_initial ..) rfl
  obtain ⟨hinbound, hhandled⟩ := h.inbound_run moments
  exact ⟨hhandled, hinbound, fun env epoch frame hh =>
    (h.run moments).handle_frame_of_not_hears hh env frame⟩

end Manager

end LiveSync.Connection
