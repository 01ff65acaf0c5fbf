import LiveSync.Proofs.Connection.GivenUp
import LiveSync.Proofs.Manager.Run
import LiveSync.Proofs.Manager.Service
import LiveSync.Proofs.Connection.Discipline

/-!
# What is said to the server, and when

Three parts of the client say something to the server: the greeting of an
attempt, the replay of the topics when its handshake is done, and the frames
that users queue. They all go through the manager, which looks at one thing
before it lets anybody speak – how far the attempt has come.

So a message is a short **exchange** (`Manager.Exchange`). It says what is said
at the phase that it finds, and it says which phase it leaves behind; the order
of everything that is ever said on an attempt follows from how the phases
follow each other. Whether an attempt still takes what is said is not for the
manager to decide.
-/

namespace LiveSync.Connection

open LiveSync.Wire

/-- The frame that a command says, if it says one. -/
def Command.speech? : Command → Option ClientFrame
  | .send frame => some frame
  | .submit request id version action _ => some (.command request id version action)
  | .connect | .disconnect | .shutdown => none

/-- The frame that a message says, if it says one. -/
def ManagerMessage.speech? (message : ManagerMessage) : Option ClientFrame :=
  message.command?.bind Command.speech?

/-- **What an effect says**, to an attempt that takes it. -/
def Effect.speech (env : Surroundings) : Effect → List Transmission
  | .send epoch frame => if env.listening epoch then [(epoch, frame)] else []
  | .established epoch _ =>
    if env.listening epoch then env.topics.map fun topic => (epoch, .subscribe topic) else []
  | _ => []

/-- What effects say. -/
def speech (env : Surroundings) (effects : List Effect) : List Transmission :=
  effects.flatMap (Effect.speech env)

/-- **What passes between the manager and the server** at a message, which
brings a frame or none: what is said, and how far the attempt has come before
and after it. -/
inductive Exchange (topics : List Topic) (frame? : Option ClientFrame) (m m' : Machine) :
    List ClientFrame → Prop
  /-- The attempt is open, and the server is greeted. -/
  | greeting (hf : frame? = none) (he : m'.epoch = m.epoch) (hp : m.phase = some .opening)
    (hp' : m'.phase = some .handshaking) : Exchange topics frame? m m' [.hello m.protocol]
  /-- The handshake is done, and the topics are replayed. -/
  | replay (hf : frame? = none) (he : m'.epoch = m.epoch) (hp : m.phase = some .handshaking)
    (hp' : m'.phase = some .established) :
    Exchange topics frame? m m' (topics.map .subscribe)
  /-- The attempt goes on, and a frame is passed on after the handshake. -/
  | going (he : m'.epoch = m.epoch) (hp : m'.phase = m.phase) :
    Exchange topics frame? m m' (if m.phase = some .established then frame?.toList else [])
  /-- An attempt is opened. -/
  | opening (hf : frame? = none) (he : m'.epoch = m.epoch + 1) (hp' : m'.phase = some .opening) :
    Exchange topics frame? m m' []
  /-- There is no attempt any more. -/
  | ending (hf : frame? = none) (he : m.epoch ≤ m'.epoch) (hp' : m'.phase = none) :
    Exchange topics frame? m m' []

theorem Exchange.epoch_le {topics : List Topic} {frame? : Option ClientFrame} {m m' : Machine}
    {said : List ClientFrame} (h : Exchange topics frame? m m' said) : m.epoch ≤ m'.epoch := by
  cases h with
  | greeting hf he => exact he.ge
  | replay hf he => exact he.ge
  | going he => exact he.ge
  | opening hf he => exact he ▸ Nat.le_succ _
  | ending hf he => exact he

/-- An attempt that has come further than to be opened was under way before. -/
theorem Exchange.epoch_eq {topics : List Topic} {frame? : Option ClientFrame} {m m' : Machine}
    {said : List ClientFrame} (h : Exchange topics frame? m m' said) (hp : m'.phase ≠ none)
    (ho : m'.phase ≠ some .opening) : m'.epoch = m.epoch := by
  cases h with
  | greeting hf he => exact he
  | replay hf he => exact he
  | going he => exact he
  | opening hf he hp' => exact absurd hp' ho
  | ending hf he hp' => exact absurd hp' hp

/-- **An exchange takes place**: what is said is transmitted, if the attempt
still takes it. -/
def Exchanges (env : Surroundings) (frame? : Option ClientFrame) (m m' : Machine)
    (transmitted : List Transmission) : Prop :=
  ∃ said, Exchange env.topics frame? m m' said
    ∧ transmitted = if env.listening m.epoch then said.map (m.epoch, ·) else []

namespace Exchanges

variable {env : Surroundings} {frame? : Option ClientFrame} {m m' : Machine}
  {transmitted : List Transmission}

/-- The attempt goes on in silence. -/
theorem going (he : m'.epoch = m.epoch) (hp : m'.phase = m.phase) (hnone : transmitted = []) :
    Exchanges env none m m' transmitted :=
  ⟨_, .going he hp, by simp [hnone]⟩

theorem opening (he : m'.epoch = m.epoch + 1) (hp : m'.phase = some .opening)
    (hnone : transmitted = []) : Exchanges env none m m' transmitted :=
  ⟨_, .opening rfl he hp, by simp [hnone]⟩

theorem ending (he : m.epoch ≤ m'.epoch) (hp : m'.phase = none) (hnone : transmitted = []) :
    Exchanges env none m m' transmitted :=
  ⟨_, .ending rfl he hp, by simp [hnone]⟩

end Exchanges

/-! ### What effects say -/

variable {env : Surroundings} {effects effects' : List Effect}

theorem speech_append (env : Surroundings) (effects effects' : List Effect) :
    speech env (effects ++ effects') = speech env effects ++ speech env effects' :=
  List.flatMap_append

@[simp] theorem speech_of_silent (h : Silent effects) : speech env effects = [] := by
  refine List.flatMap_eq_nil_iff.mpr fun x hx => ?_
  have hx := h x hx
  cases x <;> first | rfl | cases hx

/-- **The manager says what the effects say.** -/
theorem Manager.Attends.transmissions_executeAll {m : Manager} {c c' : Course} (h : m.Attends c)
    (hr : Course.Reads c effects c') (env : Surroundings) :
    transmissions (m.executeAll env effects).2 = speech env effects := by
  induction hr using Course.Reads.induction with
  | start => rfl
  | @next past d x d' hr hx ih =>
    have hattempt := (h.executeAll hr env).attempt
    rw [executeAll_concat, Step.andThen, transmissions_append, ih, speech_append]
    congr 1
    cases hx with
    | @greeting e protocol =>
      have hattempt : (m.executeAll env past).1.attempt = some e := hattempt
      rw [Manager.execute, if_pos hattempt, transmissions_transmit hattempt]
      exact (List.append_nil _).symm
    | @establishing e user =>
      have hattempt : (m.executeAll env past).1.attempt = some e := hattempt
      rw [Manager.execute, transmissions_append, Serves.transmissions_replay hattempt]
      rfl
    | aside hx => cases x <;> first | exact transmissions_execute rfl | cases hx
    | _ => exact transmissions_execute rfl

namespace Machine

variable {m : Machine} {s : Step} {i : Input} {topics : List Topic}

theorem speech_startAttempt (status : ConnectionStatus) (m : Machine) :
    speech env (startAttempt status m).2 = [] := by
  rw [startAttempt, Step.andThen, speech_append, speech_of_silent (silent_setStatus _ _)]
  rfl

theorem speech_setStatus (status : ConnectionStatus) (m : Machine) :
    speech env (setStatus status m).2 = [] :=
  speech_of_silent (silent_setStatus status m)

/-- **An input is an exchange** without a frame of its own. -/
theorem Outcome.exchanges (ho : m.Outcome i s) (env : Surroundings) :
    Exchanges env none m s.1 (speech env s.2) := by
  cases ho with
  | nothing | noted | postponed | delivered => exact .going rfl rfl rfl
  | awaiting => refine .going ?_ ?_ (speech_setStatus _ _) <;> rw [setStatus_fst]
  | wanted => refine .opening ?_ ?_ (speech_startAttempt _ _) <;> rw [startAttempt_fst]
  | retried => refine .opening ?_ ?_ (speech_startAttempt _ _) <;> rw [startAttempt_fst]
  | returned =>
    refine .opening ?_ ?_ (speech_startAttempt _ _) <;> simp only [Step.andThen, startAttempt_fst]
  | unwanted =>
    refine .ending ?_ ?_ (speech_of_silent (silent_onDisconnect m)) <;> rw [onDisconnect_fst]
    exact Nat.le_succ _
  | greeted hp => exact ⟨_, .greeting rfl rfl hp rfl, List.append_nil _⟩
  | established hp =>
    rw [onHelloAck, if_pos hp]
    simp only [Step.effect, Step.andThen]
    refine ⟨_, .replay rfl ?_ hp ?_, ?_⟩
    · rw [setStatus_fst]
    · rw [setStatus_fst]
    · rw [speech_append, speech_append, speech_setStatus, speech, List.flatMap_singleton,
        List.map_map]
      exact List.append_nil _
  | retrying hi hp hc hn =>
    refine .ending ?_ ?_ ?_
    · simp only [Step.andThen, retryAfter, setStatus_fst]
      exact le_refl _
    · simp only [Step.andThen, retryAfter, setStatus_fst]
      rfl
    · rw [Step.andThen, speech_append, speech_of_silent (silent_endAfter hc)]
      exact speech_setStatus _ _
  | exhausted hi hp hc hn =>
    refine .ending ?_ ?_ ?_
    · simp only [Step.andThen, terminate_fst]
      exact le_refl _
    · simp only [Step.andThen, terminate_fst]
      rfl
    · rw [Step.andThen, speech_append, speech_of_silent (silent_endAfter hc)]
      exact speech_of_silent (silent_terminate _ _)
  | refused hp ht =>
    refine .ending ?_ ?_ ?_
    · simp only [Step.andThen, terminate_fst]
      exact le_refl _
    · simp only [Step.andThen, terminate_fst]
      rfl
    · rw [Step.andThen, speech_append, speech_of_silent (silent_endAttempt m)]
      exact speech_of_silent (silent_terminate _ _)

theorem Outcome.protocol_eq (ho : m.Outcome i s) : s.1.protocol = m.protocol := by
  cases ho with
  | established hp => simp [onHelloAck, hp, Step.effect, Step.andThen]
  | retrying | exhausted | refused =>
    simp [Step.andThen, endAfter, retryAfter, endAttempt]
  | _ => simp [Step.andThen]

end Machine

theorem Course.Reads.epoch_le {c c' : Course} (h : Reads c effects c') : c.epoch ≤ c'.epoch := by
  induction h with
  | nil => exact le_refl _
  | cons hx _ ih => exact hx.epoch_le.trans ih

/-- **An attempt that is opened is a new one.** -/
theorem Course.Reads.lt_of_open {c c' : Course} (h : Reads c effects c') {epoch : Epoch}
    (hopen : .open epoch ∈ effects) : c.epoch < epoch := by
  obtain ⟨past, rest, rfl⟩ := List.append_of_mem hopen
  obtain ⟨d, d', hpast, hx, -⟩ := h.of_split
  cases hx with
  | opening hlt => exact hpast.epoch_le.trans_lt hlt
  | aside hx => cases hx

namespace Manager

variable {m : Manager} {message : ManagerMessage} {epoch : Epoch}

theorem Sound.exchanges_feed (h : m.Sound) (env : Surroundings) (i : Input) :
    Exchanges env none m.machine (m.feed env i).1.machine (transmissions (m.feed env i).2) := by
  obtain ⟨c, hreads, -, hattends⟩ := h.follows i
  have htransmissions : transmissions (m.feed env i).2 = speech env (m.machine.handle i).2 :=
    hattends.transmissions_executeAll hreads env
  rw [feed_machine, htransmissions]
  exact (h.machine.outcome i).exchanges env

/-- Users speak after the handshake only. -/
theorem Sound.exchanges_transmit (h : m.Sound) (env : Surroundings) (frame : ClientFrame) :
    Exchanges env (some frame) m.machine m.machine
      (transmissions (if m.machine.isEstablished then m.transmit env frame else [])) := by
  refine ⟨_, .going rfl rfl, ?_⟩
  cases he : m.machine.isEstablished with
  | true =>
    rw [if_pos rfl, transmissions_transmit (h.attempt_of_established he),
      if_pos (of_decide_eq_true he)]
    rfl
  | false =>
    rw [if_neg Bool.false_ne_true, if_neg (of_decide_eq_false he), List.map_nil, ite_self]
    rfl

theorem transmit_of_not_canTransmit (hc : ¬ m.canTransmit env = true) (frame : ClientFrame) :
    m.transmit env frame = [] := by
  unfold canTransmit at hc
  unfold transmit
  cases ha : m.attempt with
  | none => rfl
  | some epoch =>
    rw [ha, Option.any_some] at hc
    exact if_neg hc

theorem transmissions_submit (env : Surroundings) (m : Manager) (request : RequestId)
    (id : EntityId) (version : Version) (action : Action) (caller : CallId) :
    transmissions (m.submit env request id version action caller).2
      = transmissions (if m.machine.isEstablished
          then m.transmit env (.command request id version action) else []) := by
  unfold submit
  split
  · rename_i hc
    rw [if_pos hc.1]
  · rename_i hc
    split
    · rename_i he
      rw [transmit_of_not_canTransmit fun hcan => hc ⟨he, hcan⟩]
      rfl
    · rfl

/-- **A message is an exchange.** -/
theorem Sound.exchanges (h : m.Sound) (env : Surroundings) (message : ManagerMessage) :
    Exchanges env message.speech? m.machine (m.handle env message).1.machine
      (transmissions (m.handle env message).2) := by
  unfold Manager.handle
  split
  · rename_i hs
    have hne : m.machine.phase ≠ some .established := by
      rw [h.stopped hs]
      nofun
    refine ⟨_, .going rfl rfl, ?_⟩
    rw [if_neg hne, List.map_nil, ite_self]
    rfl
  · cases message with
    | command c =>
      cases c with
      | connect => exact h.exchanges_feed env .connect
      | disconnect => exact h.exchanges_feed env .disconnect
      | send frame => exact h.exchanges_transmit env frame
      | submit request id version action caller =>
        dsimp only [obey]
        rw [submit_fst, transmissions_submit]
        exact h.exchanges_transmit env (.command request id version action)
      | shutdown =>
        show Exchanges env none _ _ (transmissions ((m.feed env .disconnect).2 ++ []))
        rw [List.append_nil]
        exact h.exchanges_feed env .disconnect
    | input i => exact h.exchanges_feed env i
    | host active => exact h.exchanges_feed env (.host active)

theorem Sound.lt_of_openAttempt_feed (h : m.Sound) {i : Input}
    (hopen : .openAttempt epoch ∈ (m.feed env i).2) : m.machine.epoch < epoch := by
  obtain ⟨c, hreads, -, -⟩ := h.follows i
  exact hreads.lt_of_open (open_of_mem_executeAll hopen)

/-- An attempt that a message opens is a new one. -/
theorem Sound.lt_of_openAttempt (h : m.Sound)
    (hopen : .openAttempt epoch ∈ (m.handle env message).2) : m.machine.epoch < epoch := by
  revert hopen
  refine handle_induction (P := fun s => .openAttempt epoch ∈ s.2 → m.machine.epoch < epoch) env
    message (fun _ => nofun) (fun i _ => h.lt_of_openAttempt_feed) (fun frame _ hopen => ?_)
    (fun request id version action caller _ hopen => ?_) (fun _ hopen => ?_)
  · dsimp only at hopen
    split at hopen
    · exact absurd hopen openAttempt_not_mem_transmit
    · cases hopen
  · rcases h.submit_cases env request id version action caller with ⟨-, -, heq⟩ | heq
    · rw [heq] at hopen
      cases List.mem_singleton.mp hopen
    · rw [heq] at hopen
      cases List.mem_singleton.mp hopen
  · have hfeed : .openAttempt epoch ∈ (m.feed env .disconnect).2 :=
      (List.mem_append.mp hopen).resolve_right nofun
    exact h.lt_of_openAttempt_feed hfeed

theorem Sound.handle_protocol (h : m.Sound) (env : Surroundings) (message : ManagerMessage) :
    (m.handle env message).1.machine.protocol = m.machine.protocol := by
  have hfeed (i : Input) : (m.feed env i).1.machine.protocol = m.machine.protocol := by
    rw [feed_machine]
    exact (h.machine.outcome i).protocol_eq
  refine handle_induction (P := fun s => s.1.machine.protocol = m.machine.protocol) env message
    (fun _ => rfl) (fun i _ => hfeed i) (fun _ _ => rfl)
    (fun request id version action caller _ => ?_) (fun _ => hfeed .disconnect)
  rw [submit_fst]

end Manager

end LiveSync.Connection
