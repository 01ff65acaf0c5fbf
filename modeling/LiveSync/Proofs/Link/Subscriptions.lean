import LiveSync.Proofs.Link.Answers
import LiveSync.Proofs.Manager.Service

/-!
# Subscriptions converge

A session is a link together with those who hold topics. Whoever holds a
topic or lets go of it changes what is held and queues the frame that tells
it, in one step; the link moves as it likes in between.

Two facts hold at any time (`Session.Sound`). The frames that wait for the
manager lead from the topics that are held to themselves, and the manager
serves the server with them. Each kind of step keeps both: a change of who
holds what adds its frame at the end, the manager takes a frame up at the
front, and whatever happens aside of the manager is of no concern.
-/

namespace LiveSync.Connection

open LiveSync.Wire

/-- **A session**: who holds which topics, the link, and what was transmitted
so far. -/
structure Session where
  interests : Interests
  link : Link
  transmitted : List Transmission

namespace Session

/-- Nobody holds anything, and nothing was transmitted. -/
def start (config : Config) (hostActive : Bool) : Session :=
  ⟨.empty, .start config hostActive, []⟩

/-- **What can happen in a session.** -/
inductive Act where
  /-- Somebody holds a topic. -/
  | hold (topic : Topic)
  /-- Somebody lets go of a topic. -/
  | letGo (topic : Topic)
  /-- The link moves. No other frames are sent but those about topics. -/
  | move (now : Clock) (waiting : CallId → Bool) (move : Link.Move)
    (h : ∀ frame, move ≠ .ask (.send frame))

/-- A change of who holds what, and the frame that tells it, if there is one,
is queued. -/
def change (s : Session) (u : Interests × Option ClientFrame) : Session :=
  { s with
    interests := u.1
    link := match u.2 with
      | some frame => (s.link.enqueue (.send frame)).1
      | none => s.link }

/-- What the link sees when it moves. -/
def moment (s : Session) (now : Clock) (waiting : CallId → Bool) (move : Link.Move) :
    Link.Moment :=
  ⟨now, s.interests.topics, waiting, move⟩

/-- **One step.** -/
def step (s : Session) : Act → Session
  | .hold topic => s.change (s.interests.acquire topic)
  | .letGo topic => s.change (s.interests.release topic)
  | .move now waiting move _ =>
    { s with
      link := (s.link.step (s.moment now waiting move)).1
      transmitted := s.transmitted
        ++ transmissions (s.link.orders (s.moment now waiting move)) }

/-- **A run.** -/
def run (s : Session) (acts : List Act) : Session := acts.foldl step s

variable {s : Session}

/-- **What holds of a session at any time.** -/
structure Sound (s : Session) : Prop where
  link : s.link.Sound
  settled : Settled (frames s.link.commands) s.interests.held
  serves : Serves s.link.lines.contains (frames s.link.commands) s.interests.held
    s.link.manager.machine.course s.transmitted

theorem sound_start (config : Config) (hostActive : Bool) : (start config hostActive).Sound where
  link := Link.sound_start config hostActive
  settled := settled_nil _
  serves := ⟨nofun, nofun, nofun⟩

/-- A manager that has stopped has no established attempt. -/
theorem stage_of_stopped {l : Link} (h : l.Sound) (hs : l.manager.stopped = true) :
    l.manager.machine.stage ≠ .established := by
  simp [Machine.stage, h.manager.stopped hs]

theorem Sound.change (h : s.Sound) {u : Interests × Option ClientFrame}
    (hu : s.interests.Tells u) : (s.change u).Sound := by
  obtain ⟨i, frame?⟩ := u
  cases frame? with
  | none =>
    have hheld : i.held = s.interests.held := hu
    exact ⟨h.link, hheld ▸ h.settled, hheld ▸ h.serves⟩
  | some frame =>
    have hheld : i.held = applyFrame s.interests.held frame := hu
    by_cases hs : s.link.manager.stopped = true
    · -- nothing waits for a manager that has stopped
      have hlink : (s.link.enqueue (.send frame)).1 = s.link := by rw [Link.enqueue, if_pos hs]
      simp only [Session.change, hlink]
      refine ⟨h.link, ?_, h.serves.congr fun hstage => ?_⟩
      · rw [h.link.commands hs]
        exact settled_nil _
      · exact absurd hstage (stage_of_stopped h.link hs)
    · have hlink : (s.link.enqueue (.send frame)).1
          = { s.link with commands := s.link.commands ++ [.send frame] } := by
        rw [Link.enqueue, if_neg hs]
      have hframes : frames (s.link.commands ++ [.send frame])
          = frames s.link.commands ++ [frame] := frames_append ..
      refine ⟨h.link.enqueue _, ?_, ?_⟩
      · simp only [Session.change, hlink, hframes, hheld]
        exact settled_concat h.settled frame
      · simp only [Session.change, hlink, hframes, hheld]
        refine h.serves.congr fun hstage hline => ?_
        rw [applyFrames_append, h.serves.established hstage hline]
        rfl

/-- A user asks for something that sends no frame. -/
theorem Sound.ask (h : s.Sound) {c : Command} (hc : c.frame? = none) :
    Sound { s with link := (s.link.enqueue c).1 } := by
  have hframes : frames (s.link.enqueue c).1.commands = frames s.link.commands := by
    unfold Link.enqueue
    split
    · rfl
    · exact (frames_append ..).trans (by simp [frames, hc])
  have hlink : (s.link.enqueue c).1.manager = s.link.manager
      ∧ (s.link.enqueue c).1.lines = s.link.lines := by
    unfold Link.enqueue
    split <;> exact ⟨rfl, rfl⟩
  refine ⟨h.link.enqueue c, ?_, ?_⟩
  · rw [hframes]
    exact h.settled
  · rw [hframes, hlink.1, hlink.2]
    exact h.serves

/-- The manager takes a message. -/
theorem Sound.tell (h : s.Sound) {t : Link.Moment} (ht : t.topics = s.interests.topics)
    {message : ManagerMessage} {rest : Link} (htakes : s.link.takes t.move = some (message, rest)) :
    Sound { s with
      link := (Link.tell (s.link.sight t) t.now rest message).1
      transmitted := s.transmitted ++ transmissions (s.link.orders t) } := by
  obtain ⟨hm, hl, hc⟩ := Link.takes_frame htakes
  have htold := Link.told_tell (s.link.sight t) t.now rest message
  have hlink : (Link.tell (s.link.sight t) t.now rest message).1.Sound :=
    Link.step_of_takes htakes ▸ h.link.step t
  have horders : s.link.orders t = (s.link.manager.handle (s.link.sight t) message).2 := by
    rw [Link.orders, htakes]
  have hsettled : Settled (frames rest.commands) s.interests.held := by
    have hall := h.settled
    rw [hc, frames_append] at hall
    exact settled_of_append hall
  have hserves : Serves (s.link.sight t).listening (frames rest.commands) s.interests.held
      (s.link.manager.handle (s.link.sight t) message).1.machine.course
      (s.transmitted ++ transmissions (s.link.orders t)) := by
    have hall := h.serves
    rw [hc, frames_append] at hall
    rw [horders]
    refine Serves.handle hall h.link.manager (fun c hc => h.link.of_takes (hc ▸ htakes)) hsettled ?_
    exact congrArg List.toFinset ht
  have hmanager := htold.manager
  have hcommands := htold.commands
  rw [hm] at hmanager hcommands
  refine ⟨hlink, ?_, ?_⟩
  · rw [hcommands]
    split
    · exact settled_nil _
    · exact hsettled
  · rw [← hmanager] at hserves
    refine hserves.congr fun hstage hline => ?_
    have hgoing : ¬ (s.link.manager.handle (s.link.sight t) message).1.stopped = true :=
      fun hs => stage_of_stopped hlink (hmanager ▸ hs) hstage
    rw [hcommands, if_neg hgoing]
    refine hserves.established hstage ?_
    -- an attempt that has just come up is not established
    have hlines := htold.lines _ hline
    rw [hm, hl] at hlines
    refine hlines.resolve_left fun hopen => ?_
    have hphase := h.link.manager.phase_of_openAttempt hopen
    rw [Machine.course, Machine.stage, hmanager, hphase] at hstage
    cases hstage

/-- Something happens aside of the manager. -/
theorem Sound.aside (h : s.Sound) {t : Link.Moment} (haside : s.link.Aside (s.link.step t)) :
    Sound { s with link := (s.link.step t).1 } := by
  refine ⟨h.link.step t, ?_, ?_⟩
  · rw [haside.commands]
    exact h.settled
  · rw [haside.commands, haside.manager]
    exact h.serves.congr fun hstage hline =>
      h.serves.established hstage ((haside.lines _ hline).resolve_left nofun)

/-- **One step keeps a session sound.** -/
theorem Sound.step (h : s.Sound) (act : Act) : (s.step act).Sound := by
  cases act with
  | hold topic => exact h.change (s.interests.tells_acquire topic)
  | letGo topic => exact h.change (s.interests.tells_release topic)
  | move now waiting move hmove =>
    have horders (hnone : s.link.takes move = none) :
        transmissions (s.link.orders (s.moment now waiting move)) = [] := by
      rw [Link.orders, moment, hnone]
      rfl
    rcases Link.step_cases s.link (s.moment now waiting move) with
      ⟨c, hask, heq⟩ | ⟨message, rest, htakes, heq⟩ | ⟨hnone, -, haside⟩
    · have hask : move = .ask c := hask
      have hc : c.frame? = none := by
        cases c <;> first | rfl | exact absurd hask (hmove _)
      simp only [Session.step, heq, horders (hask ▸ rfl), List.append_nil]
      exact h.ask hc
    · simp only [Session.step, heq]
      exact h.tell rfl htakes
    · simp only [Session.step, horders hnone, List.append_nil]
      exact h.aside haside

theorem sound_run (config : Config) (hostActive : Bool) (acts : List Act) :
    ((start config hostActive).run acts).Sound := by
  induction acts using List.reverseRecOn with
  | nil => exact sound_start config hostActive
  | append_singleton acts act ih =>
    rw [run, List.foldl_append]
    exact ih.step act

/-- **Subscriptions converge.** However holding and letting go of topics is
mixed with connects, handshakes, drops, retries and the processing of what is
queued: while the connection is established and its attempt is not over, the
frames that still wait lead from the topics that the server has subscribed to
on that attempt, to exactly the topics that are held. Once no frame waits,
these are the topics that the server has subscribed to. -/
theorem subscriptions_converge (config : Config) (hostActive : Bool) (acts : List Act)
    (hestablished : ((start config hostActive).run acts).link.manager.machine.isEstablished = true)
    (hline : ((start config hostActive).run acts).link.lines.contains
      ((start config hostActive).run acts).link.manager.machine.epoch = true) :
    let s := (start config hostActive).run acts
    let served := served s.link.manager.machine.epoch s.transmitted
    applyFrames (frames s.link.commands) served = s.interests.topics.toFinset
      ∧ (frames s.link.commands = [] → served = s.interests.topics.toFinset) := by
  intro s served
  have h : applyFrames (frames s.link.commands) served = s.interests.topics.toFinset :=
    (sound_run config hostActive acts).serves.established
      (Machine.stage_eq_established_iff.mpr hestablished) hline
  refine ⟨h, fun hnone => ?_⟩
  rw [hnone] at h
  exact h

/-- A reconnection. One topic is held before there is a connection, another one
just before the connection is lost; the frame about it still waits when the
first topic is let go of. -/
def reconnection : List Act :=
  [.hold (.game 1), move (.ask .connect) nofun, move .takeCommand nofun, move .takeCommand nofun,
    move (.hear (.opened 1)) nofun, move .takeInput nofun,
    move (.hear (.frame 1 (.helloAck none none))) nofun, move .takeInput nofun,
    .hold (.game 2),
    move (.hear (.closed 1)) nofun, move .takeInput nofun,
    move (.hear (.retryFired 1)) nofun, move .takeInput nofun,
    move (.hear (.opened 2)) nofun, move .takeInput nofun,
    move (.hear (.frame 2 (.helloAck none none))) nofun, move .takeInput nofun,
    .letGo (.game 1)]
where
  move := Act.move 0 fun _ => true

/-- The frame about the second topic waits, though the replay reflects it. -/
theorem subscriptions_converge_reconnection :
    ((start .default true).run reconnection).link.manager.machine.isEstablished = true
      ∧ ((start .default true).run reconnection).link.lines.contains
        ((start .default true).run reconnection).link.manager.machine.epoch = true
      ∧ frames ((start .default true).run reconnection).link.commands
        = [.subscribe (.game 2), .unsubscribe (.game 1)]
      ∧ applyFrames (frames ((start .default true).run reconnection).link.commands)
          (served 2 ((start .default true).run reconnection).transmitted) = {.game 2} := by
  have hestablished :
      ((start .default true).run reconnection).link.manager.machine.isEstablished = true := by rfl
  have hline : ((start .default true).run reconnection).link.lines.contains
      ((start .default true).run reconnection).link.manager.machine.epoch = true := by rfl
  refine ⟨hestablished, hline, by rfl, ?_⟩
  exact (subscriptions_converge .default true reconnection hestablished hline).1

end Session

end LiveSync.Connection
