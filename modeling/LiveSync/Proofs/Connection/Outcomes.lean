import LiveSync.Proofs.Connection.Course

/-!
# What an input can lead to

Inputs come in whatever the machine is doing, and most of them are late or
out of place. What can come of them is a short list all the same
(`Machine.Outcome`): an attempt starts, gets on, or is lost; a retry is
scheduled, put off, or taken up; the connection is given up; or nothing
happens. Each entry of the list says in which states it comes about, so a
property of every step is a property of every entry.
-/

namespace LiveSync.Connection

open LiveSync.Wire

/-- Whether an input tells that an attempt was lost, and may be tried again. -/
def Input.isLoss : Input → Bool
  | .openFailed _ error => !error.isTerminal
  | .closed _ | .stalled _ | .handshakeTimedOut _ => true
  | .connect | .disconnect | .opened _ | .frame _ _ | .transportError _ _ | .retryFired _
  | .host _ => false

namespace Machine

variable {m : Machine}

@[simp] theorem failed_not_mem_setStatus (error : Failure) (status : ConnectionStatus)
    (m : Machine) : .failed error ∉ (setStatus status m).2 := by
  unfold setStatus
  split <;> simp

/-- The attempt ends after some effects that close it. -/
def endAfter (closing : List Effect) (m : Machine) : Step := Step.andThen (m, closing) endAttempt

/-- A retry is scheduled. -/
def retryAfter (delay : Duration) (backoff : Backoff) (m : Machine) : Step :=
  Step.andThen ({ m with backoff := backoff, retry := .scheduled }, [.scheduleRetry m.epoch delay])
    (setStatus .reconnecting)

/-- **All that an input can lead to**, and when it does. -/
inductive Outcome (m : Machine) : Input → Step → Prop
  /-- The input is not heard. -/
  | nothing {i : Input} (hi : i ≠ .disconnect) (hh : ∀ active, i ≠ .host active) :
    Outcome m i (m, [])
  /-- The connection is wanted, and an attempt starts. -/
  | wanted (hd : m.desired = false) (ha : m.hostActive = true) :
    Outcome m .connect
      (startAttempt .connecting { m with desired := true, backoff := m.backoff.reset })
  /-- The connection is wanted, but an attempt has to wait for the host. -/
  | awaiting (hd : m.desired = false) (ha : m.hostActive = false) :
    Outcome m .connect (setStatus .connecting
      { m with desired := true, backoff := m.backoff.reset, retry := .deferred })
  /-- The connection is no longer wanted. -/
  | unwanted : Outcome m .disconnect m.onDisconnect
  /-- The host returns, and an attempt starts. -/
  | returned (hd : m.desired = true) (hp : m.phase = none) :
    Outcome m (.host true)
      (Step.andThen ({ m with hostActive := true, backoff := m.backoff.reset }, [.cancelRetry])
        fun m => m.startAttempt m.statusOnReturn)
  /-- The host says something that nothing follows from. -/
  | noted {active : Bool} (h : active = true → m.desired = true → m.phase ≠ none) :
    Outcome m (.host active) ({ m with hostActive := active }, [])
  /-- The server is greeted. -/
  | greeted (hp : m.phase = some .opening) :
    Outcome m (.opened m.epoch) ({ m with phase := some .handshaking },
      [.send m.epoch (.hello m.protocol), .startHandshakeTimer m.epoch m.handshakeTimeout])
  /-- The handshake is done. -/
  | established {protocol : Option UInt32} {user : Option Int64}
    (hp : m.phase = some .handshaking) :
    Outcome m (.frame m.epoch (.helloAck protocol user)) (m.onHelloAck user)
  /-- A frame is handed on. -/
  | delivered {frame : ServerFrame} (hp : m.phase = some .handshaking ∨ m.phase = some .established)
    (hf : ∀ protocol user, frame ≠ .helloAck protocol user) :
    Outcome m (.frame m.epoch frame) (m, [.deliver frame])
  /-- The retry is due, and an attempt starts. -/
  | retried (hr : m.retry = .scheduled) (ha : m.hostActive = true) :
    Outcome m (.retryFired m.epoch) (m.startAttempt .reconnecting)
  /-- The retry is due, but an attempt has to wait for the host. -/
  | postponed (hr : m.retry = .scheduled) (ha : m.hostActive = false) :
    Outcome m (.retryFired m.epoch) ({ m with retry := .deferred }, [])
  /-- The attempt is lost, and there is a retry left. -/
  | retrying {i : Input} {closing : List Effect} {delay : Duration} {backoff : Backoff}
    (hi : i.isLoss = true) (hp : m.phase ≠ none)
    (hc : closing = [] ∨ closing = [.close m.epoch])
    (hn : m.backoff.next? = some (delay, backoff)) :
    Outcome m i ((m.endAfter closing).andThen (retryAfter delay backoff))
  /-- The attempt is lost, and all retries have been used. -/
  | exhausted {i : Input} {closing : List Effect} (hi : i.isLoss = true) (hp : m.phase ≠ none)
    (hc : closing = [] ∨ closing = [.close m.epoch]) (hn : m.backoff.next? = none) :
    Outcome m i ((m.endAfter closing).andThen
      (terminate (.connection (.attemptsExhausted m.backoff.attempts))))
  /-- The attempt could not be opened, and to try again would not help. -/
  | refused {error : Failure} (hp : m.phase = some .opening) (ht : error.isTerminal = true) :
    Outcome m (.openFailed m.epoch error) (Step.andThen m.endAttempt (terminate error))

/-! ### The inputs -/

theorem onConnect_of_active (hd : m.desired = false) (ha : m.hostActive = true) :
    m.onConnect = startAttempt .connecting
      { m with desired := true, backoff := m.backoff.reset } := by
  unfold onConnect
  rw [if_neg fun hw => Bool.false_ne_true (hd.symm.trans hw.1)]
  exact if_pos ha

theorem onConnect_of_inactive (hd : m.desired = false) (ha : m.hostActive = false) :
    m.onConnect = setStatus .connecting
      { m with desired := true, backoff := m.backoff.reset, retry := .deferred } := by
  unfold onConnect
  rw [if_neg fun hw => Bool.false_ne_true (hd.symm.trans hw.1)]
  exact if_neg (Bool.eq_false_iff.mp ha)

theorem Sound.outcome_onConnect (h : m.Sound) : m.Outcome .connect m.onConnect := by
  cases hd : m.desired with
  | true =>
    rw [h.onConnect_of_desired hd]
    exact .nothing nofun nofun
  | false =>
    cases ha : m.hostActive with
    | true =>
      rw [onConnect_of_active hd ha]
      exact .wanted hd ha
    | false =>
      rw [onConnect_of_inactive hd ha]
      exact .awaiting hd ha

theorem outcome_onHost (m : Machine) (active : Bool) :
    m.Outcome (.host active) (m.onHost active) := by
  unfold onHost
  dsimp only
  split
  · rename_i hgo
    obtain ⟨rfl, hd, hp⟩ := hgo
    exact .returned hd hp
  · rename_i hno
    exact .noted fun ha hd hp => hno ⟨ha, hd, hp⟩

theorem outcome_onOpened (m : Machine) (epoch : Epoch) :
    m.Outcome (.opened epoch) (m.onOpened epoch) := by
  unfold onOpened
  split
  · rename_i hat
    obtain ⟨rfl, p, hmem, hp⟩ := isAt_iff.mp hat
    obtain rfl := List.mem_singleton.mp hmem
    exact .greeted hp
  · exact .nothing nofun nofun

theorem outcome_onFrame (m : Machine) (epoch : Epoch) (frame : ServerFrame) :
    m.Outcome (.frame epoch frame) (m.onFrame epoch frame) := by
  unfold onFrame
  split
  · rename_i hat
    obtain ⟨rfl, p, hmem, hp⟩ := isAt_iff.mp hat
    split
    · by_cases hs : m.phase = some .handshaking
      · exact .established hs
      · rw [onHelloAck, if_neg hs]
        exact .nothing nofun nofun
    · rename_i hf
      exact .delivered (by simpa [hp] using hmem) hf
  · exact .nothing nofun nofun

theorem scheduleRetry_of_some {delay : Duration} {backoff : Backoff} (hd : m.desired = true)
    (hn : m.backoff.next? = some (delay, backoff)) :
    m.scheduleRetry = retryAfter delay backoff m := by
  rw [scheduleRetry, if_pos hd, hn]
  rfl

theorem scheduleRetry_of_none (hd : m.desired = true) (hn : m.backoff.next? = none) :
    m.scheduleRetry = terminate (.connection (.attemptsExhausted m.backoff.attempts)) m := by
  rw [scheduleRetry, if_pos hd, hn]

/-- **A lost attempt** is tried again while there is a retry left. -/
theorem Sound.outcome_loss (h : m.Sound) (hp : m.phase ≠ none) {i : Input}
    (hi : i.isLoss = true) {closing : List Effect}
    (hc : closing = [] ∨ closing = [.close m.epoch]) :
    m.Outcome i ((m.endAfter closing).andThen scheduleRetry) := by
  have hd : (m.endAfter closing).1.desired = true := h.desired_of_phase hp
  rw [Step.andThen]
  cases hn : m.backoff.next? with
  | none =>
    rw [scheduleRetry_of_none hd hn]
    exact .exhausted hi hp hc hn
  | some next =>
    rw [scheduleRetry_of_some hd hn]
    exact .retrying hi hp hc hn

theorem Sound.outcome_onOpenFailed (h : m.Sound) (epoch : Epoch) (error : Failure) :
    m.Outcome (.openFailed epoch error) (m.onOpenFailed epoch error) := by
  unfold Machine.onOpenFailed
  split
  · rename_i hat
    obtain ⟨rfl, p, hmem, hp⟩ := isAt_iff.mp hat
    obtain rfl := List.mem_singleton.mp hmem
    cases ht : error.isTerminal with
    | true => exact .refused hp ht
    | false =>
      exact h.outcome_loss (phase_ne_none_of_isAt hat) (by rw [Input.isLoss, ht]; rfl) (.inl rfl)
  · exact .nothing nofun nofun

theorem Sound.outcome_onClosed (h : m.Sound) (epoch : Epoch) :
    m.Outcome (.closed epoch) (m.onClosed epoch) := by
  unfold Machine.onClosed
  split
  · rename_i hat
    exact h.outcome_loss (phase_ne_none_of_isAt hat) rfl (.inl rfl)
  · exact .nothing nofun nofun

theorem Sound.outcome_onLost (h : m.Sound) {i : Input} (hi : i.isLoss = true) (epoch : Epoch)
    (phases : List Phase) : m.Outcome i (m.onLost epoch phases) := by
  unfold Machine.onLost
  split
  · rename_i hat
    obtain ⟨rfl, -⟩ := isAt_iff.mp hat
    exact h.outcome_loss (phase_ne_none_of_isAt hat) hi (.inr rfl)
  · refine .nothing ?_ ?_
    · rintro rfl
      cases hi
    · rintro active rfl
      cases hi

theorem outcome_onRetryFired (m : Machine) (epoch : Epoch) :
    m.Outcome (.retryFired epoch) (m.onRetryFired epoch) := by
  unfold onRetryFired
  split
  · rename_i hw
    obtain ⟨rfl, hr⟩ := hw
    split
    · rename_i ha
      exact .retried hr ha
    · rename_i ha
      exact .postponed hr (Bool.eq_false_iff.mpr ha)
  · exact .nothing nofun nofun

/-- **An input leads to one of the outcomes.** -/
theorem Sound.outcome (h : m.Sound) (i : Input) : m.Outcome i (m.handle i) := by
  cases i with
  | connect => exact h.outcome_onConnect
  | disconnect => exact .unwanted
  | opened epoch => exact outcome_onOpened m epoch
  | openFailed epoch error => exact h.outcome_onOpenFailed epoch error
  | frame epoch frame => exact outcome_onFrame m epoch frame
  | transportError epoch error => exact .nothing nofun nofun
  | closed epoch => exact h.outcome_onClosed epoch
  | stalled epoch => exact h.outcome_onLost rfl epoch _
  | handshakeTimedOut epoch => exact h.outcome_onLost rfl epoch _
  | retryFired epoch => exact outcome_onRetryFired m epoch
  | host active => exact outcome_onHost m active

end Machine

end LiveSync.Connection
