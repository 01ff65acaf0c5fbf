import LiveSync.Connection.Machine
import Mathlib.Data.List.Induction

/-!
# Where a connection stands

A user who wants to be connected must never be left waiting for nothing. At
any time of any run, whatever inputs came in and in which order, a wanted
connection is on one of three ways: an attempt is under way, or a retry
waits for its timer, or a retry waits for a host that is inactive
(`Machine.Sound`). What it waits for moves it on (`Machine.awaited`).

The steps that change the way are few: an attempt starts, a retry is
scheduled or put off, the connection is given up. Each of them leaves a
sound machine behind, and needs to know little about the one it finds; the
inputs only choose among them.
-/

namespace LiveSync.Connection

open LiveSync.Wire

namespace Machine

variable {m : Machine}

/-! ### The state after a step -/

@[simp] theorem setStatus_fst (status : ConnectionStatus) (m : Machine) :
    (setStatus status m).1 = { m with status := status, reported := m.backoff.attempts } := by
  unfold setStatus
  split
  · rfl
  · rename_i h
    obtain ⟨hs, hr⟩ := not_or.mp h
    rw [← not_not.mp hs, ← not_not.mp hr]

@[simp] theorem startAttempt_fst (status : ConnectionStatus) (m : Machine) :
    (startAttempt status m).1
      = { m with
          epoch := m.epoch + 1
          phase := some .opening
          retry := .idle
          status := status
          reported := m.backoff.attempts } :=
  setStatus_fst status _

@[simp] theorem terminate_fst (error : Failure) (m : Machine) :
    (terminate error m).1
      = { m with
          desired := false
          retry := .idle
          status := .disconnected
          reported := m.backoff.attempts } :=
  setStatus_fst .disconnected _

theorem abandonAttempt_fst (m : Machine) : m.abandonAttempt.1 = { m with phase := none } := by
  unfold abandonAttempt
  split
  · rename_i h
    rw [← h]
    rfl
  · rfl

@[simp] theorem onDisconnect_fst (m : Machine) :
    m.onDisconnect.1
      = { m with
          epoch := m.epoch + 1
          status := .disconnected
          reported := 0
          desired := false
          phase := none
          retry := .idle
          backoff := m.backoff.reset } := by
  unfold onDisconnect
  simp only [Step.andThen, setStatus_fst, abandonAttempt_fst]
  rfl

/-- **What holds after an input holds after a run**, if an input keeps it. -/
theorem run_induction {P : Machine → Prop} (start : P m)
    (handle : ∀ m i, P m → P (m.handle i).1) (inputs : List Input) : P (m.run inputs).1 := by
  induction inputs using List.reverseRecOn with
  | nil => exact start
  | append_singleton inputs i ih =>
    rw [run, List.foldl_append]
    exact handle _ i ih

/-! ### Sound machines -/

/-- **What holds of a machine at any time.** -/
structure Sound (m : Machine) : Prop where
  /-- A connection that is wanted is on exactly one way: an attempt is under
  way and no retry waits, or there is no attempt and a retry waits, either
  for its timer or for the host. -/
  desired : m.desired = true →
    (m.phase ≠ none ∧ m.retry = .idle)
      ∨ (m.phase = none ∧ m.retry = .scheduled) ∨ (m.phase = none ∧ m.retry = .deferred)
  /-- One that is not wanted is on none. -/
  undesired : m.desired = false → m.phase = none ∧ m.retry = .idle
  /-- A retry waits for the host only while the host is inactive. -/
  deferred : m.retry = .deferred → m.hostActive = false
  disconnected_iff : m.status = .disconnected ↔ m.desired = false
  connected_iff : m.status = .connected ↔ m.phase = some .established
  /-- No retry has been used before the first attempt has failed, and none is
  counted once a handshake is done. -/
  attempts : m.status = .connecting ∨ m.status = .connected → m.backoff.attempts = 0

/-- A wanted connection has to be on a way, and not to be reported as one
that is not wanted. -/
theorem Sound.of_desired (hd : m.desired = true)
    (way : (m.phase ≠ none ∧ m.retry = .idle)
      ∨ (m.phase = none ∧ m.retry = .scheduled) ∨ (m.phase = none ∧ m.retry = .deferred))
    (deferred : m.retry = .deferred → m.hostActive = false)
    (status : m.status ≠ .disconnected)
    (connected_iff : m.status = .connected ↔ m.phase = some .established)
    (attempts : m.status = .connecting ∨ m.status = .connected → m.backoff.attempts = 0) :
    m.Sound where
  desired := fun _ => way
  undesired := fun hn => absurd (hd.symm.trans hn) nofun
  deferred := deferred
  disconnected_iff := ⟨fun hs => absurd hs status, fun hn => absurd (hd.symm.trans hn) nofun⟩
  connected_iff := connected_iff
  attempts := attempts

theorem sound_initial (backoff : Backoff) (protocol : UInt32) (timeout : Duration)
    (hostActive : Bool) : (initial backoff protocol timeout hostActive).Sound where
  desired := nofun
  undesired := fun _ => ⟨rfl, rfl⟩
  deferred := nofun
  disconnected_iff := ⟨fun _ => rfl, fun _ => rfl⟩
  connected_iff := ⟨nofun, nofun⟩
  attempts := nofun

/-- An attempt under way is wanted. -/
theorem Sound.desired_of_phase (h : m.Sound) (hp : m.phase ≠ none) : m.desired = true := by
  cases hd : m.desired with
  | true => rfl
  | false => exact absurd (h.undesired hd).1 hp

theorem Sound.idle_of_phase (h : m.Sound) (hp : m.phase ≠ none) : m.retry = .idle := by
  rcases h.desired (h.desired_of_phase hp) with ⟨-, hi⟩ | ⟨hn, -⟩ | ⟨hn, -⟩
  · exact hi
  · exact absurd hn hp
  · exact absurd hn hp

/-- A retry that waits is wanted, and there is no attempt. -/
theorem Sound.of_waiting (h : m.Sound) (hr : m.retry ≠ .idle) :
    m.desired = true ∧ m.phase = none := by
  refine ⟨?_, ?_⟩
  · cases hd : m.desired with
    | true => rfl
    | false => exact absurd (h.undesired hd).2 hr
  · by_contra hp
    exact hr (h.idle_of_phase hp)

/-- A wanted connection without an attempt waits for a retry. -/
theorem Sound.waiting (h : m.Sound) (hd : m.desired = true) (hp : m.phase = none) :
    m.retry = .scheduled ∨ m.retry = .deferred := by
  rcases h.desired hd with ⟨hn, -⟩ | ⟨-, hr⟩ | ⟨-, hr⟩
  · exact absurd hp hn
  · exact .inl hr
  · exact .inr hr

theorem phase_ne_none_of_isAt {epoch : Epoch} {phases : List Phase}
    (h : m.isAt epoch phases = true) : m.phase ≠ none := by
  intro hp
  rw [isAt, hp] at h
  simp at h

/-! ### The steps that change the way -/

theorem sound_startAttempt {status : ConnectionStatus} (hd : m.desired = true)
    (hs : status = .connecting ∧ m.backoff.attempts = 0 ∨ status = .reconnecting) :
    (m.startAttempt status).1.Sound := by
  rw [startAttempt_fst]
  rcases hs with ⟨rfl, h0⟩ | rfl
  · exact .of_desired hd (.inl ⟨nofun, rfl⟩) nofun nofun ⟨nofun, nofun⟩ fun _ => h0
  · exact .of_desired hd (.inl ⟨nofun, rfl⟩) nofun nofun ⟨nofun, nofun⟩ nofun

theorem sound_terminate (hp : m.phase = none) (error : Failure) :
    (m.terminate error).1.Sound := by
  rw [terminate_fst]
  exact ⟨nofun, fun _ => ⟨hp, rfl⟩, nofun, ⟨fun _ => rfl, fun _ => rfl⟩,
    ⟨nofun, fun he => absurd (hp.symm.trans he) nofun⟩, nofun⟩

theorem sound_scheduleRetry (hd : m.desired = true) (hp : m.phase = none) :
    m.scheduleRetry.1.Sound := by
  rw [scheduleRetry, if_pos hd]
  split
  · simp only [Step.andThen, setStatus_fst]
    refine .of_desired hd (.inr (.inl ⟨hp, rfl⟩)) nofun nofun ⟨nofun, fun he => ?_⟩ nofun
    exact absurd (hp.symm.trans he) nofun
  · exact sound_terminate hp _

theorem sound_retryAfterEnd (hd : m.desired = true) : m.retryAfterEnd.1.Sound :=
  sound_scheduleRetry (m := m.endAttempt.1) hd rfl

/-! ### The inputs -/

/-- A connection that is wanted already cannot be wanted again. -/
theorem Sound.onConnect_of_desired (h : m.Sound) (hd : m.desired = true) :
    m.onConnect = (m, []) := by
  rw [Machine.onConnect, if_pos]
  · rfl
  · refine ⟨hd, ?_⟩
    rcases h.desired hd with ⟨hp, -⟩ | ⟨-, hr⟩ | ⟨-, hr⟩
    · exact .inl hp
    · exact .inr (by simp [hr])
    · exact .inr (by simp [hr])

theorem Sound.onConnect (h : m.Sound) : m.onConnect.1.Sound := by
  cases hd : m.desired with
  | true =>
    rw [h.onConnect_of_desired hd]
    exact h
  | false =>
    have hp : m.phase = none := (h.undesired hd).1
    unfold Machine.onConnect
    rw [if_neg fun hw => Bool.false_ne_true (hd.symm.trans hw.1)]
    dsimp only
    split
    · exact sound_startAttempt rfl (.inl ⟨rfl, rfl⟩)
    · rename_i ha
      simp only [setStatus_fst]
      refine .of_desired rfl (.inr (.inr ⟨hp, rfl⟩)) (fun _ => Bool.eq_false_iff.mpr ha) nofun
        ⟨nofun, fun he => ?_⟩ fun _ => rfl
      exact absurd (hp.symm.trans he) nofun

theorem sound_onDisconnect (m : Machine) : m.onDisconnect.1.Sound := by
  rw [onDisconnect_fst]
  exact ⟨nofun, fun _ => ⟨rfl, rfl⟩, nofun, ⟨fun _ => rfl, fun _ => rfl⟩, ⟨nofun, nofun⟩, nofun⟩

theorem Sound.onHost (h : m.Sound) (active : Bool) : (m.onHost active).1.Sound := by
  unfold Machine.onHost
  dsimp only
  split
  · rename_i hgo
    refine sound_startAttempt (m := { m with hostActive := active, backoff := m.backoff.reset })
      hgo.2.1 ?_
    unfold statusOnReturn
    split
    · exact .inl ⟨rfl, rfl⟩
    all_goals exact .inr rfl
  · rename_i hno
    refine { h with deferred := fun hr => ?_ }
    -- a retry that waits for the host would have been started
    have hr' : m.retry = .deferred := hr
    have hwaits := h.of_waiting (by simp [hr'])
    exact Bool.eq_false_iff.mpr fun ha => hno ⟨ha, hwaits⟩

theorem Sound.onOpened (h : m.Sound) (epoch : Epoch) : (m.onOpened epoch).1.Sound := by
  unfold Machine.onOpened
  split
  · rename_i hat
    have hd := h.desired_of_phase (phase_ne_none_of_isAt hat)
    have hp : m.phase = some .opening := by
      simp only [isAt, Bool.and_eq_true] at hat
      obtain ⟨p, hp, hmem⟩ := (Option.any_eq_true _ _).mp hat.2
      rw [hp, List.mem_singleton.mp (of_decide_eq_true hmem)]
    have hi : m.retry = .idle := h.idle_of_phase (phase_ne_none_of_isAt hat)
    refine { h with
      desired := fun _ => .inl ⟨nofun, hi⟩
      undesired := fun hn => absurd (hd.symm.trans hn) nofun
      connected_iff := ⟨fun hc => ?_, nofun⟩ }
    exact absurd (hp.symm.trans (h.connected_iff.mp hc)) nofun
  · exact h

theorem Sound.onOpenFailed (h : m.Sound) (epoch : Epoch) (error : Failure) :
    (m.onOpenFailed epoch error).1.Sound := by
  unfold Machine.onOpenFailed
  split
  · rename_i hat
    have hd := h.desired_of_phase (phase_ne_none_of_isAt hat)
    by_cases ht : error.isTerminal
    · simp only [Step.andThen, ht, if_true]
      exact sound_terminate (m := m.endAttempt.1) rfl error
    · simp only [Step.andThen, ht]
      exact sound_scheduleRetry (m := m.endAttempt.1) hd rfl
  · exact h

theorem Sound.onHelloAck (h : m.Sound) (user : Option Int64) : (m.onHelloAck user).1.Sound := by
  unfold Machine.onHelloAck
  split
  · rename_i hp
    have hp' : m.phase ≠ none := by rw [hp]; exact nofun
    have hd := h.desired_of_phase hp'
    have hi : m.retry = .idle := h.idle_of_phase hp'
    simp only [Step.effect, Step.andThen, setStatus_fst]
    refine .of_desired hd (.inl ⟨nofun, hi⟩) (fun hr => ?_) nofun
      ⟨fun _ => rfl, fun _ => rfl⟩ fun _ => rfl
    exact absurd (hi.symm.trans hr) nofun
  · exact h

theorem Sound.onFrame (h : m.Sound) (epoch : Epoch) (frame : ServerFrame) :
    (m.onFrame epoch frame).1.Sound := by
  unfold Machine.onFrame
  split
  · split
    · exact h.onHelloAck _
    · exact h
  · exact h

theorem Sound.onClosed (h : m.Sound) (epoch : Epoch) : (m.onClosed epoch).1.Sound := by
  unfold Machine.onClosed
  split
  · rename_i hat
    exact sound_retryAfterEnd (h.desired_of_phase (phase_ne_none_of_isAt hat))
  · exact h

theorem Sound.onLost (h : m.Sound) (epoch : Epoch) (phases : List Phase) :
    (m.onLost epoch phases).1.Sound := by
  unfold Machine.onLost
  split
  · rename_i hat
    exact sound_retryAfterEnd (h.desired_of_phase (phase_ne_none_of_isAt hat))
  · exact h

theorem Sound.onRetryFired (h : m.Sound) (epoch : Epoch) : (m.onRetryFired epoch).1.Sound := by
  unfold Machine.onRetryFired
  split
  · rename_i hw
    obtain ⟨hd, hp⟩ := h.of_waiting (by simp [hw.2])
    split
    · exact sound_startAttempt hd (.inr rfl)
    · rename_i ha
      refine { h with
        desired := fun _ => .inr (.inr ⟨hp, rfl⟩)
        undesired := fun hn => absurd (hd.symm.trans hn) nofun
        deferred := fun _ => Bool.eq_false_iff.mpr ha }
  · exact h

theorem Sound.handle (h : m.Sound) (i : Input) : (m.handle i).1.Sound := by
  cases i with
  | connect => exact h.onConnect
  | disconnect => exact sound_onDisconnect m
  | opened epoch => exact h.onOpened epoch
  | openFailed epoch error => exact h.onOpenFailed epoch error
  | frame epoch frame => exact h.onFrame epoch frame
  | transportError epoch error => exact h
  | closed epoch => exact h.onClosed epoch
  | stalled epoch => exact h.onLost epoch _
  | handshakeTimedOut epoch => exact h.onLost epoch _
  | retryFired epoch => exact h.onRetryFired epoch
  | host active => exact h.onHost active

theorem sound_run (h : m.Sound) (inputs : List Input) : (m.run inputs).1.Sound :=
  run_induction h (fun _ i h => h.handle i) inputs

/-! ### What a connection waits for -/

/-- **What a wanted connection waits for**: the end of its attempt, the timer
of its retry, or the host. -/
def awaited (m : Machine) : Input :=
  match m.phase, m.retry with
  | some _, _ => .closed m.epoch
  | none, .scheduled => .retryFired m.epoch
  | none, .idle | none, .deferred => .host true

theorem scheduleRetry_phase (m : Machine) : m.scheduleRetry.1.phase = m.phase := by
  unfold scheduleRetry
  split
  · split
    · simp only [Step.andThen, setStatus_fst]
    · rw [terminate_fst]
  · rw [setStatus_fst]

/-- An attempt that is under way can end. -/
theorem phase_onClosed (m : Machine) : (m.onClosed m.epoch).1.phase = none := by
  unfold onClosed
  split
  · exact scheduleRetry_phase m.endAttempt.1
  · rename_i hno
    cases hp : m.phase with
    | none => exact hp
    | some p =>
      refine absurd ?_ hno
      rw [isAt, hp]
      cases p <;> simp

/-- **A wanted connection is never stuck**: what it waits for changes it. -/
theorem Sound.handle_awaited_ne (h : m.Sound) (hd : m.desired = true) :
    (m.handle m.awaited).1 ≠ m := by
  intro heq
  unfold awaited at heq
  cases hp : m.phase with
  | some p =>
    rw [hp] at heq
    exact absurd (hp.symm.trans ((congrArg phase heq).symm.trans (phase_onClosed m))) nofun
  | none =>
    rw [hp] at heq
    rcases h.waiting hd hp with hr | hr
    · rw [hr] at heq
      have hfired : (m.onRetryFired m.epoch).1 = m := heq
      rw [Machine.onRetryFired, if_pos ⟨rfl, hr⟩] at hfired
      split at hfired
      · have hopen := congrArg phase hfired
        rw [startAttempt_fst, hp] at hopen
        nomatch hopen
      · exact absurd (hr.symm.trans (congrArg retry hfired).symm) nofun
    · rw [hr] at heq
      have hhost : (m.onHost true).1 = m := heq
      rw [Machine.onHost, if_pos ⟨rfl, hd, hp⟩] at hhost
      have hopen := congrArg phase hhost
      simp only [Step.andThen, startAttempt_fst, hp] at hopen
      nomatch hopen

/-- **At any time of any run** the machine is sound. It is never stuck: what
a wanted connection waits for moves it on. To want it once more has no
effect and changes nothing. -/
theorem run_sound_never_stuck (backoff : Backoff) (protocol : UInt32) (timeout : Duration)
    (hostActive : Bool) (inputs : List Input) :
    let m := ((initial backoff protocol timeout hostActive).run inputs).1
    m.Sound
      ∧ (m.desired = true → (m.handle m.awaited).1 ≠ m)
      ∧ (m.desired = true → m.handle .connect = (m, [])) := by
  intro m
  have h : m.Sound := sound_run (sound_initial backoff protocol timeout hostActive) inputs
  exact ⟨h, h.handle_awaited_ne, h.onConnect_of_desired⟩

end Machine

end LiveSync.Connection
