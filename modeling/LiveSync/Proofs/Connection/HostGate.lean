import LiveSync.Proofs.Connection.GivenUp

/-!
# Attempts wait for the host

A suspended host must not open connections, and a host that comes back should
not have to wait for a timer. So an attempt is opened only while the host is
active, a retry that comes due while it is not is put off, and when the host
returns whatever was waiting – for its timer or for the host – starts at once
(`Machine.Resumes`).

Two things could go wrong. A retry that is put off has no timer any more, and
would be lost if anything but the host's return took it up. And a retry that the
host's return takes up still has a timer, whose message may be on its way: it
must not open a second attempt. What protects against that is the epoch. A retry
is scheduled under the epoch of its time, the host's return moves the epoch on,
and epochs never go back (`Outcome.epochs`).
-/

namespace LiveSync.Connection

namespace Machine

variable {m : Machine} {i : Input} {s : Step}

theorem not_mem_of_silent {effects : List Effect} (h : Silent effects) {x : Effect}
    (hx : x.pursues = true) : x ∉ effects :=
  fun hmem => Bool.noConfusion ((h x hmem).symm.trans hx)

theorem endAfter_fst (closing : List Effect) (m : Machine) :
    (m.endAfter closing).1 = { m with phase := none } := rfl

theorem setStatus_snd (status : ConnectionStatus) (m : Machine) :
    (setStatus status m).2 = []
      ∨ (setStatus status m).2 = [.statusChanged status m.backoff.attempts] := by
  unfold setStatus
  split
  · exact .inr rfl
  · exact .inl rfl

/-! ### Who may open an attempt -/

/-- **An attempt is opened only on an active host.** -/
theorem Outcome.hostActive_of_open (ho : m.Outcome i s) {e : Epoch} (h : .open e ∈ s.2) :
    s.1.hostActive = true := by
  have hloud : ¬ Silent s.2 := fun hsilent => not_mem_of_silent hsilent rfl h
  have htold {status : ConnectionStatus} {m : Machine} : .open e ∉ (setStatus status m).2 :=
    not_mem_of_silent (silent_setStatus status m) rfl
  cases ho with
  | wanted _ ha | retried _ ha =>
    rw [startAttempt_fst]
    exact ha
  | returned => simp only [Step.andThen, startAttempt_fst]
  | nothing | noted | postponed => exact absurd silent_nil hloud
  | awaiting => exact absurd (silent_setStatus _ _) hloud
  | unwanted => exact absurd (silent_onDisconnect m) hloud
  | exhausted _ _ hc => exact absurd (by simp [Step.andThen, silent_endAfter hc]) hloud
  | refused => exact absurd (by simp [Step.andThen]) hloud
  | greeted | delivered => simp at h
  | established hp => simp [onHelloAck, hp, Step.andThen, Step.effect, htold] at h
  | retrying _ _ hc =>
    have hend : .open e ∉ (m.endAfter _).2 := not_mem_of_silent (silent_endAfter hc) rfl
    simp [Step.andThen, retryAfter, hend, htold] at h

/-! ### Late timers -/

/-- Epochs never go back. -/
theorem Outcome.epoch_le (ho : m.Outcome i s) : m.epoch ≤ s.1.epoch := by
  cases ho with
  | nothing | noted | postponed | greeted | delivered => exact Nat.le_refl _
  | wanted | retried | returned =>
    simp only [Step.andThen, startAttempt_fst]
    exact Nat.le_succ _
  | unwanted =>
    rw [onDisconnect_fst]
    exact Nat.le_succ _
  | established hp => simp [onHelloAck, hp, Step.andThen, Step.effect]
  | awaiting => simp
  | retrying => simp [Step.andThen, retryAfter, endAfter_fst]
  | exhausted => simp [Step.andThen, endAfter_fst]
  | refused => simp [Step.andThen, endAttempt]

/-- A retry is scheduled under the epoch of its time. -/
theorem Outcome.epoch_of_scheduleRetry (ho : m.Outcome i s) {e : Epoch} {delay : Duration}
    (h : .scheduleRetry e delay ∈ s.2) : e = s.1.epoch := by
  have hloud : ¬ Silent s.2 := fun hsilent => not_mem_of_silent hsilent rfl h
  have htold {status : ConnectionStatus} {m : Machine} :
      .scheduleRetry e delay ∉ (setStatus status m).2 :=
    not_mem_of_silent (silent_setStatus status m) rfl
  cases ho with
  | nothing | noted | postponed => exact absurd silent_nil hloud
  | awaiting => exact absurd (silent_setStatus _ _) hloud
  | unwanted => exact absurd (silent_onDisconnect m) hloud
  | exhausted _ _ hc => exact absurd (by simp [Step.andThen, silent_endAfter hc]) hloud
  | refused => exact absurd (by simp [Step.andThen]) hloud
  | greeted | delivered => simp at h
  | wanted | retried | returned => simp [startAttempt, Step.andThen, htold] at h
  | established hp => simp [onHelloAck, hp, Step.andThen, Step.effect, htold] at h
  | retrying _ _ hc =>
    have hend : .scheduleRetry e delay ∉ (m.endAfter _).2 :=
      not_mem_of_silent (silent_endAfter hc) rfl
    have hscheduled : e = m.epoch := by
      simp [Step.andThen, retryAfter, hend, htold, endAfter_fst] at h
      exact h.1
    simp [hscheduled, Step.andThen, retryAfter, endAfter_fst]

theorem Sound.epoch_le_run (h : m.Sound) (inputs : List Input) :
    m.epoch ≤ (m.run inputs).1.epoch := by
  induction inputs using List.reverseRecOn with
  | nil => exact Nat.le_refl _
  | append_singleton inputs i ih =>
    rw [run_concat]
    exact Nat.le_trans ih ((sound_run h inputs).outcome i).epoch_le

/-- The retries of a run were scheduled under epochs up to the present one. -/
theorem Sound.scheduled_le_run (h : m.Sound) (inputs : List Input) {e : Epoch}
    {delay : Duration} (hr : .scheduleRetry e delay ∈ (m.run inputs).2) :
    e ≤ (m.run inputs).1.epoch := by
  induction inputs using List.reverseRecOn with
  | nil => nomatch hr
  | append_singleton inputs i ih =>
    have hstep := (sound_run h inputs).outcome i
    rw [run_concat] at hr ⊢
    rcases List.mem_append.mp hr with hbefore | hnow
    · exact Nat.le_trans (ih hbefore) hstep.epoch_le
    · exact Nat.le_of_eq (hstep.epoch_of_scheduleRetry hnow)

/-- A timer of an earlier epoch is not heard. -/
theorem handle_retryFired_of_ne {e : Epoch} (h : e ≠ m.epoch) :
    m.handle (.retryFired e) = (m, []) :=
  if_neg fun hw => h hw.1

/-! ### The host's return -/

/-- **A step that takes up what was waiting**: the retry is cancelled, exactly
one attempt is opened under a new epoch, and all retries are given back. -/
structure Resumes (m : Machine) (s : Step) : Prop where
  effects : ∃ told, s.2 = .cancelRetry :: .open (m.epoch + 1) :: told
    ∧ (told = [] ∨ told = [.statusChanged m.statusOnReturn 0])
  epoch : s.1.epoch = m.epoch + 1
  phase : s.1.phase = some .opening
  retry : s.1.retry = .idle
  attempts : s.1.backoff.attempts = 0
  hostActive : s.1.hostActive = true

/-- **A wanted connection without an attempt resumes** when the host says that
it is active, whatever the host said before. -/
theorem resumes_return (hd : m.desired = true) (hp : m.phase = none) :
    m.Resumes (m.handle (.host true)) := by
  let back : Machine := { m with hostActive := true, backoff := m.backoff.reset }
  have heq : m.handle (.host true)
      = Step.andThen (back, [.cancelRetry]) fun m => m.startAttempt m.statusOnReturn :=
    if_pos ⟨rfl, hd, hp⟩
  rw [heq]
  refine ⟨⟨_, rfl, setStatus_snd _ _⟩, ?_, ?_, ?_, ?_, ?_⟩ <;>
    simp only [Step.andThen, startAttempt_fst] <;> rfl

/-- What the host says is only noted, unless it returns to a wanted connection
without an attempt. -/
theorem handle_host_of_not {active : Bool}
    (h : active = true → m.desired = true → m.phase ≠ none) :
    m.handle (.host active) = ({ m with hostActive := active }, []) :=
  if_neg fun hgo => h hgo.1 hgo.2.1 hgo.2.2

/-- **A retry that is due waits for an inactive host**, and unless the user
changes his mind it is there when the host returns. -/
theorem Sound.resumes_postponed (h : m.Sound) (hr : m.retry = .scheduled)
    (ha : m.hostActive = false) {waiting : List Input} (hd : .disconnect ∉ waiting)
    (hh : .host true ∉ waiting) :
    let due : Machine := { m with retry := .deferred }
    m.run (.retryFired m.epoch :: waiting) = (due, []) ∧ due.Resumes (due.handle (.host true)) := by
  intro due
  have hdue : m.handle (.retryFired m.epoch) = (due, []) := by
    show m.onRetryFired m.epoch = _
    rw [Machine.onRetryFired, if_pos ⟨rfl, hr⟩, if_neg (Bool.eq_false_iff.mp ha)]
  have hsound : due.Sound := by
    have hhandle := h.handle (.retryFired m.epoch)
    rwa [hdue] at hhandle
  obtain ⟨hdesired, hphase⟩ := h.of_waiting (by simp [hr])
  rw [run_cons, Step.andThen, hdue, hsound.run_deferred rfl hd hh]
  exact ⟨rfl, resumes_return hdesired hphase⟩

/-- **Attempts wait for the host, and none of them is lost.** After any inputs,

* an input that leaves the host inactive opens no attempt;
* a retry that comes due on an inactive host has no effects, and is taken up
  when the host returns, whatever else came in until then but the user's no;
* when the host returns, or says once more that it is active, and the connection
  is wanted but there is no attempt, that very step cancels the retry, gives all
  retries back and opens one attempt, whose epoch is greater than all before; no
  timer that was started earlier has an effect after that, however late;
* anything else that the host says has no effects. -/
theorem attempts_wait_for_host (backoff : Backoff) (protocol : UInt32) (timeout : Duration)
    (hostActive : Bool) (before : List Input) :
    let past := (initial backoff protocol timeout hostActive).run before
    let m := past.1
    (∀ i, (m.handle i).1.hostActive = hostAfter hostActive (before ++ [i])
        ∧ ((m.handle i).1.hostActive = false → ∀ e, .open e ∉ (m.handle i).2))
      ∧ (m.retry = .scheduled → m.hostActive = false →
          ∀ waiting, .disconnect ∉ waiting → .host true ∉ waiting →
            let due : Machine := { m with retry := .deferred }
            m.run (.retryFired m.epoch :: waiting) = (due, [])
              ∧ due.Resumes (due.handle (.host true)))
      ∧ (m.desired = true → m.phase = none →
          let resumed := m.handle (.host true)
          (m.retry = .scheduled ∨ m.retry = .deferred) ∧ m.Resumes resumed
            ∧ (∀ e, .open e ∈ past.2 → e < m.epoch + 1)
            ∧ ∀ e delay, .scheduleRetry e delay ∈ past.2 → ∀ later,
                let after := (resumed.1.run later).1
                after.handle (.retryFired e) = (after, []))
      ∧ ∀ active, (active = true → m.desired = true → m.phase ≠ none) →
          m.handle (.host active) = ({ m with hostActive := active }, []) := by
  intro past m
  have hstart := sound_initial backoff protocol timeout hostActive
  have hm : m.Sound := sound_run hstart before
  have hhost : m.hostActive = hostAfter hostActive before := hstart.hostActive_run before
  refine ⟨fun i => ⟨?_, fun hinactive e hopen => ?_⟩, fun hr ha waiting hd hh => ?_,
    fun hd hp => ⟨hm.waiting hd hp, resumes_return hd hp, fun e he => ?_, ?_⟩, fun active h => ?_⟩
  · rw [hostAfter_concat, ← hhost]
    exact (hm.outcome i).hostActive_eq
  · exact Bool.false_ne_true (hinactive.symm.trans ((hm.outcome i).hostActive_of_open hopen))
  · exact hm.resumes_postponed hr ha hd hh
  · obtain ⟨c, hreads, hon⟩ := exists_reads_run hstart
      (onCourse_initial backoff protocol timeout hostActive) before
    exact Nat.lt_succ_of_le (hon.open_le hreads he)
  · intro e delay hscheduled later after
    -- the epoch has moved on since the retry was scheduled
    have hpast : e ≤ m.epoch := hstart.scheduled_le_run before hscheduled
    have hresumed : (m.handle (.host true)).1.epoch = m.epoch + 1 := (resumes_return hd hp).epoch
    have hlater : (m.handle (.host true)).1.epoch ≤ after.epoch :=
      (hm.handle (.host true)).epoch_le_run later
    rw [hresumed] at hlater
    exact handle_retryFired_of_ne (Nat.ne_of_lt (Nat.lt_of_le_of_lt hpast hlater))
  · exact handle_host_of_not h

/-- The host is suspended while a retry waits for its timer. The timer fires and
the retry is put off; and if the host returns first, the timer fires when the
next retry is waiting already. -/
theorem attempts_wait_for_host_suspended :
    let start := initial (.start (.ofMillis 100) (.ofMillis 400) 5) 1 (.ofMillis 500) true
    let m := (start.run [.connect, .opened 1, .closed 1, .host false]).1
    let due : Machine := { m with retry := .deferred }
    let after := ((m.handle (.host true)).1.run [.closed 2]).1
    m.retry = .scheduled ∧ m.hostActive = false
      ∧ m.run [.retryFired m.epoch, .connect, .host false] = (due, [])
      ∧ due.Resumes (due.handle (.host true))
      ∧ after.retry = .scheduled ∧ after.handle (.retryFired 1) = (after, []) := by
  intro start m due after
  have hr : m.retry = .scheduled := by decide
  have ha : m.hostActive = false := by decide
  have hafter : after.retry = .scheduled := by decide
  have hpast : .scheduleRetry 1 (.ofMillis 100)
      ∈ (start.run [.connect, .opened 1, .closed 1, .host false]).2 := by decide
  obtain ⟨-, hpostponed, hreturn, -⟩ := attempts_wait_for_host
    (.start (.ofMillis 100) (.ofMillis 400) 5) 1 (.ofMillis 500) true
    [.connect, .opened 1, .closed 1, .host false]
  obtain ⟨hrun, hresumes⟩ := hpostponed hr ha [.connect, .host false] (by decide) (by decide)
  obtain ⟨-, -, -, hlate⟩ := hreturn (by decide) (by decide)
  -- the steps must not be evaluated to see that both sides speak of the same ones
  with_reducible exact ⟨hr, ha, hrun, hresumes, hafter, hlate 1 (.ofMillis 100) hpast [.closed 2]⟩

end Machine

end LiveSync.Connection
