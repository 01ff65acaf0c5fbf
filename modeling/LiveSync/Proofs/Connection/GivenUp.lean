import LiveSync.Proofs.Connection.Outcomes
import LiveSync.Proofs.Connection.Isolation

/-!
# A connection that is given up

A connection is given up when the user no longer wants it, when an attempt
cannot be opened for a reason that will not go away, and when all retries
have been used. Much may be under way at that moment: the close of the
attempt, frames that came before it, the timer of a retry, a report of the
host. None of it brings the connection back. Nothing that works towards a
connection is asked for any more (`Silent`), until the user wants the
connection again – and then an attempt starts, at once if the host is active
and otherwise as soon as it is.
-/

namespace LiveSync.Connection

/-- Whether an effect works towards a connection. -/
def Effect.pursues : Effect → Bool
  | .open _ | .send _ _ | .startHandshakeTimer _ _ | .scheduleRetry _ _ | .established _ _
  | .deliver _ => true
  | .close _ | .cancelHandshakeTimer | .cancelRetry | .attemptEnded _ | .statusChanged _ _
  | .failed _ => false

/-- **Effects none of which works towards a connection.** -/
def Silent (effects : List Effect) : Prop := ∀ x ∈ effects, x.pursues = false

@[simp] theorem silent_nil : Silent [] := nofun

@[simp] theorem silent_cons {x : Effect} {effects : List Effect} :
    Silent (x :: effects) ↔ x.pursues = false ∧ Silent effects :=
  List.forall_mem_cons

@[simp] theorem silent_append {effects effects' : List Effect} :
    Silent (effects ++ effects') ↔ Silent effects ∧ Silent effects' :=
  List.forall_mem_append

/-- Whether the host is active after an input, if it was active or not
before. -/
def Input.hostAfter (active : Bool) : Input → Bool
  | .host now => now
  | .connect | .disconnect | .opened _ | .openFailed _ _ | .frame _ _ | .transportError _ _
  | .closed _ | .stalled _ | .handshakeTimedOut _ | .retryFired _ => active

/-- **Whether the host is active after inputs**: what it said last counts. -/
def hostAfter (active : Bool) (inputs : List Input) : Bool := inputs.foldl Input.hostAfter active

theorem hostAfter_concat (active : Bool) (inputs : List Input) (i : Input) :
    hostAfter active (inputs ++ [i]) = i.hostAfter (hostAfter active inputs) := by
  rw [hostAfter, List.foldl_append]
  rfl

namespace Machine

variable {m : Machine} {i : Input} {s : Step}

/-! ### What the steps ask for -/

@[simp] theorem silent_setStatus (status : ConnectionStatus) (m : Machine) :
    Silent (setStatus status m).2 := by
  unfold setStatus
  split <;> simp [Effect.pursues]

@[simp] theorem silent_terminate (error : Failure) (m : Machine) :
    Silent (terminate error m).2 := by
  simp [terminate, Step.effect, Step.andThen, Effect.pursues]

@[simp] theorem silent_endAttempt (m : Machine) : Silent m.endAttempt.2 := by
  unfold endAttempt
  split <;> simp [Effect.pursues]

@[simp] theorem silent_abandonAttempt (m : Machine) : Silent m.abandonAttempt.2 := by
  unfold abandonAttempt
  split <;> simp [still, Step.andThen, Effect.pursues]

theorem silent_endAfter {closing : List Effect} (hc : closing = [] ∨ closing = [.close m.epoch]) :
    Silent (m.endAfter closing).2 := by
  rcases hc with rfl | rfl <;> simp [endAfter, Step.andThen, Effect.pursues]

theorem silent_onDisconnect (m : Machine) : Silent m.onDisconnect.2 := by
  simp [onDisconnect, Step.andThen, Effect.pursues]

@[simp] theorem failed_not_mem_startAttempt (error : Failure) (status : ConnectionStatus)
    (m : Machine) : .failed error ∉ (startAttempt status m).2 := by
  simp [startAttempt, Step.andThen]

@[simp] theorem failed_not_mem_endAttempt (error : Failure) (m : Machine) :
    .failed error ∉ m.endAttempt.2 := by
  unfold endAttempt
  split <;> simp

/-! ### Giving up -/

/-- **An input that gives the connection up** leaves it unwanted, and asks for
nothing that works towards it. -/
theorem Outcome.of_stop (ho : m.Outcome i s) (h : i = .disconnect ∨ ∃ error, .failed error ∈ s.2) :
    s.1.desired = false ∧ Silent s.2 := by
  cases ho with
  | unwanted =>
    rw [onDisconnect_fst]
    exact ⟨rfl, silent_onDisconnect m⟩
  | exhausted hi hp hc hn =>
    refine ⟨by simp [Step.andThen], ?_⟩
    rcases hc with rfl | rfl <;> simp [endAfter, Step.andThen, Effect.pursues]
  | refused hp ht => exact ⟨by simp [Step.andThen], by simp [Step.andThen]⟩
  | nothing hi => simp [hi] at h
  | retrying hi hp hc hn =>
    have hne : i ≠ .disconnect := by
      rintro rfl
      cases hi
    rcases hc with rfl | rfl <;> simp [hne, endAfter, retryAfter, Step.andThen] at h
  | established hp => simp [onHelloAck, hp, Step.andThen, Step.effect] at h
  | wanted | awaiting | returned | noted | greeted | delivered | retried | postponed =>
    simp [Step.andThen] at h

/-- **While nothing is under way**, nothing comes of an input, unless it is
the user's or the host's. -/
theorem Outcome.of_idle (ho : m.Outcome i s) (hp : m.phase = none) (hr : m.retry ≠ .scheduled) :
    s = (m, []) ∨ i = .connect ∧ m.desired = false ∨ i = .disconnect
      ∨ ∃ active, i = .host active
        ∧ ((active = true → m.desired = false) → s = ({ m with hostActive := active }, [])) := by
  cases ho with
  | nothing => exact .inl rfl
  | wanted hd => exact .inr (.inl ⟨rfl, hd⟩)
  | awaiting hd => exact .inr (.inl ⟨rfl, hd⟩)
  | unwanted => exact .inr (.inr (.inl rfl))
  | noted => exact .inr (.inr (.inr ⟨_, rfl, fun _ => rfl⟩))
  | returned hd =>
    exact .inr (.inr (.inr ⟨true, rfl, fun hno => absurd (hd.symm.trans (hno rfl)) nofun⟩))
  | greeted hp' => exact absurd (hp.symm.trans hp') nofun
  | established hp' => exact absurd (hp.symm.trans hp') nofun
  | refused hp' => exact absurd (hp.symm.trans hp') nofun
  | delivered hp' => simp [hp] at hp'
  | retried hr' => exact absurd hr' hr
  | postponed hr' => exact absurd hr' hr
  | retrying _ hp' => exact absurd hp hp'
  | exhausted _ hp' => exact absurd hp hp'

/-- **A connection that is not wanted** stays so until the user wants it, and
nothing is asked for that works towards it. -/
theorem Outcome.of_undesired (ho : m.Outcome i s) (h : m.Sound) (hd : m.desired = false)
    (hi : i ≠ .connect) : s.1.desired = false ∧ Silent s.2 := by
  obtain ⟨hphase, hretry⟩ := h.undesired hd
  rcases ho.of_idle hphase (by simp [hretry]) with rfl | ⟨hc, -⟩ | hdis | ⟨active, -, hnoted⟩
  · exact ⟨hd, silent_nil⟩
  · exact absurd hc hi
  · exact ho.of_stop (.inl hdis)
  · rw [hnoted fun _ => hd]
    exact ⟨hd, silent_nil⟩

/-- **While the user does not want a connection**, whatever inputs come in,
it stays unwanted, and nothing is asked for that works towards it. -/
theorem Sound.run_undesired (h : m.Sound) (hd : m.desired = false) {inputs : List Input}
    (hinputs : .connect ∉ inputs) :
    (m.run inputs).1.desired = false ∧ Silent (m.run inputs).2 := by
  induction inputs using List.reverseRecOn with
  | nil => exact ⟨hd, silent_nil⟩
  | append_singleton inputs i ih =>
    rw [List.mem_append, List.mem_singleton, not_or] at hinputs
    obtain ⟨hd', hsilent⟩ := ih hinputs.1
    have hsound := sound_run h inputs
    have hstep := (hsound.outcome i).of_undesired hsound hd' (Ne.symm hinputs.2)
    rw [run_concat]
    exact ⟨hstep.1, silent_append.mpr ⟨hsilent, hstep.2⟩⟩

/-! ### Wanting it again -/

/-- Only the host tells whether it is active. -/
theorem Outcome.hostActive_eq (ho : m.Outcome i s) :
    s.1.hostActive = i.hostAfter m.hostActive := by
  have hloss {i : Input} (hi : i.isLoss = true) : i.hostAfter m.hostActive = m.hostActive := by
    cases i <;> first | rfl | cases hi
  cases ho with
  | nothing _ hh =>
    cases i with
    | host active => exact absurd rfl (hh active)
    | _ => rfl
  | retrying hi => simp [hloss hi, retryAfter, endAfter, endAttempt, Step.andThen]
  | exhausted hi => simp [hloss hi, endAfter, endAttempt, Step.andThen]
  | established hp => simp [onHelloAck, hp, Step.andThen, Step.effect, Input.hostAfter]
  | wanted | awaiting | unwanted | returned | noted | greeted | delivered | retried | postponed
  | refused => simp [Step.andThen, endAttempt, Input.hostAfter]

theorem run_append (m : Machine) (inputs inputs' : List Input) :
    m.run (inputs ++ inputs') = Step.andThen (m.run inputs) (run · inputs') := by
  induction inputs generalizing m with
  | nil => rfl
  | cons i inputs ih =>
    rw [List.cons_append, run_cons, run_cons, Step.andThen, ih]
    simp only [Step.andThen, List.append_assoc]

/-- The host is as it said last. -/
theorem Sound.hostActive_run (h : m.Sound) (inputs : List Input) :
    (m.run inputs).1.hostActive = hostAfter m.hostActive inputs := by
  induction inputs using List.reverseRecOn with
  | nil => rfl
  | append_singleton inputs i ih =>
    rw [run_concat, hostAfter_concat, ← ih]
    exact ((sound_run h inputs).outcome i).hostActive_eq

/-- The attempts that were opened have the epochs up to the present one. -/
theorem OnCourse.open_le {effects : List Effect} {c : Course} {e : Epoch} (hon : m.OnCourse c)
    (hreads : Course.Reads .start effects c) (he : .open e ∈ effects) : e ≤ m.epoch := by
  obtain ⟨ended, -, hle, hfilter⟩ := hreads.boundaries
  have hmem : .open e ∈ effects.filter Effect.isBoundary := List.mem_filter.mpr ⟨he, rfl⟩
  rw [hfilter] at hmem
  refine Nat.le_trans ?_ hon.epoch_le
  have hcases : e ∈ ended ∨ e ∈ c.live := by simpa using hmem
  rcases hcases with h | h
  · exact hle e h
  · unfold Course.live at h
    split at h
    · cases h
    · exact Nat.le_of_eq (List.mem_singleton.mp h)

/-- **A connection that waits for the host** hears nothing else, unless the
user no longer wants it. -/
theorem Sound.handle_deferred (h : m.Sound) (hr : m.retry = .deferred) (hd : i ≠ .disconnect)
    (hh : i ≠ .host true) : m.handle i = (m, []) := by
  obtain ⟨hdesired, hphase⟩ := h.of_waiting (by simp [hr])
  have hinactive := h.deferred hr
  rcases (h.outcome i).of_idle hphase (by simp [hr]) with
    heq | ⟨-, hd'⟩ | hdis | ⟨active, rfl, hnoted⟩
  · exact heq
  · exact absurd (hdesired.symm.trans hd') nofun
  · exact absurd hdis hd
  · cases active with
    | true => exact absurd rfl hh
    | false => rw [hnoted nofun, ← hinactive]

theorem Sound.run_deferred (h : m.Sound) (hr : m.retry = .deferred) {inputs : List Input}
    (hd : .disconnect ∉ inputs) (hh : .host true ∉ inputs) : m.run inputs = (m, []) := by
  induction inputs with
  | nil => rfl
  | cons i inputs ih =>
    rw [List.mem_cons, not_or] at hd hh
    rw [run_cons, h.handle_deferred hr (Ne.symm hd.1) (Ne.symm hh.1), Step.andThen, ih hd.2 hh.2]
    rfl

/-- **A step that opens an attempt**, which is being opened after it. -/
structure Opens (e : Epoch) (s : Step) : Prop where
  asked : .open e ∈ s.2
  epoch : s.1.epoch = e
  phase : s.1.phase = some .opening

theorem opens_startAttempt (status : ConnectionStatus) (m : Machine) :
    Opens (m.epoch + 1) (startAttempt status m) where
  asked := List.mem_append_left _ (List.mem_singleton_self _)
  epoch := by rw [startAttempt_fst]
  phase := by rw [startAttempt_fst]

/-- The host's return starts the attempt that waited for it. -/
theorem Sound.opens_return (h : m.Sound) (hr : m.retry = .deferred) :
    Opens (m.epoch + 1) (m.handle (.host true)) := by
  obtain ⟨hd, hp⟩ := h.of_waiting (by simp [hr])
  have heq : m.handle (.host true) = Step.andThen
      ({ m with hostActive := true, backoff := m.backoff.reset }, [.cancelRetry])
      fun m => m.startAttempt m.statusOnReturn := if_pos ⟨rfl, hd, hp⟩
  obtain ⟨hasked, hepoch, hphase⟩ := opens_startAttempt m.statusOnReturn
    { m with hostActive := true, backoff := m.backoff.reset }
  rw [heq]
  exact ⟨List.mem_append_right _ hasked, hepoch, hphase⟩

/-! To want a connection that is not wanted has an effect at once. -/

theorem wanted_onConnect (hd : m.desired = false) :
    m.onConnect.1.desired = true ∧ m.onConnect.1.status = .connecting := by
  cases ha : m.hostActive with
  | true =>
    rw [onConnect_of_active hd ha, startAttempt_fst]
    exact ⟨rfl, rfl⟩
  | false =>
    rw [onConnect_of_inactive hd ha, setStatus_fst]
    exact ⟨rfl, rfl⟩

theorem opens_onConnect (hd : m.desired = false) (ha : m.hostActive = true) :
    Opens (m.epoch + 1) m.onConnect := by
  rw [onConnect_of_active hd ha]
  exact opens_startAttempt .connecting { m with desired := true, backoff := m.backoff.reset }

theorem deferred_onConnect (hd : m.desired = false) (ha : m.hostActive = false) :
    m.onConnect.1.retry = .deferred ∧ m.onConnect.1.epoch = m.epoch ∧ Silent m.onConnect.2 := by
  rw [onConnect_of_inactive hd ha]
  exact ⟨by rw [setStatus_fst], by rw [setStatus_fst], silent_setStatus _ _⟩

/-- **A connection that is given up stays given up.** After the user no longer
wants it or it has failed, and until the user wants it again, nothing is
asked for that works towards it, whatever comes in; its status stays
`disconnected` and no retry waits for the host. When the user wants it again,
an attempt starts whose epoch is greater than all before: at once if the host
is active, and otherwise when it next says that it is. -/
theorem given_up_until_wanted (backoff : Backoff) (protocol : UInt32) (timeout : Duration)
    (hostActive : Bool) (before : List Input) (i : Input) (later : List Input)
    (hstop : i = .disconnect ∨ ∃ error, .failed error ∈
      (((initial backoff protocol timeout hostActive).run before).1.handle i).2)
    (hlater : .connect ∉ later) :
    let start := initial backoff protocol timeout hostActive
    let stopped := (start.run before).1.handle i
    let rest := stopped.1.run later
    let again := rest.1.handle .connect
    let fresh := rest.1.epoch + 1
    Silent (stopped.2 ++ rest.2) ∧ rest.1.status = .disconnected ∧ rest.1.retry ≠ .deferred
      ∧ (∀ e, .open e ∈ (start.run (before ++ i :: later)).2 → e < fresh)
      ∧ again.1.desired = true ∧ again.1.status = .connecting
      ∧ (hostAfter hostActive (before ++ i :: later) = true → Opens fresh again)
      ∧ (hostAfter hostActive (before ++ i :: later) = false →
          ∀ waiting, .disconnect ∉ waiting → .host true ∉ waiting →
            let waited := again.1.run waiting
            (∀ e, .open e ∉ again.2 ++ waited.2)
              ∧ Opens fresh (waited.1.handle (.host true))) := by
  intro start stopped rest again fresh
  have hstart : start.Sound := sound_initial backoff protocol timeout hostActive
  have hbefore : (start.run before).1.Sound := sound_run hstart before
  have hsound : stopped.1.Sound := hbefore.handle i
  have hrest : rest.1.Sound := sound_run hsound later
  -- the connection is not wanted, from the stop to the end of the rest
  obtain ⟨hstopped, hsilent⟩ := (hbefore.outcome i).of_stop hstop
  obtain ⟨hd, hsilent'⟩ := hsound.run_undesired hstopped hlater
  have hrun : start.run (before ++ i :: later)
      = (rest.1, (start.run before).2 ++ (stopped.2 ++ rest.2)) := by
    rw [run_append, Step.andThen, run_cons]
    rfl
  have hhost : rest.1.hostActive = hostAfter hostActive (before ++ i :: later) := by
    have hlast := hstart.hostActive_run (before ++ i :: later)
    rwa [hrun] at hlast
  rw [← hhost]
  refine ⟨silent_append.mpr ⟨hsilent, hsilent'⟩, hrest.disconnected_iff.mpr hd, ?_, ?_,
    (wanted_onConnect hd).1, (wanted_onConnect hd).2, opens_onConnect hd, ?_⟩
  · rw [(hrest.undesired hd).2]
    decide
  · intro e he
    obtain ⟨c, hreads, hon⟩ := exists_reads_run hstart
      (onCourse_initial backoff protocol timeout hostActive) (before ++ i :: later)
    have hle := hon.open_le hreads he
    rw [hrun] at hle
    exact Nat.lt_succ_of_le hle
  · intro ha waiting hdisconnect hreturn waited
    obtain ⟨hr, hepoch, hquiet⟩ := deferred_onConnect hd ha
    have hagain : again.1.Sound := hrest.handle .connect
    have hwaited : waited = (again.1, []) := hagain.run_deferred hr hdisconnect hreturn
    rw [hwaited, List.append_nil, show fresh = again.1.epoch + 1 from congrArg (· + 1) hepoch.symm]
    exact ⟨fun e he => Bool.noConfusion (hquiet _ he), hagain.opens_return hr⟩

/-- All retries have been used while the host was active. Late inputs of both
attempts and the host's absence are heard of afterwards, the user wants the
connection again, and the host returns. -/
theorem given_up_until_wanted_exhausted :
    let start := initial (.start (.ofMillis 100) (.ofMillis 400) 1) 1 (.ofMillis 500) true
    let before : List Input := [.connect, .opened 1, .closed 1, .retryFired 1]
    let refused : Input := .openFailed 2 (.transport (.connect "refused"))
    let later : List Input := [.closed 2, .retryFired 2, .frame 1 (.invalidated none), .host false]
    let stopped := (start.run before).1.handle refused
    let rest := stopped.1.run later
    let again := rest.1.handle .connect
    .failed (.connection (.attemptsExhausted 1)) ∈ stopped.2 ∧ .connect ∉ later
      ∧ Silent (stopped.2 ++ rest.2) ∧ rest.1.status = .disconnected
      ∧ rest.1.epoch + 1 = 3
      ∧ Opens (rest.1.epoch + 1)
        ((again.1.run [.retryFired 2, .connect]).1.handle (.host true)) := by
  intro start before refused later stopped rest again
  have hfailed : .failed (.connection (.attemptsExhausted 1)) ∈ stopped.2 := by decide
  have hlater : .connect ∉ later := by decide
  have hepoch : rest.1.epoch + 1 = 3 := by decide
  have haway : hostAfter true (before ++ refused :: later) = false := by decide
  obtain ⟨hsilent, hstatus, -, -, -, -, -, hreturn⟩ := given_up_until_wanted
    (.start (.ofMillis 100) (.ofMillis 400) 1) 1 (.ofMillis 500) true before refused later
    (.inr ⟨_, hfailed⟩) hlater
  obtain ⟨-, hopens⟩ := hreturn haway [.retryFired 2, .connect] (by decide) (by decide)
  -- the steps must not be evaluated to see that both sides speak of the same ones
  with_reducible exact ⟨hfailed, hlater, hsilent, hstatus, hepoch, hopens⟩

end Machine

end LiveSync.Connection
