import LiveSync.Proofs.Connection.Discipline

/-!
# Late inputs are not heard

An attempt that is over may still have inputs under way to the machine, and
so may a retry timer that was cancelled. The epoch alone does not tell them
from the others: after a close the number of the dead attempt stays the
current one until the retry starts.

What tells them is the **history** of the run, which lists the inputs and
the effects as they came (`Machine.history`). An input about an attempt is
**expected** while the attempt is under way, which is to say that it was
opened and has not ended; the input of a retry timer is expected once the
retry was scheduled, until the timer has fired or was cancelled
(`isExpected`). Inputs that are not expected change nothing, and leaving
them out of a run changes neither its effects nor its end.
-/

namespace LiveSync.Connection

/-! ### Histories -/

/-- **What happens in a run.** -/
inductive Occurrence where
  | input (i : Input)
  | effect (x : Effect)
deriving DecidableEq

/-- The effects of a history. -/
def Occurrence.effect? : Occurrence → Option Effect
  | .input _ => none
  | .effect x => some x

/-- The effects of a history, in their order. -/
def effectsOf (past : List Occurrence) : List Effect := past.filterMap Occurrence.effect?

/-- Whether an attempt was opened and has not ended. -/
def isUnderWay (past : List Occurrence) (e : Epoch) : Bool :=
  .effect (.open e) ∈ past ∧ .effect (.attemptEnded e) ∉ past

/-- Whether the retry after an attempt is due, if it was due before
something happened: it is scheduled, its timer fires, or it is cancelled. -/
def isDueAfter (e : Epoch) (due : Bool) : Occurrence → Bool
  | .effect (.scheduleRetry e' _) => due || e' = e
  | .effect .cancelRetry => false
  | .input (.retryFired e') => due && e' ≠ e
  | _ => due

/-- Whether the retry after an attempt was scheduled, and its timer neither
has fired nor was cancelled since. -/
def isDue (past : List Occurrence) (e : Epoch) : Bool := past.foldl (isDueAfter e) false

/-- **Whether an input is expected** after what has happened. -/
def isExpected (past : List Occurrence) : Input → Bool
  | .connect | .disconnect | .host _ => true
  | .opened e | .openFailed e _ | .frame e _ | .closed e | .stalled e | .handshakeTimedOut e =>
    isUnderWay past e
  | .retryFired e => isDue past e
  | .transportError _ _ => false

theorem mem_effectsOf {x : Effect} {past : List Occurrence} :
    x ∈ effectsOf past ↔ .effect x ∈ past := by
  rw [effectsOf, List.mem_filterMap]
  refine ⟨?_, fun h => ⟨_, h, rfl⟩⟩
  rintro ⟨o, ho, hx⟩
  cases o with
  | input i => cases hx
  | effect y => exact Option.some.inj hx ▸ ho

namespace Machine

open Course

variable {m : Machine} {past : List Occurrence} {i : Input} {e : Epoch}

/-- An input and what follows from it. -/
def occurrences (m : Machine) (i : Input) : List Occurrence :=
  .input i :: (m.handle i).2.map .effect

/-- **The history of a run**: every input, and after it what it led to. -/
def history (m : Machine) : List Input → List Occurrence
  | [] => []
  | i :: rest => m.occurrences i ++ (m.handle i).1.history rest

/-- **The inputs of a run that are expected when they come in**, after what
has happened before the run. -/
def expectedInputs (m : Machine) (past : List Occurrence) : List Input → List Input
  | [] => []
  | i :: rest =>
    let later := (m.handle i).1.expectedInputs (past ++ m.occurrences i) rest
    if isExpected past i then i :: later else later

theorem effectsOf_append_occurrences (m : Machine) (past : List Occurrence) (i : Input) :
    effectsOf (past ++ m.occurrences i) = effectsOf past ++ (m.handle i).2 := by
  have hmap : (m.occurrences i).filterMap Occurrence.effect? = (m.handle i).2 := by
    rw [occurrences, List.filterMap_cons_none rfl, List.filterMap_map]
    exact List.filterMap_some
  rw [effectsOf, List.filterMap_append, hmap, effectsOf]

/-- A run is its first input and the run after it. -/
theorem run_cons (m : Machine) (i : Input) (inputs : List Input) :
    m.run (i :: inputs) = Step.andThen (m.handle i) (run · inputs) := by
  induction inputs using List.reverseRecOn with
  | nil => simp [run, Step.andThen]
  | append_singleton inputs j ih =>
    rw [← List.cons_append, run_concat, ih]
    simp only [Step.andThen, run_concat, List.append_assoc]

/-! ### Retries

A retry is scheduled in one place only, and whatever takes it up or gives it
up says so. -/

/-- **A step that has scheduled a retry**, and has not cancelled it since. -/
def Schedules (s : Step) : Prop :=
  ∃ before delay after, .cancelRetry ∉ after ∧
    s.2 = before ++ .scheduleRetry s.1.epoch delay :: after

/-- **A step that leaves a scheduled retry alone.** -/
def KeepsScheduled (m : Machine) (s : Step) : Prop :=
  m.retry = .scheduled ∧ s.1.epoch = m.epoch ∧ .cancelRetry ∉ s.2

/-- **A retry that is scheduled after a step** was scheduled by it, or left
alone. -/
def AccountsFor (m : Machine) (s : Step) : Prop :=
  s.1.retry = .scheduled → Schedules s ∨ m.KeepsScheduled s

theorem AccountsFor.still (m : Machine) : m.AccountsFor m.still :=
  fun hs => .inr ⟨hs, rfl, nofun⟩

theorem AccountsFor.of_ne {s : Step} (h : s.1.retry ≠ .scheduled) : m.AccountsFor s :=
  fun hs => absurd hs h

theorem accountsFor_startAttempt (m' : Machine) (status : ConnectionStatus) :
    m.AccountsFor (m'.startAttempt status) :=
  .of_ne (by rw [startAttempt_fst]; exact nofun)

theorem Schedules.after {s : Step} (h : Schedules s) (effects : List Effect) :
    Schedules (s.1, effects ++ s.2) := by
  obtain ⟨before, delay, after, hno, heq⟩ := h
  exact ⟨effects ++ before, delay, after, hno, by rw [heq, List.append_assoc]⟩

theorem cancelRetry_not_mem_setStatus (status : ConnectionStatus) (m : Machine) :
    .cancelRetry ∉ (setStatus status m).2 := by
  unfold setStatus
  split <;> simp

theorem schedules_scheduleRetry (hd : m.desired = true)
    (hs : m.scheduleRetry.1.retry = .scheduled) : Schedules m.scheduleRetry := by
  refine ⟨[], ?_⟩
  rw [scheduleRetry_epoch]
  rw [scheduleRetry, if_pos hd] at hs ⊢
  cases hnext : m.backoff.next? with
  | some next => exact ⟨next.1, _, cancelRetry_not_mem_setStatus _ _, rfl⟩
  | none =>
    rw [hnext, terminate_fst] at hs
    cases hs

theorem schedules_retryAfterEnd (hd : m.desired = true)
    (hs : m.retryAfterEnd.1.retry = .scheduled) : Schedules m.retryAfterEnd :=
  (schedules_scheduleRetry (m := m.endAttempt.1) hd hs).after m.endAttempt.2

theorem accountsFor_onConnect (h : m.Sound) : m.AccountsFor m.onConnect := by
  cases hd : m.desired with
  | true =>
    rw [h.onConnect_of_desired hd]
    exact .still m
  | false =>
    unfold onConnect
    rw [if_neg fun hw => Bool.false_ne_true (hd.symm.trans hw.1)]
    dsimp only
    split
    · exact accountsFor_startAttempt _ _
    · exact .of_ne (by rw [setStatus_fst]; exact nofun)

theorem accountsFor_onHost (m : Machine) (active : Bool) : m.AccountsFor (m.onHost active) := by
  unfold onHost
  dsimp only
  split
  · exact .of_ne (by simp [Step.andThen])
  · exact fun hs => .inr ⟨hs, rfl, by simp [still]⟩

theorem accountsFor_onOpened (m : Machine) (epoch : Epoch) :
    m.AccountsFor (m.onOpened epoch) := by
  unfold onOpened
  split
  · exact fun hs => .inr ⟨hs, rfl, by simp⟩
  · exact .still m

theorem accountsFor_onOpenFailed (h : m.Sound) (epoch : Epoch) (error : Failure) :
    m.AccountsFor (m.onOpenFailed epoch error) := by
  unfold onOpenFailed
  split
  · rename_i hat
    by_cases ht : error.isTerminal
    · exact .of_ne (by simp [Step.andThen, ht])
    · have hd := h.desired_of_phase (phase_ne_none_of_isAt hat)
      simp only [ht]
      exact fun hs => .inl ((schedules_scheduleRetry (m := m.endAttempt.1) hd hs).after _)
  · exact .still m

theorem accountsFor_onHelloAck (m : Machine) (user : Option Int64) :
    m.AccountsFor (m.onHelloAck user) := by
  unfold onHelloAck
  split
  · intro hs
    simp only [Step.effect, Step.andThen, setStatus_fst] at hs ⊢
    refine .inr ⟨hs, rfl, ?_⟩
    simpa using cancelRetry_not_mem_setStatus .connected _
  · exact .still m

theorem accountsFor_onFrame (m : Machine) (epoch : Epoch) (frame : Wire.ServerFrame) :
    m.AccountsFor (m.onFrame epoch frame) := by
  unfold onFrame
  split
  · split
    · exact accountsFor_onHelloAck m _
    · exact fun hs => .inr ⟨hs, rfl, by simp⟩
  · exact .still m

theorem accountsFor_onClosed (h : m.Sound) (epoch : Epoch) :
    m.AccountsFor (m.onClosed epoch) := by
  unfold onClosed
  split
  · rename_i hat
    have hd := h.desired_of_phase (phase_ne_none_of_isAt hat)
    exact fun hs => .inl (schedules_retryAfterEnd hd hs)
  · exact .still m

theorem accountsFor_onLost (h : m.Sound) (epoch : Epoch) (phases : List Phase) :
    m.AccountsFor (m.onLost epoch phases) := by
  unfold onLost
  split
  · rename_i hat
    have hd := h.desired_of_phase (phase_ne_none_of_isAt hat)
    exact fun hs => .inl ((schedules_retryAfterEnd hd hs).after _)
  · exact .still m

theorem accountsFor_onRetryFired (m : Machine) (epoch : Epoch) :
    m.AccountsFor (m.onRetryFired epoch) := by
  unfold onRetryFired
  split
  · split
    · exact accountsFor_startAttempt _ _
    · exact .of_ne nofun
  · exact .still m

/-- **When a retry is scheduled after an input**, the input has scheduled it,
or it was scheduled before and the input has left it alone. -/
theorem accountsFor_handle (h : m.Sound) (i : Input) : m.AccountsFor (m.handle i) := by
  cases i with
  | connect => exact accountsFor_onConnect h
  | disconnect => exact .of_ne (by rw [handle, onDisconnect_fst]; exact nofun)
  | opened epoch => exact accountsFor_onOpened m epoch
  | openFailed epoch error => exact accountsFor_onOpenFailed h epoch error
  | frame epoch frame => exact accountsFor_onFrame m epoch frame
  | transportError epoch error => exact .still m
  | closed epoch => exact accountsFor_onClosed h epoch
  | stalled epoch => exact accountsFor_onLost h epoch _
  | handshakeTimedOut epoch => exact accountsFor_onLost h epoch _
  | retryFired epoch => exact accountsFor_onRetryFired m epoch
  | host active => exact accountsFor_onHost m active

/-- The timer of a retry takes the retry up. -/
theorem retry_handle_retryFired (m : Machine) :
    (m.handle (.retryFired m.epoch)).1.retry ≠ .scheduled := by
  rw [handle, onRetryFired]
  split
  · split <;> simp
  · rename_i hno
    exact fun hs => hno ⟨rfl, hs⟩

/-! ### What the history tells -/

/-- **The history tells what the machine knows**: which attempt is under way,
and whether its retry is due. -/
structure Recorded (m : Machine) (past : List Occurrence) : Prop where
  sound : m.Sound
  course : ∃ c, Reads .start (effectsOf past) c ∧ m.OnCourse c
  due : m.retry = .scheduled → isDue past m.epoch = true

theorem recorded_initial (backoff : Backoff) (protocol : UInt32) (timeout : Duration)
    (hostActive : Bool) : (initial backoff protocol timeout hostActive).Recorded [] where
  sound := sound_initial backoff protocol timeout hostActive
  course := ⟨.start, .nil, onCourse_initial backoff protocol timeout hostActive⟩
  due := nofun

theorem foldl_isDueAfter_of_not_mem {effects : List Effect} {due : Bool}
    (hno : .cancelRetry ∉ effects) (hdue : due = true) :
    (effects.map Occurrence.effect).foldl (isDueAfter e) due = true := by
  induction effects generalizing due with
  | nil => exact hdue
  | cons x effects ih =>
    rw [List.mem_cons, not_or] at hno
    refine ih hno.2 ?_
    cases x with
    | cancelRetry => exact absurd rfl hno.1
    | scheduleRetry => exact hdue ▸ Bool.true_or _
    | «open» | send | close | startHandshakeTimer | cancelHandshakeTimer | established
    | deliver | attemptEnded | statusChanged | failed => exact hdue

theorem Schedules.isDue (h : Schedules (m.handle i)) (past : List Occurrence) :
    isDue (past ++ m.occurrences i) (m.handle i).1.epoch = true := by
  obtain ⟨before, delay, after, hno, heq⟩ := h
  rw [Connection.isDue, occurrences, heq, List.foldl_append, List.foldl_cons, List.map_append,
    List.foldl_append, List.map_cons, List.foldl_cons]
  exact foldl_isDueAfter_of_not_mem hno (by simp [isDueAfter])

theorem KeepsScheduled.isDue (h : m.KeepsScheduled (m.handle i)) (hi : i ≠ .retryFired m.epoch)
    (hdue : isDue past m.epoch = true) :
    isDue (past ++ m.occurrences i) (m.handle i).1.epoch = true := by
  obtain ⟨-, he, hno⟩ := h
  rw [he, Connection.isDue, occurrences, List.foldl_append, List.foldl_cons]
  refine foldl_isDueAfter_of_not_mem hno ?_
  rw [← Connection.isDue, hdue]
  cases i with
  | retryFired epoch => simpa [isDueAfter] using fun h => hi (congrArg _ h)
  | connect | disconnect | opened | openFailed | frame | transportError | closed | stalled
  | handshakeTimedOut | host => rfl

theorem Recorded.handle (h : m.Recorded past) (i : Input) :
    (m.handle i).1.Recorded (past ++ m.occurrences i) where
  sound := h.sound.handle i
  course := by
    obtain ⟨c, hreads, hon⟩ := h.course
    obtain ⟨c', hreads', hon'⟩ := keepsOrder_handle h.sound hon i
    rw [effectsOf_append_occurrences]
    exact ⟨c', hreads.append hreads', hon'⟩
  due := fun hs => by
    rcases accountsFor_handle h.sound i hs with hsch | hkeep
    · exact hsch.isDue past
    · refine hkeep.isDue ?_ (h.due hkeep.1)
      -- a timer that fires would have taken the retry up
      rintro rfl
      exact retry_handle_retryFired m hs

theorem Recorded.run (h : m.Recorded past) (inputs : List Input) :
    (m.run inputs).1.Recorded (past ++ m.history inputs) := by
  induction inputs generalizing m past with
  | nil => rwa [history, List.append_nil]
  | cons i inputs ih =>
    rw [run_cons, history, ← List.append_assoc]
    exact ih (h.handle i)

/-- An attempt under way was opened and has not ended. -/
theorem Recorded.isUnderWay (h : m.Recorded past) (hp : m.phase ≠ none) :
    isUnderWay past m.epoch = true := by
  obtain ⟨c, hreads, hon⟩ := h.course
  have hne : c.stage ≠ .over := by
    rw [hon.stage, Machine.stage]
    split
    · rename_i hn
      exact absurd hn hp
    all_goals simp
  have hlive := hreads.underWay hne
  rw [hon.epoch_eq hp] at hlive
  exact decide_eq_true ⟨mem_effectsOf.mp hlive.1, fun hend => hlive.2 (mem_effectsOf.mpr hend)⟩

theorem Recorded.isAt_eq_false (h : m.Recorded past) (hx : Connection.isUnderWay past e = false)
    (phases : List Phase) : ¬ m.isAt e phases = true := by
  intro hat
  obtain ⟨rfl, -⟩ := isAt_iff.mp hat
  exact Bool.false_ne_true (hx.symm.trans (h.isUnderWay (phase_ne_none_of_isAt hat)))

/-- **An input that is not expected changes nothing and has no effect.** -/
theorem Recorded.handle_of_not_expected (h : m.Recorded past) (hx : isExpected past i = false) :
    m.handle i = (m, []) := by
  cases i with
  | connect | disconnect | host => cases hx
  | opened epoch | openFailed epoch | frame epoch | closed epoch | stalled epoch
  | handshakeTimedOut epoch => exact if_neg (h.isAt_eq_false hx _)
  | transportError => rfl
  | retryFired epoch =>
    refine if_neg fun hw => ?_
    obtain ⟨rfl, hs⟩ := hw
    exact Bool.false_ne_true (hx.symm.trans (h.due hs))

/-- Without its inputs that are not expected a run is the same. -/
theorem Recorded.run_expectedInputs (h : m.Recorded past) (inputs : List Input) :
    m.run (m.expectedInputs past inputs) = m.run inputs := by
  induction inputs generalizing m past with
  | nil => rfl
  | cons i inputs ih =>
    -- the history goes on with every input, also with one that is left out
    have hlater := ih (h.handle i)
    rw [expectedInputs, run_cons m i inputs]
    cases hx : isExpected past i with
    | true => rw [if_pos rfl, run_cons, Step.andThen, Step.andThen, hlater]
    | false =>
      rw [h.handle_of_not_expected hx] at hlater ⊢
      exact hlater

/-- **Late inputs are not heard.** At any time of any run an input that is not
expected has no effect and leaves the whole machine as it is; and a run
without those inputs has the same effects and ends in the same state. -/
theorem unexpected_inputs_not_heard (backoff : Backoff) (protocol : UInt32) (timeout : Duration)
    (hostActive : Bool) :
    let start := initial backoff protocol timeout hostActive
    (∀ inputs i, isExpected (start.history inputs) i = false →
        (start.run inputs).1.handle i = ((start.run inputs).1, []))
      ∧ ∀ inputs, start.run (start.expectedInputs [] inputs) = start.run inputs := by
  intro start
  have h : start.Recorded [] := recorded_initial backoff protocol timeout hostActive
  exact ⟨fun inputs i hx => (h.run inputs).handle_of_not_expected hx, h.run_expectedInputs⟩

end Machine

end LiveSync.Connection
