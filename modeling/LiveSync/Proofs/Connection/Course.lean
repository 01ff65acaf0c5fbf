import LiveSync.Proofs.Connection.Standing

/-!
# The course of attempts

What the machine asks for in a run is one list of effects, the **trace** of
the run. Whoever carries the effects out sees nothing but the trace, and
should be able to rely on its order: an attempt is opened, greets the
server, limits the wait for the answer, is established, and ends, and the
next one comes after it.

The order is written down as an automaton that reads effects
(`Course.Next`). Its state says which attempt was opened last and how far it
has come (`Course`), and it is finer than the machine's phases: an effect
such as the end of a handshake timer is read before the machine has come to
rest again. The main lemma says that the automaton reads the trace of every
run and stands afterwards where the machine stands
(`Machine.exists_reads_run`). What the order means, and what it is good for,
is left to the modules after this one.
-/

namespace LiveSync.Connection

/-! ### Effects in their order -/

/-- **How far the latest attempt has come.** -/
inductive Stage where
  /-- It has ended, or there was none. -/
  | over
  | opened
  /-- It has greeted the server. -/
  | greeted
  /-- Its handshake timer runs. -/
  | handshaking
  /-- Its handshake timer was stopped. -/
  | settling
  | established
  /-- It was closed while its handshake timer ran. -/
  | closing
  /-- It was closed, and no timer runs. -/
  | closed
deriving DecidableEq, Repr

/-- An effect that does not concern the attempt under way. -/
def Effect.isAside : Effect → Bool
  | .scheduleRetry _ _ | .cancelRetry | .statusChanged _ _ | .failed _ => true
  | .open _ | .send _ _ | .close _ | .startHandshakeTimer _ _ | .cancelHandshakeTimer
  | .established _ _ | .deliver _ | .attemptEnded _ => false

/-- **Where a trace stands**: the attempt that was opened last, and how far
it has come. -/
structure Course where
  epoch : Epoch
  stage : Stage
deriving DecidableEq, Repr

namespace Course

/-- No attempt was opened yet. -/
def start : Course := ⟨0, .over⟩

/-- **What may come next**, and where the trace stands then. -/
inductive Next : Course → Effect → Course → Prop
  | opening {last e : Epoch} (h : last < e) : Next ⟨last, .over⟩ (.open e) ⟨e, .opened⟩
  | greeting {e : Epoch} {protocol : UInt32} :
    Next ⟨e, .opened⟩ (.send e (.hello protocol)) ⟨e, .greeted⟩
  | timer {e : Epoch} {timeout : Duration} :
    Next ⟨e, .greeted⟩ (.startHandshakeTimer e timeout) ⟨e, .handshaking⟩
  | settling {e : Epoch} : Next ⟨e, .handshaking⟩ .cancelHandshakeTimer ⟨e, .settling⟩
  | establishing {e : Epoch} {user : Option Int64} :
    Next ⟨e, .settling⟩ (.established e user) ⟨e, .established⟩
  | delivery {e : Epoch} {s : Stage} {frame : Wire.ServerFrame}
    (h : s = .handshaking ∨ s = .established) : Next ⟨e, s⟩ (.deliver frame) ⟨e, s⟩
  | closing {e : Epoch} : Next ⟨e, .handshaking⟩ (.close e) ⟨e, .closing⟩
  | closed {e : Epoch} {s : Stage} (h : s = .opened ∨ s = .established) :
    Next ⟨e, s⟩ (.close e) ⟨e, .closed⟩
  | cancelling {e : Epoch} : Next ⟨e, .closing⟩ .cancelHandshakeTimer ⟨e, .closed⟩
  | ending {e : Epoch} {s : Stage}
    (h : s = .opened ∨ s = .settling ∨ s = .established ∨ s = .closed) :
    Next ⟨e, s⟩ (.attemptEnded e) ⟨e, .over⟩
  | aside {c : Course} {x : Effect} (h : x.isAside = true) : Next c x c

/-- **Effects that may come one after another.** -/
inductive Reads : Course → List Effect → Course → Prop
  | nil {c : Course} : Reads c [] c
  | cons {c c' c'' : Course} {x : Effect} {effects : List Effect} (head : Next c x c')
    (tail : Reads c' effects c'') : Reads c (x :: effects) c''

variable {c c' c'' : Course} {x : Effect} {effects effects' : List Effect}

theorem Reads.append {d : Course} (h : Reads c effects d) (h' : Reads d effects' c') :
    Reads c (effects ++ effects') c' := by
  induction h with
  | nil => exact h'
  | cons head tail ih => exact .cons head (ih h')

theorem Reads.of_append (h : Reads c (effects ++ effects') c'') :
    ∃ c', Reads c effects c' ∧ Reads c' effects' c'' := by
  induction effects generalizing c with
  | nil => exact ⟨c, .nil, h⟩
  | cons x effects ih =>
    cases h with
    | cons head tail =>
      obtain ⟨c', h, h'⟩ := ih tail
      exact ⟨c', .cons head h, h'⟩

/-- Where the trace stood before an effect of it. -/
theorem Reads.of_split (h : Reads c (effects ++ x :: effects') c'') :
    ∃ d d', Reads c effects d ∧ Next d x d' ∧ Reads d' effects' c'' := by
  obtain ⟨d, h, h'⟩ := h.of_append
  cases h' with
  | cons head tail => exact ⟨d, _, h, head, tail⟩

/-- **Induction along a trace**, from its first effect to its last. -/
@[elab_as_elim]
theorem Reads.induction {c : Course}
    {motive : ∀ (effects : List Effect) (c' : Course), Reads c effects c' → Prop}
    (start : motive [] c .nil)
    (next : ∀ {past : List Effect} {d : Course} {x : Effect} {d' : Course} (h : Reads c past d)
      (hx : Next d x d'),
      motive past d h → motive (past ++ [x]) d' (h.append (.cons hx .nil)))
    {effects : List Effect} {c' : Course} (h : Reads c effects c') : motive effects c' h := by
  induction effects using List.reverseRecOn generalizing c' with
  | nil =>
    cases h
    exact start
  | append_singleton past x ih =>
    obtain ⟨d, d', h, hx, hnil⟩ := h.of_split
    cases hnil
    exact next h hx (ih h)

theorem reads_aside (h : ∀ x ∈ effects, x.isAside = true) : Reads c effects c := by
  induction effects with
  | nil => exact .nil
  | cons x effects ih =>
    rw [List.forall_mem_cons] at h
    exact .cons (.aside h.1) (ih h.2)

end Course

/-! ### The machine keeps the order -/

namespace Machine

open Course

variable {m : Machine} {c : Course}

/-- The stage of a machine at rest. -/
def stage (m : Machine) : Stage :=
  match m.phase with
  | none => .over
  | some .opening => .opened
  | some .handshaking => .handshaking
  | some .established => .established

/-- The handshake of the attempt under way is done. -/
theorem stage_eq_established_iff : m.stage = .established ↔ m.isEstablished = true := by
  rw [stage, isEstablished, decide_eq_true_iff]
  cases m.phase with
  | none => exact iff_of_false nofun nofun
  | some phase => cases phase <;> simp

theorem stage_ne_closed (m : Machine) : m.stage ≠ .closed := by
  unfold stage
  split <;> nofun

/-- Where a machine at rest stands. -/
abbrev course (m : Machine) : Course := ⟨m.epoch, m.stage⟩

/-- **The trace stands where the machine stands.** A machine without an
attempt may have passed over epochs that were never opened. -/
structure OnCourse (m : Machine) (c : Course) : Prop where
  stage : c.stage = m.stage
  epoch_le : c.epoch ≤ m.epoch
  epoch_eq : m.phase ≠ none → c.epoch = m.epoch

theorem OnCourse.eq_course (h : m.OnCourse c) (hp : m.phase ≠ none) : c = m.course := by
  rw [course, ← h.stage, ← h.epoch_eq hp]

theorem OnCourse.stage_over (h : m.OnCourse c) (hp : m.phase = none) : c.stage = .over := by
  rw [h.stage, Machine.stage, hp]

/-- The phase and the epoch are all that the course of a machine shows. -/
theorem OnCourse.of_eq {m' : Machine} (h : m.OnCourse c) (hp : m'.phase = m.phase)
    (he : m'.epoch = m.epoch) : m'.OnCourse c where
  stage := by rw [h.stage, Machine.stage, Machine.stage, hp]
  epoch_le := he ▸ h.epoch_le
  epoch_eq := fun hne => he ▸ h.epoch_eq (hp ▸ hne)

theorem onCourse_self (m : Machine) : m.OnCourse m.course :=
  ⟨rfl, Nat.le_refl _, fun _ => rfl⟩

theorem onCourse_over {epoch : Epoch} (hp : m.phase = none) (he : epoch ≤ m.epoch) :
    m.OnCourse ⟨epoch, .over⟩ where
  stage := by rw [Machine.stage, hp]
  epoch_le := he
  epoch_eq := fun hne => absurd hp hne

theorem onCourse_initial (backoff : Backoff) (protocol : UInt32) (timeout : Duration)
    (hostActive : Bool) : (initial backoff protocol timeout hostActive).OnCourse .start :=
  onCourse_over rfl (Nat.le_refl 0)

/-- **A step keeps to the order**: its effects may come next, and the trace
stands afterwards where the machine stands. -/
def KeepsOrder (c : Course) (s : Step) : Prop := ∃ c', Reads c s.2 c' ∧ s.1.OnCourse c'

theorem KeepsOrder.andThen {s : Step} {f : Machine → Step} {d : Course} (h : Reads c s.2 d)
    (hf : KeepsOrder d (f s.1)) : KeepsOrder c (s.andThen f) := by
  obtain ⟨c', hreads, hon⟩ := hf
  exact ⟨c', h.append hreads, hon⟩

theorem KeepsOrder.still (h : m.OnCourse c) : KeepsOrder c m.still := ⟨c, .nil, h⟩

/-! What does not concern the attempt under way leaves the course alone. -/

theorem isAside_setStatus (status : ConnectionStatus) (m : Machine) :
    ∀ x ∈ (setStatus status m).2, x.isAside = true := by
  unfold setStatus
  split <;> simp [Effect.isAside]

theorem isAside_terminate (error : Failure) (m : Machine) :
    ∀ x ∈ (terminate error m).2, x.isAside = true := by
  intro x hx
  simp only [terminate, Step.effect, Step.andThen, List.mem_append, List.mem_singleton] at hx
  rcases hx with (rfl | hx) | rfl
  · rfl
  · exact isAside_setStatus _ _ x hx
  · rfl

theorem isAside_scheduleRetry (m : Machine) : ∀ x ∈ m.scheduleRetry.2, x.isAside = true := by
  unfold scheduleRetry
  split
  · split
    · intro x hx
      rcases List.mem_cons.mp hx with rfl | hx
      · rfl
      · exact isAside_setStatus _ _ x hx
    · exact isAside_terminate _ m
  · exact isAside_setStatus _ m

theorem scheduleRetry_epoch (m : Machine) : m.scheduleRetry.1.epoch = m.epoch := by
  unfold scheduleRetry
  split
  · split
    · simp only [Step.andThen, setStatus_fst]
    · rw [terminate_fst]
  · rw [setStatus_fst]

theorem keepsOrder_setStatus (h : m.OnCourse c) (status : ConnectionStatus) :
    KeepsOrder c (setStatus status m) := by
  refine ⟨c, reads_aside (isAside_setStatus status m), ?_⟩
  rw [setStatus_fst]
  exact h.of_eq rfl rfl

theorem keepsOrder_terminate (h : m.OnCourse c) (error : Failure) :
    KeepsOrder c (terminate error m) := by
  refine ⟨c, reads_aside (isAside_terminate error m), ?_⟩
  rw [terminate_fst]
  exact h.of_eq rfl rfl

theorem keepsOrder_scheduleRetry (h : m.OnCourse c) : KeepsOrder c m.scheduleRetry :=
  ⟨c, reads_aside (isAside_scheduleRetry m),
    h.of_eq (scheduleRetry_phase m) (scheduleRetry_epoch m)⟩

/-! An attempt starts, and ends. -/

theorem keepsOrder_startAttempt (hs : c.stage = .over) (he : c.epoch ≤ m.epoch)
    (status : ConnectionStatus) : KeepsOrder c (m.startAttempt status) := by
  obtain ⟨last, s⟩ := c
  subst hs
  refine KeepsOrder.andThen (d := ⟨m.epoch + 1, .opened⟩) ?_ (keepsOrder_setStatus ?_ status)
  · exact .cons (.opening (Nat.lt_succ_of_le he)) .nil
  · exact onCourse_self _

theorem reads_endAttempt (hp : m.phase ≠ none) :
    Reads m.course m.endAttempt.2 ⟨m.epoch, .over⟩ := by
  rw [course, endAttempt, stage]
  cases h : m.phase with
  | none => exact absurd h hp
  | some p =>
    cases p with
    | opening => exact .cons (.ending (.inl rfl)) .nil
    | handshaking => exact .cons .settling (.cons (.ending (.inr (.inl rfl))) .nil)
    | established => exact .cons (.ending (.inr (.inr (.inl rfl)))) .nil

theorem reads_close_endAttempt (hp : m.phase ≠ none) :
    Reads m.course (.close m.epoch :: m.endAttempt.2) ⟨m.epoch, .over⟩ := by
  have hended : Next ⟨m.epoch, .closed⟩ (.attemptEnded m.epoch) ⟨m.epoch, .over⟩ :=
    .ending (.inr (.inr (.inr rfl)))
  rw [course, endAttempt, stage]
  cases h : m.phase with
  | none => exact absurd h hp
  | some p =>
    cases p with
    | opening => exact .cons (.closed (.inl rfl)) (.cons hended .nil)
    | handshaking => exact .cons .closing (.cons .cancelling (.cons hended .nil))
    | established => exact .cons (.closed (.inr rfl)) (.cons hended .nil)

theorem onCourse_endAttempt (m : Machine) : m.endAttempt.1.OnCourse ⟨m.epoch, .over⟩ :=
  onCourse_over rfl (Nat.le_refl _)

/-! ### The inputs -/

theorem keepsOrder_onConnect (hm : m.Sound) (h : m.OnCourse c) : KeepsOrder c m.onConnect := by
  cases hd : m.desired with
  | true =>
    rw [hm.onConnect_of_desired hd]
    exact .still h
  | false =>
    have hp : m.phase = none := (hm.undesired hd).1
    unfold onConnect
    rw [if_neg fun hw => Bool.false_ne_true (hd.symm.trans hw.1)]
    dsimp only
    split
    · refine keepsOrder_startAttempt ?_ ?_ _
      · exact h.stage_over hp
      · exact h.epoch_le
    · refine keepsOrder_setStatus ?_ _
      exact h.of_eq rfl rfl

theorem keepsOrder_onDisconnect (h : m.OnCourse c) : KeepsOrder c m.onDisconnect := by
  have hcancel : Reads c [.cancelRetry] c := .cons (.aside rfl) .nil
  unfold onDisconnect
  dsimp only
  by_cases hp : m.phase = none
  · refine KeepsOrder.andThen (d := c) ?_ (keepsOrder_setStatus ?_ _)
    · rw [Step.andThen, abandonAttempt, if_pos hp]
      exact hcancel
    · rw [show c = ⟨c.epoch, .over⟩ by rw [← h.stage_over hp]]
      simp only [Step.andThen, abandonAttempt_fst]
      exact onCourse_over rfl (Nat.le_succ_of_le h.epoch_le)
  · refine KeepsOrder.andThen (d := ⟨m.epoch, .over⟩) ?_ (keepsOrder_setStatus ?_ _)
    · rw [h.eq_course hp]
      simp only [Step.andThen, abandonAttempt, hp, if_false]
      exact (h.eq_course hp ▸ hcancel).append (reads_close_endAttempt hp)
    · simp only [Step.andThen, abandonAttempt_fst]
      exact onCourse_over rfl (Nat.le_succ _)

theorem keepsOrder_onHost (h : m.OnCourse c) (active : Bool) : KeepsOrder c (m.onHost active) := by
  unfold onHost
  dsimp only
  split
  · rename_i hgo
    refine KeepsOrder.andThen (d := c) (.cons (.aside rfl) .nil) ?_
    refine keepsOrder_startAttempt ?_ ?_ _
    · exact h.stage_over hgo.2.2
    · exact h.epoch_le
  · exact .still (h.of_eq rfl rfl)

theorem isAt_iff {epoch : Epoch} {phases : List Phase} :
    m.isAt epoch phases = true ↔ epoch = m.epoch ∧ ∃ p ∈ phases, m.phase = some p := by
  rw [isAt, Bool.and_eq_true, decide_eq_true_iff, Option.any_eq_true]
  refine and_congr_right fun _ => ⟨?_, ?_⟩
  · rintro ⟨p, hp, hmem⟩
    exact ⟨p, of_decide_eq_true hmem, hp⟩
  · rintro ⟨p, hmem, hp⟩
    exact ⟨p, hp, decide_eq_true hmem⟩

theorem keepsOrder_onOpened (h : m.OnCourse c) (epoch : Epoch) :
    KeepsOrder c (m.onOpened epoch) := by
  unfold onOpened
  split
  · rename_i hat
    obtain ⟨rfl, p, hmem, hp⟩ := isAt_iff.mp hat
    obtain rfl := List.mem_singleton.mp hmem
    have hc : c = ⟨m.epoch, .opened⟩ := by
      rw [h.eq_course (hp ▸ nofun), course, stage, hp]
    exact ⟨⟨m.epoch, .handshaking⟩, hc ▸ .cons .greeting (.cons .timer .nil),
      onCourse_self _⟩
  · exact .still h

/-- Whatever follows the end of an attempt keeps to the order, if it does
not concern attempts. -/
theorem keepsOrder_endAttempt (h : m.OnCourse c) (hp : m.phase ≠ none) {f : Machine → Step}
    (hf : KeepsOrder ⟨m.epoch, .over⟩ (f m.endAttempt.1)) :
    KeepsOrder c (Step.andThen m.endAttempt f) :=
  .andThen (h.eq_course hp ▸ reads_endAttempt hp) hf

theorem keepsOrder_retryAfterEnd (h : m.OnCourse c) (hp : m.phase ≠ none) :
    KeepsOrder c m.retryAfterEnd :=
  keepsOrder_endAttempt h hp (keepsOrder_scheduleRetry (onCourse_endAttempt m))

theorem keepsOrder_onOpenFailed (h : m.OnCourse c) (epoch : Epoch) (error : Failure) :
    KeepsOrder c (m.onOpenFailed epoch error) := by
  unfold onOpenFailed
  split
  · rename_i hat
    refine keepsOrder_endAttempt h (phase_ne_none_of_isAt hat) ?_
    split
    · exact keepsOrder_terminate (onCourse_endAttempt m) error
    · exact keepsOrder_scheduleRetry (onCourse_endAttempt m)
  · exact .still h

theorem keepsOrder_onHelloAck (h : m.OnCourse c) (user : Option Int64) :
    KeepsOrder c (m.onHelloAck user) := by
  unfold onHelloAck
  split
  · rename_i hp
    have hc : c = ⟨m.epoch, .handshaking⟩ := by
      rw [h.eq_course (hp ▸ nofun), course, stage, hp]
    simp only [Step.effect, Step.andThen]
    refine ⟨⟨m.epoch, .established⟩, ?_, ?_⟩
    · rw [hc]
      refine .append (d := ⟨m.epoch, .settling⟩) ?_ (.cons .establishing .nil)
      exact .cons .settling (reads_aside (isAside_setStatus _ _))
    · rw [setStatus_fst]
      exact onCourse_self _
  · exact .still h

theorem keepsOrder_onFrame (h : m.OnCourse c) (epoch : Epoch) (frame : Wire.ServerFrame) :
    KeepsOrder c (m.onFrame epoch frame) := by
  unfold onFrame
  split
  · rename_i hat
    split
    · exact keepsOrder_onHelloAck h _
    · obtain ⟨-, p, hmem, hp⟩ := isAt_iff.mp hat
      refine ⟨c, ?_, h⟩
      rw [h.eq_course (hp ▸ nofun), course, stage, hp]
      cases p with
      | opening => simp at hmem
      | handshaking => exact .cons (.delivery (.inl rfl)) .nil
      | established => exact .cons (.delivery (.inr rfl)) .nil
  · exact .still h

theorem keepsOrder_onClosed (h : m.OnCourse c) (epoch : Epoch) :
    KeepsOrder c (m.onClosed epoch) := by
  unfold onClosed
  split
  · rename_i hat
    exact keepsOrder_retryAfterEnd h (phase_ne_none_of_isAt hat)
  · exact .still h

theorem keepsOrder_onLost (h : m.OnCourse c) (epoch : Epoch) (phases : List Phase) :
    KeepsOrder c (m.onLost epoch phases) := by
  unfold onLost
  split
  · rename_i hat
    obtain ⟨rfl, -⟩ := isAt_iff.mp hat
    have hp := phase_ne_none_of_isAt hat
    obtain ⟨c', hreads, hon⟩ := keepsOrder_scheduleRetry (onCourse_endAttempt m)
    refine ⟨c', ?_, hon⟩
    rw [h.eq_course hp]
    exact (reads_close_endAttempt hp).append hreads
  · exact .still h

theorem keepsOrder_onRetryFired (hm : m.Sound) (h : m.OnCourse c) (epoch : Epoch) :
    KeepsOrder c (m.onRetryFired epoch) := by
  unfold onRetryFired
  split
  · rename_i hw
    obtain ⟨-, hp⟩ := hm.of_waiting (by simp [hw.2])
    split
    · exact keepsOrder_startAttempt (h.stage_over hp) h.epoch_le _
    · exact .still (h.of_eq rfl rfl)
  · exact .still h

/-- **An input keeps to the order.** -/
theorem keepsOrder_handle (hm : m.Sound) (h : m.OnCourse c) (i : Input) :
    KeepsOrder c (m.handle i) := by
  cases i with
  | connect => exact keepsOrder_onConnect hm h
  | disconnect => exact keepsOrder_onDisconnect h
  | opened epoch => exact keepsOrder_onOpened h epoch
  | openFailed epoch error => exact keepsOrder_onOpenFailed h epoch error
  | frame epoch frame => exact keepsOrder_onFrame h epoch frame
  | transportError epoch error => exact .still h
  | closed epoch => exact keepsOrder_onClosed h epoch
  | stalled epoch => exact keepsOrder_onLost h epoch _
  | handshakeTimedOut epoch => exact keepsOrder_onLost h epoch _
  | retryFired epoch => exact keepsOrder_onRetryFired hm h epoch
  | host active => exact keepsOrder_onHost h active

@[simp] theorem run_concat (m : Machine) (inputs : List Input) (i : Input) :
    m.run (inputs ++ [i]) = Step.andThen (m.run inputs) (handle · i) := by
  rw [run, List.foldl_append]
  rfl

/-- **A run keeps to the order.** -/
theorem exists_reads_run (hm : m.Sound) (h : m.OnCourse c) (inputs : List Input) :
    KeepsOrder c (m.run inputs) := by
  induction inputs using List.reverseRecOn with
  | nil => exact .still h
  | append_singleton inputs i ih =>
    obtain ⟨c', hreads, hon⟩ := ih
    rw [run_concat]
    exact .andThen hreads (keepsOrder_handle (sound_run hm inputs) hon i)

end Machine

end LiveSync.Connection
