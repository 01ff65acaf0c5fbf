import LiveSync.Proofs.Connection.GivenUp
import Mathlib.Algebra.Group.Nat.Defs

/-!
# The budget of retries

A lost attempt is tried again as long as there is a retry left, and the delay
before each retry is twice the one before, up to a bound. What has been used
is told by the effects alone: it is the number of retries that were scheduled
since the count last started over (`Input.renews`). The machine keeps the
same number, and the delay that it keeps beside is the one that the number
determines (`Backoff.Spent`), although it is doubled step by step and each
product may be too long for a duration: a product that is too long is above
the bound, and the bound is what counts then.
-/

namespace LiveSync

/-! ### Delays -/

namespace Backoff

variable {initial bound : Duration} {maxAttempts : UInt32} {k : Nat} {b : Backoff}

/-- **What is left after `k` retries**: the delay of the next one is the
initial delay doubled `k` times, or the bound. -/
structure Spent (initial bound : Duration) (maxAttempts : UInt32) (k : Nat) (b : Backoff) :
    Prop where
  initial_eq : b.initial = initial
  bound_eq : b.bound = bound
  max_eq : b.maxAttempts = maxAttempts
  attempts : b.attempts.toNat = k
  le_max : k ≤ maxAttempts.toNat
  delay : b.delay.nanos = min (initial.nanos * 2 ^ k) bound.nanos

theorem spent_start (initial bound : Duration) (maxAttempts : UInt32) :
    (start initial bound maxAttempts).Spent initial bound maxAttempts 0 where
  initial_eq := rfl
  bound_eq := rfl
  max_eq := rfl
  attempts := rfl
  le_max := Nat.zero_le _
  delay := by rw [start, Duration.nanos_shorter, Nat.pow_zero, Nat.mul_one]

theorem Spent.reset (h : b.Spent initial bound maxAttempts k) :
    b.reset.Spent initial bound maxAttempts 0 := by
  obtain ⟨rfl, rfl, rfl, -, -, -⟩ := h
  exact spent_start b.initial b.bound b.maxAttempts

theorem isExhausted_iff : b.isExhausted = true ↔ b.maxAttempts.toNat ≤ b.attempts.toNat := by
  rw [isExhausted, decide_eq_true_iff, UInt32.le_iff_toNat_le]

/-- **A retry that is used** waits for the delay of its number. -/
theorem Spent.next (h : b.Spent initial bound maxAttempts k) {delay : Duration} {b' : Backoff}
    (hn : b.next? = some (delay, b')) :
    k < maxAttempts.toNat ∧ delay.nanos = min (initial.nanos * 2 ^ k) bound.nanos
      ∧ b'.Spent initial bound maxAttempts (k + 1) := by
  obtain ⟨rfl, rfl, rfl, rfl, -, hdelay⟩ := h
  unfold next? at hn
  split at hn
  · cases hn
  · rename_i hleft
    rw [isExhausted_iff, Nat.not_le] at hleft
    obtain ⟨rfl, rfl⟩ := Prod.mk.inj (Option.some.inj hn)
    refine ⟨hleft, hdelay, rfl, rfl, rfl, ?_, hleft, ?_⟩
    · have hword := b.maxAttempts.toNat_lt
      rw [UInt32.toNat_add, UInt32.toNat_one]
      omega
    · have hbound : b.bound.nanos < Duration.limit := b.bound.bounded
      rw [Duration.nanos_shorter, Duration.nanos_double, hdelay, Nat.pow_succ, ← Nat.mul_assoc]
      omega

theorem Spent.exhausted (h : b.Spent initial bound maxAttempts k) (hn : b.next? = none) :
    k = maxAttempts.toNat ∧ b.attempts = maxAttempts := by
  obtain ⟨-, -, rfl, rfl, hle, -⟩ := h
  unfold next? at hn
  split at hn
  · rename_i hspent
    have heq := Nat.le_antisymm hle (isExhausted_iff.mp hspent)
    exact ⟨heq, UInt32.toNat_inj.mp heq⟩
  · cases hn

end Backoff

namespace Connection

open LiveSync.Wire

/-! ### Counting retries -/

/-- Whether an effect schedules a retry. -/
def Effect.isRetry : Effect → Bool
  | .scheduleRetry _ _ => true
  | .open _ | .send _ _ | .close _ | .startHandshakeTimer _ _ | .cancelHandshakeTimer
  | .cancelRetry | .established _ _ | .deliver _ | .attemptEnded _ | .statusChanged _ _
  | .failed _ => false

/-- Whether an effect starts an attempt. -/
def Effect.isOpen : Effect → Bool
  | .open _ => true
  | .scheduleRetry _ _ | .send _ _ | .close _ | .startHandshakeTimer _ _ | .cancelHandshakeTimer
  | .cancelRetry | .established _ _ | .deliver _ | .attemptEnded _ | .statusChanged _ _
  | .failed _ => false

/-- Whether an effect tells that a handshake is done. -/
def Effect.isHandshake : Effect → Bool
  | .established _ _ => true
  | .open _ | .scheduleRetry _ _ | .send _ _ | .close _ | .startHandshakeTimer _ _
  | .cancelHandshakeTimer | .cancelRetry | .deliver _ | .attemptEnded _ | .statusChanged _ _
  | .failed _ => false

/-- **Whether the count of retries starts over** with an input that has the
given effects: the user wants the connection and did not before, or no longer
wants it, or a handshake is done, or the host's return starts an attempt. -/
def Input.renews (effects : List Effect) : Input → Bool
  | .connect => !effects.isEmpty
  | .disconnect => true
  | .frame _ _ => effects.any Effect.isHandshake
  | .host _ => effects.any Effect.isOpen
  | .opened _ | .openFailed _ _ | .transportError _ _ | .closed _ | .stalled _
  | .handshakeTimedOut _ | .retryFired _ => false

/-- The number of retries after an input, from the number before it. -/
def retriesAfter (k : Nat) (i : Input) (effects : List Effect) : Nat :=
  if i.renews effects then 0 else k + effects.countP Effect.isRetry

namespace Machine

/-- The number of retries after a run, from the number before it. -/
def retriesFrom (m : Machine) (k : Nat) : List Input → Nat
  | [] => k
  | i :: inputs => (m.handle i).1.retriesFrom (retriesAfter k i (m.handle i).2) inputs

/-- **The number of retries** that a run has scheduled since the count last
started over. -/
def retries (m : Machine) (inputs : List Input) : Nat := m.retriesFrom 0 inputs

theorem retriesFrom_concat (m : Machine) (k : Nat) (inputs : List Input) (i : Input) :
    m.retriesFrom k (inputs ++ [i])
      = retriesAfter (m.retriesFrom k inputs) i ((m.run inputs).1.handle i).2 := by
  induction inputs generalizing m k with
  | nil => rfl
  | cons j inputs ih => rw [List.cons_append, retriesFrom, ih, retriesFrom, run_cons]; rfl

/-! ### What a step does to the count -/

variable {m : Machine} {i : Input} {s : Step} {first bound : Duration} {maxAttempts : UInt32}
  {k : Nat}

/-- Effects that neither schedule a retry nor end an attempt. -/
def Steady (effects : List Effect) : Prop :=
  ∀ x ∈ effects, x.isRetry = false ∧ ∀ e, x ≠ .attemptEnded e

@[simp] theorem steady_nil : Steady [] := nofun

@[simp] theorem steady_cons {x : Effect} {effects : List Effect} :
    Steady (x :: effects) ↔ (x.isRetry = false ∧ ∀ e, x ≠ .attemptEnded e) ∧ Steady effects :=
  List.forall_mem_cons

@[simp] theorem steady_append {effects effects' : List Effect} :
    Steady (effects ++ effects') ↔ Steady effects ∧ Steady effects' :=
  List.forall_mem_append

@[simp] theorem steady_setStatus (status : ConnectionStatus) (m : Machine) :
    Steady (setStatus status m).2 := by
  unfold setStatus
  split <;> simp [Effect.isRetry]

@[simp] theorem steady_startAttempt (status : ConnectionStatus) (m : Machine) :
    Steady (startAttempt status m).2 := by
  simp [startAttempt, Step.andThen, Effect.isRetry]

@[simp] theorem steady_terminate (error : Failure) (m : Machine) :
    Steady (terminate error m).2 := by
  simp [terminate, Step.andThen, Step.effect, Effect.isRetry]

/-- **What becomes of an attempt that ends**: the user does not want it any
more; or it could not be opened, for a reason that will not go away, and the
connection has failed with it; or it was lost, and is tried again if there is
a retry left. -/
inductive Ended (maxAttempts : UInt32) (k : Nat) (effects : List Effect) : Input → Prop
  | unwanted : Ended maxAttempts k effects .disconnect
  | refused {e : Epoch} {error : Failure} (ht : error.isTerminal = true)
    (hfailed : .failed error ∈ effects) (hretry : ∀ e delay, .scheduleRetry e delay ∉ effects) :
    Ended maxAttempts k effects (.openFailed e error)
  | lost {i : Input} (hi : i.isLoss = true)
    (hretry : k < maxAttempts.toNat →
      (∃ e delay, .scheduleRetry e delay ∈ effects) ∧ ∀ error, .failed error ∉ effects)
    (hfailed : k = maxAttempts.toNat →
      .failed (.connection (.attemptsExhausted maxAttempts)) ∈ effects
        ∧ ∀ e delay, .scheduleRetry e delay ∉ effects) :
    Ended maxAttempts k effects i

/-- **A step that keeps the budget.** -/
structure KeepsBudget (first bound : Duration) (maxAttempts : UInt32) (k : Nat) (i : Input)
    (s : Step) : Prop where
  spent : s.1.backoff.Spent first bound maxAttempts (retriesAfter k i s.2)
  retry : ∀ e delay, .scheduleRetry e delay ∈ s.2 →
    retriesAfter k i s.2 = k + 1 ∧ delay.nanos = min (first.nanos * 2 ^ k) bound.nanos
  ended : ∀ e, .attemptEnded e ∈ s.2 → Ended maxAttempts k s.2 i

theorem Steady.scheduleRetry_not_mem {effects : List Effect} (h : Steady effects) (e : Epoch)
    (delay : Duration) : .scheduleRetry e delay ∉ effects :=
  fun hmem => Bool.noConfusion (h _ hmem).1

theorem Steady.countP_eq_zero {effects : List Effect} (h : Steady effects) :
    effects.countP Effect.isRetry = 0 :=
  List.countP_eq_zero.mpr fun x hx => Bool.eq_false_iff.mp (h x hx).1

/-- A step that has nothing to do with retries keeps the budget. -/
theorem keepsBudget_of_steady (h : m.backoff.Spent first bound maxAttempts k)
    (hb : s.1.backoff = m.backoff) (hr : i.renews s.2 = false) (hs : Steady s.2) :
    KeepsBudget first bound maxAttempts k i s where
  spent := by
    rw [hb, retriesAfter, hr, hs.countP_eq_zero]
    exact h
  retry := fun e delay hmem => absurd hmem (hs.scheduleRetry_not_mem e delay)
  ended := fun e hmem => absurd rfl ((hs _ hmem).2 e)

/-- A step with which the count starts over keeps the budget. -/
theorem keepsBudget_of_renewal (h : m.backoff.Spent first bound maxAttempts k)
    (hb : s.1.backoff = m.backoff.reset) (hr : i.renews s.2 = true) (hs : Steady s.2) :
    KeepsBudget first bound maxAttempts k i s where
  spent := by
    rw [hb, retriesAfter, if_pos hr]
    exact h.reset
  retry := fun e delay hmem => absurd hmem (hs.scheduleRetry_not_mem e delay)
  ended := fun e hmem => absurd rfl ((hs _ hmem).2 e)

theorem renews_of_isLoss (hi : i.isLoss = true) (effects : List Effect) :
    i.renews effects = false := by
  cases i <;> first | rfl | cases hi

/-- To close and end an attempt schedules nothing. -/
theorem isRetry_endAfter {closing : List Effect} (hc : closing = [] ∨ closing = [.close m.epoch]) :
    ∀ x ∈ (m.endAfter closing).2, x.isRetry = false ∧ ∀ error, x ≠ .failed error := by
  have hend : m.endAttempt.2 = [.cancelHandshakeTimer, .attemptEnded m.epoch]
      ∨ m.endAttempt.2 = [.attemptEnded m.epoch] := by
    unfold endAttempt
    split <;> simp
  rcases hc with rfl | rfl <;> rcases hend with hend | hend <;>
    simp [endAfter, Step.andThen, hend, Effect.isRetry]

theorem KeepsBudget.of_retrying {closing : List Effect} {delay : Duration} {backoff : Backoff}
    (h : m.backoff.Spent first bound maxAttempts k) (hi : i.isLoss = true)
    (hc : closing = [] ∨ closing = [.close m.epoch])
    (hn : m.backoff.next? = some (delay, backoff)) :
    KeepsBudget first bound maxAttempts k i
      ((m.endAfter closing).andThen (retryAfter delay backoff)) := by
  obtain ⟨hlt, hdelay, hspent⟩ := h.next hn
  have hend := isRetry_endAfter hc
  have hquiet : Steady (setStatus .reconnecting
    { m.endAttempt.1 with backoff := backoff, retry := .scheduled }).2 := steady_setStatus _ _
  have heffects : ((m.endAfter closing).andThen (retryAfter delay backoff)).2
      = (m.endAfter closing).2 ++ .scheduleRetry m.epoch delay :: (setStatus .reconnecting
        { m.endAttempt.1 with backoff := backoff, retry := .scheduled }).2 := rfl
  have hcount : retriesAfter k i ((m.endAfter closing).andThen (retryAfter delay backoff)).2
      = k + 1 := by
    rw [retriesAfter, renews_of_isLoss hi, heffects, List.countP_append, List.countP_cons,
      hquiet.countP_eq_zero, List.countP_eq_zero.mpr fun x hx => Bool.eq_false_iff.mp (hend x hx).1]
    rfl
  refine ⟨?_, fun e delay' hmem => ⟨hcount, ?_⟩, fun e hmem => .lost hi (fun _ => ⟨?_, ?_⟩) ?_⟩
  · rw [hcount]
    simpa [retryAfter, Step.andThen] using hspent
  · rw [heffects, List.mem_append, List.mem_cons] at hmem
    rcases hmem with hmem | hmem | hmem
    · exact Bool.noConfusion (hend _ hmem).1
    · rw [(Effect.scheduleRetry.inj hmem).2]
      exact hdelay
    · exact absurd hmem (hquiet.scheduleRetry_not_mem e delay')
  · exact ⟨m.epoch, delay, heffects ▸ List.mem_append_right _ List.mem_cons_self⟩
  · intro error hmem
    rw [heffects, List.mem_append, List.mem_cons] at hmem
    rcases hmem with hmem | hmem | hmem
    · exact (hend _ hmem).2 error rfl
    · cases hmem
    · exact absurd hmem (failed_not_mem_setStatus error _ _)
  · exact fun hk => absurd hk (Nat.ne_of_lt hlt)

/-- An attempt ends and the connection fails. -/
theorem KeepsBudget.of_terminate {closing : List Effect} {error : Failure}
    (h : m.backoff.Spent first bound maxAttempts k)
    (hc : closing = [] ∨ closing = [.close m.epoch])
    (hr : ∀ effects, i.renews effects = false)
    (hended : ∀ effects, .failed error ∈ effects → (∀ e delay, .scheduleRetry e delay ∉ effects) →
      Ended maxAttempts k effects i) :
    KeepsBudget first bound maxAttempts k i ((m.endAfter closing).andThen (terminate error)) := by
  have hend := isRetry_endAfter hc
  have hquiet : Steady (terminate error (m.endAfter closing).1).2 := steady_terminate error _
  have hno : ∀ e delay,
      .scheduleRetry e delay ∉ ((m.endAfter closing).andThen (terminate error)).2 := by
    intro e delay hmem
    rcases List.mem_append.mp hmem with hmem | hmem
    · exact Bool.noConfusion (hend _ hmem).1
    · exact hquiet.scheduleRetry_not_mem e delay hmem
  refine ⟨?_, fun e delay hmem => absurd hmem (hno e delay), fun e _ => hended _ ?_ hno⟩
  · rw [retriesAfter, hr, Step.andThen, List.countP_append, hquiet.countP_eq_zero,
      List.countP_eq_zero.mpr fun x hx => Bool.eq_false_iff.mp (hend x hx).1, terminate_fst]
    exact h
  · simp [terminate, Step.andThen, Step.effect]

/-- **Every step keeps the budget.** -/
theorem Sound.keepsBudget (hm : m.Sound) (h : m.backoff.Spent first bound maxAttempts k)
    (i : Input) : KeepsBudget first bound maxAttempts k i (m.handle i) := by
  have ho := hm.outcome i
  generalize m.handle i = s at ho
  cases ho with
  | nothing hi hh =>
    refine keepsBudget_of_steady h rfl ?_ steady_nil
    cases i with
    | disconnect => exact absurd rfl hi
    | host active => exact absurd rfl (hh active)
    | connect | opened | openFailed | frame | transportError | closed | stalled
    | handshakeTimedOut | retryFired => rfl
  | noted => exact keepsBudget_of_steady h rfl rfl steady_nil
  | greeted => exact keepsBudget_of_steady h rfl rfl (by simp [Effect.isRetry])
  | delivered => exact keepsBudget_of_steady h rfl rfl (by simp [Effect.isRetry])
  | postponed => exact keepsBudget_of_steady h rfl rfl steady_nil
  | retried =>
    exact keepsBudget_of_steady h (by rw [startAttempt_fst]) rfl (steady_startAttempt _ _)
  | wanted =>
    exact keepsBudget_of_renewal h (by rw [startAttempt_fst]) rfl (steady_startAttempt _ _)
  | awaiting hd =>
    refine keepsBudget_of_renewal h (by rw [setStatus_fst]) ?_ (steady_setStatus _ _)
    -- the status was reported as disconnected, so there is something to report
    have hs : m.status = .disconnected := hm.disconnected_iff.mpr hd
    simp [Input.renews, setStatus, hs]
  | returned =>
    refine keepsBudget_of_renewal h ?_ rfl ?_ <;> simp [Step.andThen, Effect.isRetry]
  | unwanted =>
    refine ⟨?_, ?_, fun e _ => .unwanted⟩
    · rw [onDisconnect_fst]
      exact h.reset
    · exact fun e delay hmem => Bool.noConfusion (silent_onDisconnect m _ hmem)
  | established hp =>
    rw [Machine.onHelloAck, if_pos hp]
    refine keepsBudget_of_renewal h ?_ ?_ ?_ <;>
      simp [Step.andThen, Step.effect, Input.renews, Effect.isRetry, Effect.isHandshake]
  | retrying hi _ hc hn => exact .of_retrying h hi hc hn
  | exhausted hi _ hc hn =>
    obtain ⟨hk, hattempts⟩ := h.exhausted hn
    rw [hattempts]
    refine .of_terminate h hc (renews_of_isLoss hi) fun effects hfailed hno =>
      .lost hi (fun hlt => absurd hk (Nat.ne_of_lt hlt)) fun _ => ⟨hfailed, hno⟩
  | @refused error _ ht =>
    -- nothing has to be closed
    have hstep : KeepsBudget first bound maxAttempts k (.openFailed m.epoch error)
        ((m.endAfter []).andThen (terminate error)) :=
      .of_terminate h (.inl rfl) (fun _ => rfl) fun _ => .refused ht
    exact hstep

/-- The number of retries that the machine keeps is the number that were
scheduled. -/
theorem Sound.spent_run (hm : m.Sound) (h : m.backoff.Spent first bound maxAttempts 0)
    (inputs : List Input) :
    (m.run inputs).1.backoff.Spent first bound maxAttempts (m.retries inputs) := by
  induction inputs using List.reverseRecOn with
  | nil => exact h
  | append_singleton inputs i ih =>
    rw [run_concat, retries, retriesFrom_concat]
    exact ((sound_run hm inputs).keepsBudget ih i).spent

example :
    let start := initial (.start (.ofMillis 300) (.ofMillis 500) 2) 1 (.ofMillis 900) true
    let inputs : List Input := [.connect, .closed 1, .retryFired 1, .opened 2, .stalled 2]
    start.retries inputs = 2 ∧ .scheduleRetry 2 (.ofMillis 500) ∈ (start.run inputs).2
      ∧ start.retries (inputs ++ [.host true]) = 0 := by decide

end Machine

end Connection

end LiveSync
