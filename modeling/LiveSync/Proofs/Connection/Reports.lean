import LiveSync.Proofs.Broadcast.Changes
import LiveSync.Proofs.Connection.Outcomes
import Mathlib.Data.List.Chain

/-!
# What observers are told

Whoever watches a connection never asks for its status: it is told when the
status or the number of retries changes, and remembers what it was told last.
That is good enough only if no change is kept back. The two change in many
places – a retry is counted, the count starts over, an attempt starts or is
lost – and one of them without a report would leave every observer with a
status that is not true any more.

A step reports at most once, and what it reports is how things stand after it
(`Machine.Announces`): it is told if and only if it differs from what was told
last. So what was told last is always true, and is never told twice in a row.
-/

namespace LiveSync.Connection

open LiveSync.Wire

/-- **What an observer is told** of a connection: its status, and the number
of retries. -/
abbrev Sighting := ConnectionStatus × UInt32

/-- What an effect reports, if it reports something. -/
def Effect.report? : Effect → Option Sighting
  | .statusChanged status attempt => some (status, attempt)
  | _ => none

/-- **The reports among effects.** -/
def reports (effects : List Effect) : List Sighting := effects.filterMap Effect.report?

@[simp] theorem reports_nil : reports [] = [] := rfl

@[simp] theorem reports_cons (x : Effect) (effects : List Effect) :
    reports (x :: effects) = x.report?.toList ++ reports effects := by
  rw [reports, List.filterMap_cons]
  cases x.report? <;> rfl

@[simp] theorem reports_append (effects effects' : List Effect) :
    reports (effects ++ effects') = reports effects ++ reports effects' :=
  List.filterMap_append ..

/-- What an observer believes before the first report. -/
def unseen : Sighting := (.disconnected, 0)

/-- **What an observer believes after effects**: the latest report. -/
def believed (effects : List Effect) : Sighting :=
  (reports effects).foldl (fun _ report => report) unseen

namespace Machine

variable {m m' : Machine} {s : Step} {i : Input}

/-- What was reported last. -/
def sighting (m : Machine) : Sighting := (m.status, m.reported)

/-- **A step reports what has changed**, as it is after the step. -/
def Announces (m : Machine) (s : Step) : Prop :=
  reports s.2 = if s.1.sighting = m.sighting then [] else [s.1.sighting]

theorem announces_of_nil {effects : List Effect} (h : m'.sighting = m.sighting)
    (hnone : reports effects = []) : m.Announces (m', effects) :=
  hnone.trans (if_pos h).symm

/-- What reports nothing may come before. -/
theorem Announces.after {effects : List Effect} (h : m.Announces s) (hnone : reports effects = []) :
    m.Announces (s.1, effects ++ s.2) := by
  rw [Announces, reports_append, hnone]
  exact h

/-- What reports nothing may come afterwards. -/
theorem Announces.effect {x : Effect} (h : m.Announces s) (hnone : x.report? = none) :
    m.Announces (s.effect x) := by
  rw [Announces, Step.effect, reports_append, reports_cons, hnone]
  exact (List.append_nil _).trans h

/-- **To take on a status is to report it**, if it was not reported just so. -/
theorem announces_setStatus (h : m'.sighting = m.sighting) (status : ConnectionStatus) :
    m.Announces (setStatus status m') := by
  obtain ⟨hs, hr⟩ := Prod.mk.inj h
  rw [Announces, setStatus_fst]
  unfold setStatus sighting
  rw [← hs, ← hr]
  split
  · rename_i hne
    have hne' : (status, m'.backoff.attempts) ≠ (m'.status, m'.reported) := fun heq =>
      hne.elim (fun hs => hs (Prod.mk.inj heq).1.symm) (fun hr => hr (Prod.mk.inj heq).2.symm)
    rw [if_neg hne']
    rfl
  · rename_i heq
    obtain ⟨hs, hr⟩ := not_or.mp heq
    rw [not_not.mp hs, not_not.mp hr, if_pos rfl]
    rfl

theorem announces_startAttempt (h : m'.sighting = m.sighting) (status : ConnectionStatus) :
    m.Announces (startAttempt status m') := by
  have hopening : { m' with epoch := m'.epoch + 1, phase := some .opening, retry := .idle }.sighting
      = m.sighting := h
  exact (announces_setStatus hopening status).after rfl

theorem announces_terminate (h : m'.sighting = m.sighting) (error : Failure) :
    m.Announces (terminate error m') := by
  have hunwanted : { m' with desired := false, retry := .idle }.sighting = m.sighting := h
  have hcancelled : m.Announces (Step.andThen ({ m' with desired := false, retry := .idle },
      [.cancelRetry]) (setStatus .disconnected)) :=
    (announces_setStatus hunwanted _).after rfl
  exact hcancelled.effect rfl

@[simp] theorem reports_endAttempt (m : Machine) : reports m.endAttempt.2 = [] := by
  unfold endAttempt
  split <;> rfl

@[simp] theorem reports_abandonAttempt (m : Machine) : reports m.abandonAttempt.2 = [] := by
  unfold abandonAttempt
  split
  · rfl
  · exact reports_endAttempt m

theorem announces_onDisconnect (m : Machine) : m.Announces m.onDisconnect := by
  refine (announces_setStatus ?_ _).after ?_
  · simp only [Step.andThen, abandonAttempt_fst]
    rfl
  · simp [Step.andThen, Effect.report?]

theorem reports_endAfter {closing : List Effect} (hc : closing = [] ∨ closing = [.close m.epoch]) :
    reports (m.endAfter closing).2 = [] := by
  rcases hc with rfl | rfl <;> exact reports_endAttempt m

/-- **What holds of how things stand after an input.** -/
structure Current (m : Machine) (s : Step) : Prop where
  announces : m.Announces s
  /-- The number of retries that was reported is the number that were used. -/
  reported : s.1.reported = s.1.backoff.attempts
  epoch_le : m.epoch ≤ s.1.epoch
  /-- A connection that stands still stands is the same one. -/
  connected : s.1.status = .connected → s.1.sighting = m.sighting → s.1.epoch = m.epoch

/-- **An input leaves nothing unreported.** -/
theorem Outcome.current (ho : m.Outcome i s) (hr : m.reported = m.backoff.attempts) :
    m.Current s := by
  cases ho with
  | nothing | noted | postponed | greeted | delivered =>
    exact ⟨announces_of_nil rfl rfl, hr, le_refl _, fun _ _ => rfl⟩
  | wanted =>
    refine ⟨announces_startAttempt rfl _, ?_, ?_, ?_⟩ <;> rw [startAttempt_fst]
    · exact Nat.le_succ _
    · rintro ⟨⟩
  | awaiting =>
    refine ⟨announces_setStatus rfl _, ?_, ?_, ?_⟩ <;> rw [setStatus_fst]
    · rintro ⟨⟩
  | unwanted =>
    refine ⟨announces_onDisconnect m, ?_, ?_, ?_⟩ <;> rw [onDisconnect_fst]
    · rfl
    · exact Nat.le_succ _
    · rintro ⟨⟩
  | returned =>
    refine ⟨(announces_startAttempt rfl _).after rfl, ?_, ?_, ?_⟩ <;>
      simp only [Step.andThen, startAttempt_fst]
    · exact Nat.le_succ _
    · unfold statusOnReturn
      split <;> rintro ⟨⟩
  | retried =>
    refine ⟨announces_startAttempt rfl _, ?_, ?_, ?_⟩ <;> rw [startAttempt_fst]
    · exact Nat.le_succ _
    · rintro ⟨⟩
  | established hp =>
    rw [onHelloAck, if_pos hp]
    refine ⟨((announces_setStatus rfl _).after rfl).effect rfl, ?_, ?_, ?_⟩ <;>
      simp only [Step.effect, Step.andThen, setStatus_fst]
    · exact le_refl _
    · exact fun _ _ => trivial
  | retrying hi hp hc hn =>
    refine ⟨((announces_setStatus rfl _).after rfl).after (reports_endAfter hc), ?_, ?_, ?_⟩ <;>
      simp only [Step.andThen, retryAfter, setStatus_fst]
    · exact le_refl _
    · rintro ⟨⟩
  | exhausted hi hp hc hn =>
    refine ⟨(announces_terminate rfl _).after (reports_endAfter hc), ?_, ?_, ?_⟩ <;>
      simp only [Step.andThen, terminate_fst]
    · exact le_refl _
    · rintro ⟨⟩
  | refused hp ht =>
    refine ⟨(announces_terminate rfl _).after (reports_endAttempt m), ?_, ?_, ?_⟩ <;>
      simp only [Step.andThen, terminate_fst]
    · exact le_refl _
    · rintro ⟨⟩

/-- **What an observer believes is true**, after all that it was told. -/
structure Believed (m : Machine) (effects : List Effect) : Prop where
  sound : m.Sound
  reported : m.reported = m.backoff.attempts
  believed : believed effects = m.sighting
  /-- Nothing was told twice in a row. -/
  chain : (unseen :: reports effects).IsChain (· ≠ ·)

theorem believed_start (initial bound : Duration) (maxAttempts protocol : UInt32)
    (timeout : Duration) (hostActive : Bool) :
    (Machine.initial (.start initial bound maxAttempts) protocol timeout hostActive).Believed
      [] where
  sound := sound_initial ..
  reported := rfl
  believed := rfl
  chain := List.isChain_singleton _

variable {effects : List Effect}

theorem Believed.handle (h : m.Believed effects) (i : Input) :
    (m.handle i).1.Believed (effects ++ (m.handle i).2) := by
  have hcurrent := (h.sound.outcome i).current h.reported
  have htold : Abreast unseen (m.handle i).1.sighting (reports (effects ++ (m.handle i).2)) := by
    rw [reports_append, hcurrent.announces]
    exact Abreast.tell ⟨h.believed, h.chain⟩ _
  exact ⟨h.sound.handle i, hcurrent.reported, htold.believed, htold.chain⟩

theorem Believed.run (h : m.Believed []) (inputs : List Input) :
    (m.run inputs).1.Believed (m.run inputs).2 := by
  induction inputs using List.reverseRecOn with
  | nil => exact h
  | append_singleton inputs i ih =>
    rw [run_concat]
    exact ih.handle i

end Machine

end LiveSync.Connection
