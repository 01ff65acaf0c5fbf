import LiveSync.Proofs.Connection.Reports
import LiveSync.Proofs.Manager.Run

/-!
# What a manager publishes

There are two ways to watch a connection: to be told of every change, and to
look at the state that the manager publishes. Both say the same of the status
and of the retries. The published state also has an epoch, and this one is not
reported: an epoch may pass without a change of the status, and then the
published one stays behind. It never runs ahead and never goes back, and it is
the right one where it matters – while the status says that there is a
connection (`Manager.Shows`).

The reason is that a connection that is established stays the same one as
long as nothing is reported (`Machine.Current.connected`).
-/

namespace LiveSync.Connection

namespace Manager

variable {m : Manager} {env : Surroundings} {effects : List Effect} {message : ManagerMessage}

/-- **The latest report is published**, with the epoch that is current. -/
theorem feed_published_eq (env : Surroundings) (m : Manager) (i : Input) :
    (m.feed env i).1.published
      = (reports (m.machine.handle i).2).foldl
          (fun _ report => ⟨report.1, report.2, (m.machine.handle i).1.epoch⟩) m.published := by
  rw [feed_published, reports, List.foldl_filterMap]
  congr 1
  funext state x
  cases x <;> rfl

/-- **The published state is true.** Its epoch may be an earlier one, unless
there is a connection. -/
structure Shows (m : Manager) : Prop where
  status : m.published.status = m.machine.status
  attempt : m.published.attempt = m.machine.backoff.attempts
  epoch_le : m.published.epoch ≤ m.machine.epoch
  epoch_eq : m.published.status = .connected → m.published.epoch = m.machine.epoch

/-- **What is published keeps to**, whatever message comes. -/
structure Publishes (m : Manager) : Prop where
  sound : m.machine.Sound
  reported : m.machine.reported = m.machine.backoff.attempts
  shows : m.Shows

theorem publishes_start (initial bound : Duration) (maxAttempts protocol : UInt32)
    (timeout : Duration) (hostActive : Bool) :
    (start
      (.initial (.start initial bound maxAttempts) protocol timeout hostActive)).Publishes where
  sound := Machine.sound_initial ..
  reported := rfl
  shows := ⟨rfl, rfl, le_refl _, nofun⟩

/-- What a step publishes, whose machine reports what has changed. -/
theorem Publishes.published_feed (h : m.Publishes) (env : Surroundings) (i : Input) :
    (m.feed env i).1.published
      = if (m.machine.handle i).1.sighting = m.machine.sighting then m.published
        else ⟨(m.machine.handle i).1.status, (m.machine.handle i).1.reported,
          (m.machine.handle i).1.epoch⟩ := by
  have hreports := ((h.sound.outcome i).current h.reported).announces
  rw [feed_published_eq, hreports]
  split <;> rfl

/-- **What an input changes is published**, and the published epoch does not
go back. -/
theorem Publishes.feed (h : m.Publishes) (env : Surroundings) (i : Input) :
    (m.feed env i).1.Publishes ∧ m.published.epoch ≤ (m.feed env i).1.published.epoch := by
  have hcurrent := (h.sound.outcome i).current h.reported
  refine ⟨⟨?_, ?_, ?_⟩, ?_⟩
  · rw [feed_machine]
    exact h.sound.handle i
  · rw [feed_machine]
    exact hcurrent.reported
  · constructor <;> rw [h.published_feed, feed_machine] <;> split
    · rename_i hsame
      exact h.shows.status.trans (Prod.mk.inj hsame).1.symm
    · rfl
    · rename_i hsame
      rw [h.shows.attempt, ← h.reported, ← hcurrent.reported]
      exact (Prod.mk.inj hsame).2.symm
    · exact hcurrent.reported
    · exact h.shows.epoch_le.trans hcurrent.epoch_le
    · exact le_refl _
    · rename_i hsame
      intro hconnected
      have hstatus : (m.machine.handle i).1.status = .connected := by
        rw [(Prod.mk.inj hsame).1, ← h.shows.status, hconnected]
      rw [h.shows.epoch_eq hconnected, hcurrent.connected hstatus hsame]
    · exact fun _ => rfl
  · rw [h.published_feed]
    split
    · exact le_refl _
    · exact h.shows.epoch_le.trans hcurrent.epoch_le

theorem Publishes.handle (h : m.Publishes) (env : Surroundings) (message : ManagerMessage) :
    (m.handle env message).1.Publishes
      ∧ m.published.epoch ≤ (m.handle env message).1.published.epoch := by
  refine handle_induction
    (P := fun s => s.1.Publishes ∧ m.published.epoch ≤ s.1.published.epoch) env message
    (fun _ => ⟨h, le_refl _⟩) (fun i _ => h.feed env i) (fun _ _ => ⟨h, le_refl _⟩)
    (fun request id version action caller _ => ?_) (fun _ => ?_)
  · rw [submit_fst]
    exact ⟨⟨h.sound, h.reported, h.shows.status, h.shows.attempt, h.shows.epoch_le,
      h.shows.epoch_eq⟩, le_refl _⟩
  · obtain ⟨⟨hsound, hreported, hshows⟩, hle⟩ := h.feed env .disconnect
    exact ⟨⟨hsound, hreported, hshows.status, hshows.attempt, hshows.epoch_le, hshows.epoch_eq⟩,
      hle⟩

theorem Publishes.run (h : m.Publishes) (moments : List Moment) : (m.run moments).1.Publishes :=
  run_induction h (fun _ t hm => (hm.handle t.env t.message).1) moments

/-- **The published epoch never goes back.** -/
theorem Publishes.epoch_le_run (h : m.Publishes) (moments later : List Moment) :
    (m.run moments).1.published.epoch ≤ (m.run (moments ++ later)).1.published.epoch := by
  induction later using List.reverseRecOn with
  | nil => rw [List.append_nil]
  | append_singleton later t ih =>
    rw [← List.append_assoc, run_concat]
    exact ih.trans ((h.run _).handle t.env t.message).2

/-- **Observers see the true status.** Whoever remembers the latest report
knows the status and the number of retries after every step, and is told
nothing twice in a row. Whoever looks at the published state sees the same,
with an epoch that never goes back, is never ahead, and is the current one
while there is a connection. -/
theorem observers_see_status (initial bound : Duration) (maxAttempts protocol : UInt32)
    (timeout : Duration) (hostActive : Bool) :
    let machine := Machine.initial (.start initial bound maxAttempts) protocol timeout hostActive
    (∀ inputs, let s := machine.run inputs
        believed s.2 = (s.1.status, s.1.backoff.attempts)
          ∧ (unseen :: reports s.2).IsChain (· ≠ ·))
      ∧ (∀ moments, ((start machine).run moments).1.Shows)
      ∧ ∀ moments later, ((start machine).run moments).1.published.epoch
          ≤ ((start machine).run (moments ++ later)).1.published.epoch := by
  intro machine
  have hbelieved : machine.Believed [] := Machine.believed_start ..
  have hpublishes : (start machine).Publishes := publishes_start ..
  refine ⟨fun inputs => ?_, fun moments => (hpublishes.run moments).shows,
    hpublishes.epoch_le_run⟩
  have h := hbelieved.run inputs
  refine ⟨h.believed.trans ?_, h.chain⟩
  rw [Machine.sighting, h.reported]

end Manager

end LiveSync.Connection
