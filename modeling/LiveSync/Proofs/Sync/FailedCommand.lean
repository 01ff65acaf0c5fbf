import LiveSync.Proofs.Cache.Soundness
import LiveSync.Sync.Coordinator

/-!
# A command that fails leaves no trace

A command shows its guess, is dispatched, and fails. In the meantime states
come in, watchdogs discard guesses, and the server confirms what it said
before. When the guess is taken back, the cache should be what it would be
without the command.

The proof runs the cache twice, with the command and without it, and
compares the two slots of its entity. At first one **covers** the other: it
shows the guess where the other shows the entry that the guess replaced
(`Slot.Covers`). Whatever removes the guess – a newer state, or a watchdog –
acts on both slots, and from then on the one **follows** the other
(`Slot.Follows`). A guess that is gone never comes back by itself, so the
two cases tell at the end whether the entry has to be put back.
-/

namespace LiveSync

/-! ### The two slots -/

namespace Slot

/-- **The guess is still shown**: `s` shows `g` where `t` shows what the
guess replaced. -/
structure Covers (g p : Entry) (s t : Slot) : Prop where
  isOptimistic : g.isOptimistic = true
  current : s.current = g
  replaced : p.Same t.current
  authoritative : s.authoritative.Same t.authoritative

/-- **The guess is gone**: both slots show the server's entry. -/
structure Follows (s t : Slot) : Prop where
  current : s.current.Same t.current
  authoritative : s.authoritative.Same t.authoritative
  isOptimistic : s.current.isOptimistic = false

variable {id : EntityId} {g p : Entry} {s t : Slot}

/-- Slots with the same server's entry rest on the same version. -/
theorem Sound.baseVersion_eq (hs : s.Sound id) (ht : t.Sound id)
    (ha : s.authoritative.Same t.authoritative) :
    s.current.baseVersion = t.current.baseVersion := by
  rw [hs.baseVersion_current, ht.baseVersion_current, ha.version]

theorem guessesOn_eq_false (h : s.current.isOptimistic = false) (base : Version) :
    s.guessesOn base = false := by
  rw [guessesOn, h, Bool.false_and]

/-- The slots of an entity whose newest state has just come in. -/
theorem follows_first {e : Entry} (he : e.provenance.isAuthoritative = true) :
    (first e).Follows (first e) :=
  ⟨.refl e, .refl e, Entry.isOptimistic_eq_false he⟩

/-! A newer state removes the guess on the one side, and what it replaced on
the other. -/

theorem Covers.offered (h : Covers g p s t) (hs : s.Sound id) (ht : t.Sound id) {e : Entry}
    (he : e.provenance.isAuthoritative = true) :
    Covers g p (s.offered e) (t.offered e) ∨ (s.offered e).Follows (t.offered e) := by
  rw [Slot.offered, Slot.offered, ← hs.baseVersion_eq ht h.authoritative]
  split
  · exact .inr (follows_first he)
  · exact .inl h

theorem Follows.offered (h : s.Follows t) (hs : s.Sound id) (ht : t.Sound id) {e : Entry}
    (he : e.provenance.isAuthoritative = true) : (s.offered e).Follows (t.offered e) := by
  rw [Slot.offered, Slot.offered, ← hs.baseVersion_eq ht h.authoritative]
  split
  · exact follows_first he
  · exact h

/-! A time that moves is not seen. -/

theorem same_current_refreshed (t : Slot) (now : Instant) :
    t.current.Same (t.refreshed now).current := by
  unfold refreshed
  split
  · exact .refl _
  · exact Entry.same_at _ now

theorem same_authoritative_refreshed (h : s.authoritative.Same t.authoritative)
    (now : Instant) : (s.refreshed now).authoritative.Same (t.refreshed now).authoritative :=
  (Entry.same_at s.authoritative now).symm.trans (h.trans (Entry.same_at t.authoritative now))

theorem Covers.refreshed (h : Covers g p s t) (now : Instant) :
    Covers g p (s.refreshed now) (t.refreshed now) where
  isOptimistic := h.isOptimistic
  current := by
    rw [Slot.refreshed, h.current, h.isOptimistic]
    rfl
  replaced := h.replaced.trans (t.same_current_refreshed now)
  authoritative := same_authoritative_refreshed h.authoritative now

theorem Follows.refreshed (h : s.Follows t) (now : Instant) :
    (s.refreshed now).Follows (t.refreshed now) where
  current :=
    (s.same_current_refreshed now).symm.trans (h.current.trans (t.same_current_refreshed now))
  authoritative := same_authoritative_refreshed h.authoritative now
  isOptimistic := (s.same_current_refreshed now).isOptimistic.symm.trans h.isOptimistic

/-! A watchdog that discards the guess discards what it replaced as well,
unless that is the server's entry already. -/

theorem current_reverted (ht : t.Sound id) (base : Version)
    (hb : base = t.authoritative.version) : (t.reverted base).current = t.authoritative := by
  rw [Slot.reverted]
  split
  · rfl
  · rename_i hno
    refine ht.current_eq (Bool.eq_false_iff.mpr fun ho => ?_)
    exact hno ((ht.guessesOn_iff base).mpr ⟨ho, hb⟩)

theorem Covers.reverted (h : Covers g p s t) (hs : s.Sound id) (ht : t.Sound id)
    (base : Version) :
    Covers g p (s.reverted base) (t.reverted base)
      ∨ (s.reverted base).Follows (t.reverted base) := by
  by_cases hb : base = s.authoritative.version
  · have hbt : base = t.authoritative.version := hb.trans h.authoritative.version
    refine .inr ⟨?_, ?_, ?_⟩
    · rw [current_reverted hs base hb, current_reverted ht base hbt]
      exact h.authoritative
    · rw [Sound.authoritative_reverted, Sound.authoritative_reverted]
      exact h.authoritative
    · rw [current_reverted hs base hb]
      exact Entry.isOptimistic_eq_false hs.isAuthoritative
  · have hbt : base ≠ t.authoritative.version := fun hbt =>
      hb (hbt.trans h.authoritative.version.symm)
    have hs' : ¬ s.guessesOn base = true := fun hgo => hb ((hs.guessesOn_iff base).mp hgo).2
    have ht' : ¬ t.guessesOn base = true := fun hgo => hbt ((ht.guessesOn_iff base).mp hgo).2
    rw [Slot.reverted, Slot.reverted, if_neg hs', if_neg ht']
    exact .inl ⟨h.isOptimistic, h.current, h.replaced, h.authoritative⟩

theorem Follows.reverted (h : s.Follows t) (base : Version) :
    (s.reverted base).Follows (t.reverted base) := by
  have ho : t.current.isOptimistic = false := h.current.isOptimistic.symm.trans h.isOptimistic
  rw [Slot.reverted, Slot.reverted, guessesOn_eq_false h.isOptimistic, guessesOn_eq_false ho]
  exact ⟨h.current, h.authoritative, h.isOptimistic⟩

/-! ### Meeting the background -/

/-- The slot with the command beside the slot without it. -/
def Beside (g p : Entry) (s t : Slot) : Prop := Covers g p s t ∨ s.Follows t

theorem Covers.met (h : Covers g p s t) (hs : s.Sound id) (ht : t.Sound id)
    (b : Cache.Background) : Beside g p (s.met b) (t.met b) := by
  cases b with
  | push id version payload now => exact h.offered hs ht rfl
  | fetched id version payload validator now => exact h.offered hs ht rfl
  | notModified id now => exact .inl (h.refreshed now)
  | revert id base => exact h.reverted hs ht base

theorem Follows.met (h : s.Follows t) (hs : s.Sound id) (ht : t.Sound id)
    (b : Cache.Background) : (s.met b).Follows (t.met b) := by
  cases b with
  | push id version payload now => exact h.offered hs ht rfl
  | fetched id version payload validator now => exact h.offered hs ht rfl
  | notModified id now => exact h.refreshed now
  | revert id base => exact h.reverted base

theorem Beside.met (h : Beside g p s t) (hs : s.Sound id) (ht : t.Sound id)
    (b : Cache.Background) : Beside g p (s.met b) (t.met b) := by
  rcases h with h | h
  · exact h.met hs ht b
  · exact .inr (h.met hs ht b)

/-! ### Taking the guess back -/

/-- While the guess is shown, it can be taken back. -/
theorem Covers.guessesOn (h : Covers g p s t) (hs : s.Sound id) (ht : t.Sound id) :
    s.guessesOn p.baseVersion = true := by
  refine (hs.guessesOn_iff _).mpr ⟨h.current ▸ h.isOptimistic, ?_⟩
  rw [h.replaced.baseVersion, ht.baseVersion_current, h.authoritative.version]

/-- While the guess is shown, the entry it replaced is put back. -/
theorem Covers.putBack (h : Covers g p s t) (hs : s.Sound id) (ht : t.Sound id) :
    (s.putBack p).current = p ∧ (s.putBack p).authoritative.Same t.authoritative := by
  rw [Slot.putBack, if_pos (h.guessesOn hs ht)]
  refine ⟨rfl, ?_⟩
  cases hp : p.isOptimistic with
  | true => exact h.authoritative
  | false =>
    have ho : t.current.isOptimistic = false := h.replaced.isOptimistic.symm.trans hp
    exact ht.current_eq ho ▸ h.replaced

/-- Once the guess is gone, nothing is put back. -/
theorem Follows.putBack (h : s.Follows t) (p : Entry) : s.putBack p = s.settled := by
  rw [Slot.putBack, guessesOn_eq_false h.isOptimistic]
  rfl

end Slot

/-! ### The two runs -/

namespace Cache

/-- **The run with a command for an entity beside the run without it**: they
differ in the slot of that entity only, and there as `R` says. -/
structure Beside (id : EntityId) (R : Slot → Slot → Prop) (c d : Cache) : Prop where
  sound : c.Sound
  sound_without : d.Sound
  others : ∀ j, id ≠ j → c.slot? j = d.slot? j
  own : ∃ s t, c.slot? id = some s ∧ d.slot? id = some t ∧ R s t

variable {id : EntityId} {R : Slot → Slot → Prop} {c d : Cache} {g p : Entry}

theorem Beside.meet (h : c.Beside id R d) (b : Background)
    (hR : ∀ s t, s.Sound id → t.Sound id → R s t → R (s.met b) (t.met b)) :
    (c.meet b).Beside id R (d.meet b) where
  sound := (h.sound.meet b).1
  sound_without := (h.sound_without.meet b).1
  others := fun j hj => by rw [slot?_meet, slot?_meet, h.others j hj]
  own := by
    obtain ⟨s, t, hs, ht, hst⟩ := h.own
    rw [slot?_meet, slot?_meet, hs, ht]
    split
    · exact ⟨_, _, rfl, rfl, hR s t (h.sound id s hs) (h.sound_without id t ht) hst⟩
    · exact ⟨s, t, rfl, rfl, hst⟩

theorem Beside.meetAll (h : c.Beside id R d) (events : List Background)
    (hR : ∀ b s t, s.Sound id → t.Sound id → R s t → R (s.met b) (t.met b)) :
    (c.meetAll events).Beside id R (d.meetAll events) := by
  induction events generalizing c d with
  | nil => exact h
  | cons b events ih => exact ih (h.meet b (hR b))

/-- When the command has just shown its guess. -/
theorem Sound.beside_beginOptimistic (h : c.Sound) {s : Slot} (hs : c.slot? id = some s)
    (edit : Json → Json) (now : Instant) :
    (c.beginOptimistic id edit now).state.Beside id
      (Slot.Beside (s.guessed edit now).current s.current) c where
  sound := (h.beginOptimistic id edit now).1
  sound_without := h
  others := fun j hj => (alters_beginOptimistic c id edit now j).trans (if_neg hj)
  own := by
    refine ⟨s.guessed edit now, s, ?_, hs, .inl ⟨rfl, rfl, .refl _, .refl _⟩⟩
    rw [alters_beginOptimistic c id edit now id, if_pos rfl, hs]
    rfl

theorem meetAll_append (c : Cache) (events events' : List Background) :
    c.meetAll (events ++ events') = (c.meetAll events).meetAll events' :=
  List.foldl_append

theorem Beside.mono {R' : Slot → Slot → Prop} (h : c.Beside id R d)
    (hR : ∀ s t, c.slot? id = some s → R s t → R' s t) : c.Beside id R' d := by
  obtain ⟨s, t, hs, ht, hst⟩ := h.own
  exact ⟨h.sound, h.sound_without, h.others, s, t, hs, ht, hR s t hs hst⟩

/-- What is shown tells whether the guess is gone. -/
theorem Beside.covers (h : c.Beside id (Slot.Beside g p) d) (hg : g.isOptimistic = true)
    (hc : c.current? id = some g) : c.Beside id (Slot.Covers g p) d := by
  refine h.mono fun s t hs hst => hst.resolve_right fun hf => ?_
  rw [current?, hs] at hc
  obtain rfl := Option.some.inj hc
  exact Bool.false_ne_true (hf.isOptimistic.symm.trans hg)

theorem Beside.follows (h : c.Beside id (Slot.Beside g p) d) (hc : c.current? id ≠ some g) :
    c.Beside id Slot.Follows d := by
  refine h.mono fun s t hs hst => hst.resolve_left fun hcov => hc ?_
  rw [current?, hs]
  exact congrArg some hcov.current

/-! ### The end of the command -/

/-- **Nothing that happens removes the entry that is shown.** -/
def KeepsShown (c : Cache) (id : EntityId) (events : List Background) : Prop :=
  ∀ past, past <+: events → (c.meetAll past).current? id = c.current? id

/-- A guess that is gone does not come back. -/
theorem Beside.follows_of_not_keepsShown (h : c.Beside id (Slot.Beside g p) d)
    (hc : c.current? id = some g) {events : List Background}
    (hk : ¬ c.KeepsShown id events) :
    (c.meetAll events).Beside id Slot.Follows (d.meetAll events) := by
  rw [KeepsShown] at hk
  push Not at hk
  obtain ⟨past, ⟨rest, rfl⟩, hpast⟩ := hk
  have hgone := (h.meetAll past fun b s t hs ht hst => hst.met hs ht b).follows (hc ▸ hpast)
  rw [meetAll_append, meetAll_append]
  exact hgone.meetAll rest fun b s t hs ht hst => hst.met hs ht b

/-- The guess is taken back, and the entry it replaced is shown. -/
theorem Beside.rollback_of_covers (h : c.Beside id (Slot.Covers g p) d) (hp : p.entityId = id) :
    (c.rollback p).result = true
      ∧ (c.rollback p).state.current? id = some p
      ∧ ∀ j, Entry.Agree ((c.rollback p).state.current? j) (d.current? j)
          ∧ Entry.Agree ((c.rollback p).state.authoritative? j) (d.authoritative? j) := by
  subst hp
  obtain ⟨s, t, hs, ht, hst⟩ := h.own
  have hput := hst.putBack (h.sound _ s hs) (h.sound_without _ t ht)
  have hslot : (c.rollback p).state.slot? p.entityId = some (s.putBack p) := by
    rw [alters_rollback c p p.entityId, if_pos rfl, hs]
    rfl
  have hcur : (c.rollback p).state.current? p.entityId = some p := by
    rw [current?, hslot]
    exact congrArg some hput.1
  refine ⟨?_, hcur, fun j => ?_⟩
  · rw [result_rollback, hs]
    exact hst.guessesOn (h.sound _ s hs) (h.sound_without _ t ht)
  · by_cases hj : p.entityId = j
    · subst hj
      rw [hcur, current?, authoritative?_eq hslot, authoritative?_eq ht, ht]
      exact ⟨.some hst.replaced, .some hput.2⟩
    · rw [current?, current?, authoritative?, authoritative?, alters_rollback c p j, if_neg hj,
        h.others j hj]
      exact ⟨.refl _, .refl _⟩

/-- Nothing is put back, and the cache is what it is without the command. -/
theorem Beside.rollback_of_follows (h : c.Beside id Slot.Follows d) (hp : p.entityId = id) :
    (c.rollback p).result = false
      ∧ ∀ j, ((c.rollback p).state.current? j = c.current? j
          ∧ (c.rollback p).state.authoritative? j = c.authoritative? j)
        ∧ Entry.Agree (c.current? j) (d.current? j)
        ∧ Entry.Agree (c.authoritative? j) (d.authoritative? j) := by
  subst hp
  obtain ⟨s, t, hs, ht, hst⟩ := h.own
  refine ⟨?_, fun j => ?_⟩
  · rw [result_rollback, hs]
    exact Slot.guessesOn_eq_false hst.isOptimistic _
  · rw [current?, current?, current?, authoritative?, authoritative?, authoritative?,
      alters_rollback c p j]
    by_cases hj : p.entityId = j
    · subst hj
      rw [if_pos rfl, hs, ht, Option.map_some, hst.putBack]
      exact ⟨⟨rfl, rfl⟩, .some hst.current, .some hst.authoritative⟩
    · rw [if_neg hj, h.others j hj]
      exact ⟨⟨rfl, rfl⟩, .refl _, .refl _⟩

end Cache

namespace Coordinator

open Cache

/-- A command whose turn has come writes its guess. -/
theorem enter_eq_beginOptimistic (k : Coordinator) (c : Cache) (s : Submission) (route : Route)
    (now : Instant) (deadline : Clock) :
    let u := c.beginOptimistic s.mutation.entityId (Mutation.speculate s.mutation.action) now
    (k.enter c s route now deadline).state.2 = u.state
      ∧ (k.enter c s route now deadline).result = u.result := by
  intro u
  show (k.enter c s route now deadline).state.2 = u.state ∧ _
  rw [enter]
  cases hu : (c.beginOptimistic s.mutation.entityId
    (Mutation.speculate s.mutation.action) now).result <;> exact ⟨rfl, hu⟩

/-- What is handed out for a guess was shown before, in a slot. -/
theorem slot_of_enter {k : Coordinator} {c : Cache} {s : Submission} {route : Route}
    {now : Instant} {deadline : Clock} {previous : Entry}
    (h : (k.enter c s route now deadline).result = .ok previous) :
    ∃ slot, c.slot? s.mutation.entityId = some slot ∧ slot.current = previous := by
  rw [(enter_eq_beginOptimistic k c s route now deadline).2, result_beginOptimistic,
    current?] at h
  cases hs : c.slot? s.mutation.entityId with
  | none =>
    rw [hs] at h
    cases h
  | some slot =>
    rw [hs] at h
    exact ⟨slot, rfl, Except.ok.inj h⟩

/-- **A command that fails leaves no trace.** Whatever has happened in the
background between its dispatch and its failure, the entries of the cache
are those of the run without it, up to their time. If nothing has removed
its guess, the very entry it replaced is shown again; otherwise nothing is
put back and the entries stay as they are. -/
theorem failed_command_leaves_no_trace (ops : List Op) (k k' : Coordinator) (s : Submission)
    (route : Route) (now : Instant) (deadline watchdog : Clock) (failure : Failure.Command)
    (between : List Background) (previous : Entry)
    (h : (k.enter (Ledger.run ops).cache s route now deadline).result = .ok previous) :
    let id := s.mutation.entityId
    let before := (Ledger.run ops).cache
    let entered := (k.enter before s route now deadline).state.2
    let failing := entered.meetAll between
    let after := (k'.resolve failing s.caller previous (.error failure) watchdog).state.2
    (∀ j, Entry.Agree (after.current? j) ((before.meetAll between).current? j)
        ∧ Entry.Agree (after.authoritative? j) ((before.meetAll between).authoritative? j))
      ∧ (entered.KeepsShown id between →
          (failing.rollback previous).result = true ∧ after.current? id = some previous)
      ∧ (¬ entered.KeepsShown id between →
          (failing.rollback previous).result = false
          ∧ ∀ j, after.current? j = failing.current? j
              ∧ after.authoritative? j = failing.authoritative? j) := by
  intro id before entered failing after
  have hsound : before.Sound := (Ledger.sound_run ops).cache
  obtain ⟨slot, hslot, rfl⟩ := slot_of_enter h
  have hid : slot.current.entityId = id := (hsound _ slot hslot).current_entityId
  -- the run with the command beside the run without it, when the guess is shown
  have hbeside := hsound.beside_beginOptimistic hslot (Mutation.speculate s.mutation.action) now
  rw [← (enter_eq_beginOptimistic k before s route now deadline).1] at hbeside
  generalize hg : (slot.guessed (Mutation.speculate s.mutation.action) now).current = g at hbeside
  have hshown : entered.current? id = some g := by
    rw [show entered = _ from (enter_eq_beginOptimistic k before s route now deadline).1, current?,
      alters_beginOptimistic before s.mutation.entityId _ now id, if_pos rfl, hslot, ← hg]
    rfl
  have hopt : g.isOptimistic = true := hg ▸ rfl
  -- and when the command fails
  have hend := hbeside.meetAll between fun b s t hs ht hst => hst.met hs ht b
  have hkept (hk : entered.KeepsShown id between) :=
    (hend.covers hopt ((hk between (List.prefix_refl _)).trans hshown)).rollback_of_covers hid
  have hgone (hk : ¬ entered.KeepsShown id between) :=
    (hbeside.follows_of_not_keepsShown hshown hk).rollback_of_follows hid
  refine ⟨fun j => ?_, fun hk => ⟨(hkept hk).1, (hkept hk).2.1⟩, fun hk => ⟨(hgone hk).1,
    fun j => ((hgone hk).2 j).1⟩⟩
  by_cases hk : entered.KeepsShown id between
  · exact (hkept hk).2.2 j
  · obtain ⟨⟨hcur, hauth⟩, hagree⟩ := (hgone hk).2 j
    rw [show after.current? j = _ from hcur, show after.authoritative? j = _ from hauth]
    exact hagree

/-- A guess on a guess that the server has not answered; a watchdog discards
both before the command fails. -/
theorem failed_command_leaves_no_trace_discarded :
    let ops : List Op := [.background (.push 1 5 .null ⟨0, 0⟩), .guess 1 id ⟨1, 0⟩]
    let previous := (Entry.push 1 5 .null ⟨0, 0⟩).optimistic .null ⟨1, 0⟩
    let between : List Background :=
      [.push 1 4 (.bool true) ⟨3, 0⟩, .revert 1 5, .push 2 1 .null ⟨4, 0⟩]
    let before := (Ledger.run ops).cache
    let s : Submission := ⟨0, ⟨1, .ready true⟩, 0, .waiting⟩
    let u := empty.enter before s .live ⟨2, 0⟩ 9
    let failing := u.state.2.meetAll between
    let after := (empty.resolve failing 0 previous (.error (.conflict "stale")) 9).state.2
    u.result = .ok previous ∧ ¬ u.state.2.KeepsShown 1 between
      ∧ (failing.rollback previous).result = false
      ∧ Entry.Agree (after.current? 1) ((before.meetAll between).current? 1) := by
  intro ops previous between before s u failing after
  have hresult : u.result = .ok previous := rfl
  have hgone : ¬ u.state.2.KeepsShown 1 between := fun hk =>
    Bool.false_ne_true (Option.some.inj
      (congrArg (Option.map Entry.isOptimistic) (hk between (List.prefix_refl _))))
  have h := failed_command_leaves_no_trace ops empty empty s .live ⟨2, 0⟩ 9 9
    (.conflict "stale") between previous hresult
  exact ⟨hresult, hgone, (h.2.2 hgone).1, (h.1 1).1⟩

end Coordinator

end LiveSync
