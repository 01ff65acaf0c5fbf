import LiveSync.Client.Step
import LiveSync.Proofs.Sync.Desk

/-!
# An echo that is lost

When a command was accepted, the state that it led to is on its way. If it is
lost, the watchdog of the command has the entity fetched – as long as it can
tell. It looks at nothing but the entry that is shown, and takes anything else
than a guess on the same version for the echo. So the command ends in a state
of the version that it led to, or in a fetch, if no state comes in its way
(`Coordinator.Calm`) that is newer than what the command was issued against
and older than what it led to: neither before it is accepted nor while its
watchdog sleeps. Otherwise the echo may be lost for good: such a state has
replaced the guess, the watchdog finds nothing to do, and there is no other.
A state that is older still, and comes in late, does no harm: the cache passes
it over.

The proof follows what is shown: a guess on the version that the command was
issued against, or a state that is new enough (`Entry.UpTo`). So is every entry
that a later command's guess replaces, and which its failure puts back.
-/

namespace LiveSync

/-! ### Entries that a command may lead to -/

/-- **A guess that rests on a version, or an entry of another version at
least**: the one is shown while the echo is awaited, and the other once it is
not needed any more. -/
def Entry.UpTo (base v : Version) (e : Entry) : Prop :=
  e.isOptimistic = true ∧ e.baseVersion = base ∨ v ≤ e.version

namespace Slot

variable {id : EntityId} {base v : Version} {s : Slot} {e : Entry}

theorem guessesOn_iff : s.guessesOn base = true
    ↔ s.current.isOptimistic = true ∧ s.current.baseVersion = base := by
  rw [guessesOn, Bool.and_eq_true, beq_iff_eq]

/-- A state that comes in is new enough, or is not taken up. -/
theorem upTo_offered (hs : s.Sound id) (h : s.current.UpTo base v)
    (he : e.version ≤ base ∨ v ≤ e.version) : (s.offered e).current.UpTo base v := by
  unfold offered
  split
  · rename_i htaken
    right
    show v ≤ e.version
    rcases h with ⟨-, hbase⟩ | hv
    · exact he.resolve_left fun hle => Int64.lt_irrefl (Int64.lt_of_lt_of_le (hbase ▸ htaken) hle)
    · rw [hs.baseVersion_current, ← hs.version_current] at htaken
      exact Int64.le_trans hv (Int64.le_of_lt htaken)
  · exact h

theorem upTo_refreshed (h : s.current.UpTo base v) (now : Instant) :
    (s.refreshed now).current.UpTo base v := by
  unfold refreshed
  split
  · exact h
  · rename_i ho
    exact .inr (h.resolve_left fun hg => ho hg.1)

/-- Guesses on another version may be discarded. -/
theorem upTo_reverted (hs : s.Sound id) (h : s.current.UpTo base v) {other : Version}
    (hne : other ≠ base) : (s.reverted other).current.UpTo base v := by
  unfold reverted
  split
  · rename_i hg
    rcases h with ⟨-, hbase⟩ | hv
    · exact absurd ((guessesOn_iff.mp hg).2.symm.trans hbase) hne
    · exact .inr (hs.version_current ▸ hv)
  · exact h

theorem upTo_guessed (h : s.current.UpTo base v) (edit : Json → Json) (now : Instant) :
    (s.guessed edit now).current.UpTo base v :=
  h.imp (fun hg => ⟨rfl, hg.2⟩) id

theorem upTo_putBack (h : s.current.UpTo base v) (he : e.UpTo base v) :
    (s.putBack e).current.UpTo base v := by
  unfold putBack
  split
  · exact he
  · exact h

end Slot

namespace Cache.Background

/-- **No state between two versions comes in for an entity**, and the guesses
on the first of them are not discarded. -/
def NoneBetween (id : EntityId) (base v : Version) (b : Background) : Prop :=
  match b with
  | .push j version _ _ | .fetched j version _ _ _ => j = id → version ≤ base ∨ v ≤ version
  | .notModified _ _ => True
  | .revert j other => j = id → other ≠ base

end Cache.Background

namespace Coordinator

open Cache

variable {d d' : WithCache} {id : EntityId} {base v : Version} {deadline : Clock}

/-- **What does not come in the way of a command's echo**: no state comes in
that is newer than what the command was issued against and older than what it
led to, no other command for the entity is accepted, and the watchdog is
neither called off nor woken up yet. -/
def Calm (id : EntityId) (base v : Version) (deadline : Clock) (d : WithCache) : Op → Prop
  | .world cache => ∃ b : Background, cache = d.2.meet b ∧ b.NoneBetween id base v
  | .resolve caller (.ok _) _ => ∀ s, d.1.find? caller = some s → s.mutation.entityId ≠ id
  | .wake j now => j = id → now < deadline
  | .shutdown => False
  | .join _ _ | .enter _ _ _ _ | .resolve _ (.error _) _ | .forget _ | .confirm _ _ => True

theorem Calm.honest {op : Op} (h : Calm id base v deadline d op) : Honest d op := by
  rintro cache rfl
  obtain ⟨b, hb, -⟩ := h
  exact ⟨b, hb⟩

/-- **A desk that waits for an echo.** -/
structure Awaits (id : EntityId) (base v : Version) (deadline : Clock) (d : WithCache) : Prop where
  sound : Sound d
  /-- The watchdog of the command is set, and sleeps. -/
  armed : d.1.watchdogs.get? id = some ⟨base, deadline, .sleeping⟩
  /-- The entry that is shown is a guess on the same version, or new enough. -/
  shown : ∃ s, d.2.slot? id = some s ∧ s.current.UpTo base v
  /-- An entry that a later guess has replaced is a guess on the same version, or
  new enough. -/
  replaced : ∀ s ∈ d.1.submissions, ∀ route previous deadline,
    s.stage = .dispatched route previous deadline → s.mutation.entityId = id →
      previous.UpTo base v

/-- What is shown for an entity stays new enough when its slot is altered by
something that keeps it so. -/
theorem upTo_alters {c c' : Cache} {j : EntityId} {f : Slot → Slot} (ha : c.Alters j f c')
    (hf : ∀ s, j = id → s.current.UpTo base v → (f s).current.UpTo base v)
    (hs : ∃ s, c.slot? id = some s ∧ s.current.UpTo base v) :
    ∃ s, c'.slot? id = some s ∧ s.current.UpTo base v := by
  obtain ⟨s, hs, hup⟩ := hs
  rw [ha id, hs]
  split
  · rename_i hj
    exact ⟨f s, rfl, hf s hj hup⟩
  · exact ⟨s, rfl, hup⟩

theorem upTo_meet {c : Cache} (hc : c.Sound) {b : Background} (hb : b.NoneBetween id base v)
    (hs : ∃ s, c.slot? id = some s ∧ s.current.UpTo base v) :
    ∃ s, (c.meet b).slot? id = some s ∧ s.current.UpTo base v := by
  obtain ⟨s, hs, hup⟩ := hs
  have hsound : s.Sound id := hc id s hs
  rw [slot?_meet, hs]
  split
  · rename_i hj
    refine ⟨s.met b, rfl, ?_⟩
    cases b with
    | push j version payload now => exact Slot.upTo_offered hsound hup (hb hj)
    | fetched j version payload validator now => exact Slot.upTo_offered hsound hup (hb hj)
    | notModified j now => exact Slot.upTo_refreshed hup now
    | revert j other => exact Slot.upTo_reverted hsound hup (hb hj)
  · exact ⟨s, rfl, hup⟩

/-- An operation by which no command is dispatched. -/
theorem Awaits.of_leaves (h : Awaits id base v deadline d) {op : Op} (hop : op.leaves = true)
    (ho : Honest d op)
    (harmed : (perform d op).1.watchdogs.get? id = some ⟨base, deadline, .sleeping⟩)
    (hshown : ∃ s, (perform d op).2.slot? id = some s ∧ s.current.UpTo base v) :
    Awaits id base v deadline (perform d op) where
  sound := h.sound.perform ho
  armed := harmed
  shown := hshown
  replaced := fun s hs => h.replaced s (mem_of_mem_perform hop hs)

theorem Awaits.join (h : Awaits id base v deadline d) {caller : CallId}
    (hnew : d.1.find? caller = none) (m : Mutation) :
    Awaits id base v deadline (d.1.join caller m, d.2) where
  sound := h.sound.join hnew m
  armed := watchdogs_join d.1 caller m ▸ h.armed
  shown := h.shown
  replaced := fun s hs route previous dl hst => by
    rw [submissions_join, List.mem_append, List.mem_singleton] at hs
    rcases hs with hs | rfl
    · exact h.replaced s hs route previous dl hst
    · cases hst

/-- What a command's guess replaces was shown, and the guess is one on it. -/
theorem Awaits.enter (h : Awaits id base v deadline d) {s : Submission}
    (hs : s ∈ d.1.submissions) (hfree : d.1.isFree s.gate = true) (route : Route) (now : Instant)
    (commandDeadline : Clock) :
    Awaits id base v deadline (d.1.enter d.2 s route now commandDeadline).state := by
  have hsound := h.sound.enter hs hfree route now commandDeadline
  cases hslot : d.2.slot? s.mutation.entityId with
  | none =>
    rw [enter_of_none d.1 hslot] at hsound ⊢
    exact ⟨hsound, h.armed, h.shown, fun t ht => h.replaced t (mem_forget.mp ht).1⟩
  | some slot =>
    rw [enter_of_some d.1 hslot] at hsound ⊢
    refine ⟨hsound, h.armed, ?_, fun t ht r p dl hst hid => ?_⟩
    · exact upTo_alters (alters_beginOptimistic d.2 s.mutation.entityId _ now)
        (fun _ _ hup => Slot.upTo_guessed hup _ now) h.shown
    · obtain ⟨hcases, u, hu, hcu, hmu, -⟩ := of_mem_setStage ht
      rcases hcases with ⟨hc, hst'⟩ | ⟨hmem, -⟩
      · obtain ⟨-, rfl, -⟩ := Submission.Stage.dispatched.inj (hst.symm.trans hst')
        obtain rfl := h.sound.orderly.eq_of_caller hu hs (hcu.trans hc)
        obtain ⟨slot', hslot', hup⟩ := h.shown
        rw [← hid, ← hmu, hslot] at hslot'
        exact Option.some.inj hslot' ▸ hup
      · exact h.replaced t hmem r p dl hst hid

/-- A command for another entity may be accepted, and any may fail. -/
theorem Awaits.resolve (h : Awaits id base v deadline d) {caller : CallId} {s : Submission}
    {route : Route} {previous : Entry} {commandDeadline : Clock}
    (hfind : d.1.find? caller = some s)
    (hst : s.stage = .dispatched route previous commandDeadline)
    (result : Except Failure.Command Receipt) (watchdogDeadline : Clock)
    (hok : ∀ receipt, result = .ok receipt → s.mutation.entityId ≠ id) :
    let u := (d.1.resolve d.2 caller previous result watchdogDeadline).state
    u.1.watchdogs.get? id = some ⟨base, deadline, .sleeping⟩
      ∧ ∃ s, u.2.slot? id = some s ∧ s.current.UpTo base v := by
  intro u
  have hs := (mem_of_find? hfind).1
  have hprevious := (h.sound.replaced s hs route previous commandDeadline hst).1
  cases result with
  | ok receipt =>
    have hne : previous.entityId ≠ id := hprevious ▸ hok receipt rfl
    exact ⟨(Table.get?_insert_of_ne _ _ hne).trans h.armed, h.shown⟩
  | error failure =>
    refine ⟨h.armed, upTo_alters (alters_rollback d.2 previous) (fun t hid hup => ?_) h.shown⟩
    exact Slot.upTo_putBack hup
      (h.replaced s hs route previous commandDeadline hst (hprevious.symm.trans hid))

/-- A watchdog that sleeps is not woken up before its time. -/
theorem get?_wake {k : Coordinator} {w : Watchdog} (hw : k.watchdogs.get? id = some w)
    (cache : Cache) {j : EntityId} {now : Clock} (hlate : j = id → now < w.deadline) :
    (k.wake cache j now).1.watchdogs.get? id = some w := by
  unfold wake
  split
  · rename_i w' hw'
    split
    · rename_i hdue
      have hne : j ≠ id := by
        rintro rfl
        obtain rfl := Option.some.inj (hw'.symm.trans hw)
        exact Nat.not_lt.mpr hdue.2 (hlate rfl)
      split
      · exact (Table.get?_insert_of_ne _ _ hne).trans hw
      · exact (Table.get?_erase_of_ne _ hne).trans hw
    · exact hw
  · exact hw

/-- A fetch that ends is not the one of a watchdog that sleeps. -/
theorem Awaits.confirm (h : Awaits id base v deadline d) (j : EntityId) (failed : Bool) :
    let u := (d.1.confirm d.2 j failed).state
    u.1.watchdogs.get? id = some ⟨base, deadline, .sleeping⟩
      ∧ ∃ s, u.2.slot? id = some s ∧ s.current.UpTo base v := by
  intro u
  unfold u Coordinator.confirm
  split
  · rename_i b _ hfetching
    have hne : j ≠ id := by
      rintro rfl
      cases hfetching.symm.trans h.armed
    have harmed := (Table.get?_erase_of_ne d.1.watchdogs hne).trans h.armed
    dsimp only
    split
    · refine ⟨harmed, upTo_alters (alters_revert d.2 j b) (fun s hj _ => absurd hj hne) h.shown⟩
    · exact ⟨harmed, h.shown⟩
  · exact ⟨h.armed, h.shown⟩

/-- **While nothing comes in its way**, the echo is awaited. -/
theorem Awaits.perform (h : Awaits id base v deadline d) {op : Op}
    (hop : Calm id base v deadline d op) :
    Awaits id base v deadline (Coordinator.perform d op) := by
  have hhonest := hop.honest
  cases op with
  | world cache =>
    obtain ⟨b, rfl, hb⟩ := hop
    exact h.of_leaves rfl hhonest h.armed (upTo_meet h.sound.cache hb h.shown)
  | join caller m =>
    rcases perform_join_cases d caller m with heq | ⟨hnew, heq⟩ <;> rw [heq]
    · exact h
    · exact h.join hnew m
  | enter caller route now commandDeadline =>
    rcases perform_enter_cases d caller route now commandDeadline with
      heq | ⟨s, hfind, hfree, heq⟩ <;> rw [heq]
    · exact h
    · exact h.enter (mem_of_find? hfind).1 hfree route now commandDeadline
  | resolve caller result watchdogDeadline =>
    rcases perform_resolve_cases d caller result watchdogDeadline with
      heq | ⟨s, route, previous, _, hfind, hst, heq⟩
    · rw [heq]
      exact h
    · have hresolve := h.resolve hfind hst result watchdogDeadline (by
        rintro receipt rfl
        exact hop s hfind)
      exact h.of_leaves rfl hhonest (heq ▸ hresolve.1) (heq ▸ hresolve.2)
  | forget caller => exact h.of_leaves rfl hhonest h.armed h.shown
  | wake j now => exact h.of_leaves rfl hhonest (get?_wake h.armed d.2 hop) h.shown
  | confirm j failed =>
    exact h.of_leaves rfl hhonest (h.confirm j failed).1 (h.confirm j failed).2
  | shutdown => exact hop.elim

/-- When its time has come, a watchdog that still sees the guess has the entity
fetched; otherwise what is shown is new enough. -/
theorem Awaits.wake (h : Awaits id base v deadline d) {now : Clock} (hdue : deadline ≤ now) :
    (∃ w, d.2.version? id = some w ∧ v ≤ w) ∨ (d.1.wake d.2 id now).2 = true := by
  obtain ⟨s, hs, hup⟩ := h.shown
  rcases hup with hguess | hversion
  · refine .inr ?_
    have hunconfirmed : isUnconfirmed d.2 id base = true := by
      rw [isUnconfirmed, hs, Option.any_some, Slot.guessesOn_iff]
      exact hguess
    rw [Coordinator.wake, h.armed]
    exact congrArg Prod.snd ((if_pos ⟨rfl, hdue⟩).trans (if_pos hunconfirmed))
  · exact .inl ⟨s.current.version, by rw [version?, current?, hs]; rfl, hversion⟩

/-- **When a command is accepted**, no other for its entity was dispatched, and
its watchdog is set. -/
theorem Sound.awaits_resolve (h : Sound d) {caller : CallId} {s : Submission} {route : Route}
    {previous : Entry} {commandDeadline : Clock} (hfind : d.1.find? caller = some s)
    (hst : s.stage = .dispatched route previous commandDeadline)
    (hshown : ∃ slot, d.2.slot? s.mutation.entityId = some slot
      ∧ slot.current.UpTo previous.baseVersion v) (receipt : Receipt) :
    Awaits s.mutation.entityId previous.baseVersion v deadline
      (Coordinator.perform d (.resolve caller (.ok receipt) deadline)) := by
  obtain ⟨hs, hcaller⟩ := mem_of_find? hfind
  have hprevious := (h.replaced s hs route previous commandDeadline hst).1
  have hhonest : Honest d (.resolve caller (.ok receipt) deadline) := nofun
  have hsound := h.perform hhonest
  have heq : Coordinator.perform d (.resolve caller (.ok receipt) deadline)
      = ((d.1.forget caller).arm previous deadline, d.2) := perform_resolve hfind hst _ deadline
  rw [heq] at hsound ⊢
  refine ⟨hsound, ?_, hshown, fun t ht route' p dl hst' hid => ?_⟩
  · rw [← hprevious]
    exact Table.get?_insert_self _ _ _
  · -- the command was the only one for its entity that was dispatched, and it is gone
    obtain ⟨hmem, hne⟩ := mem_forget.mp ht
    have hdispatched : s.isDispatched = true := by rw [Submission.isDispatched, hst]
    have hdispatched' : t.isDispatched = true := by rw [Submission.isDispatched, hst']
    have hsame := h.orderly.alone t hmem s hs hdispatched' hdispatched
      ((h.orderly.gate_eq_iff hmem hs).mpr hid)
    exact absurd (hsame ▸ hcaller) hne

/-- **An accepted command ends in its echo or in a fetch**, if nothing comes in
the way. A command that led to the version `v` is accepted while its guess, or
a state of that version at least, is shown for its entity. Whatever happens
then, as long as no state of the entity comes in that is newer than what the
command was issued against and older than `v`, no other command for it is
accepted, and the client is not shut down: when the time of the watchdog has
come, a state of that version at least is shown, or the watchdog has the
entity fetched in full. -/
theorem accepted_command_echoed_or_fetched (d d' : WithCache) (caller : CallId) (s : Submission)
    (route : Route) (previous : Entry) (commandDeadline deadline now : Clock) (v : Version)
    (hd : Runs Honest (empty, .empty) d) (hfind : d.1.find? caller = some s)
    (hst : s.stage = .dispatched route previous commandDeadline)
    (hshown : ∃ slot, d.2.slot? s.mutation.entityId = some slot
      ∧ slot.current.UpTo previous.baseVersion v)
    (hcalm : Runs (Calm s.mutation.entityId previous.baseVersion v deadline)
      (Coordinator.perform d (.resolve caller (.ok ⟨some v⟩) deadline)) d')
    (hdue : deadline ≤ now) :
    (∃ w, d'.2.version? s.mutation.entityId = some w ∧ v ≤ w)
      ∨ (d'.1.wake d'.2 s.mutation.entityId now).2 = true := by
  have haccepted : Awaits s.mutation.entityId previous.baseVersion v deadline
      (Coordinator.perform d (.resolve caller (.ok ⟨some v⟩) deadline)) :=
    (hd.sound sound_start).awaits_resolve hfind hst hshown ⟨some v⟩
  exact (hcalm.induction haccepted fun _ _ hop h => h.perform hop).wake hdue

/-- The state that a command led to is lost, while an older one comes in late
and is passed over. -/
theorem accepted_command_echoed_or_fetched_lost :
    let first : Background := .push 1 5 .null ⟨0, 0⟩
    let late : Background := .push 1 4 .null ⟨1, 0⟩
    let loaded := Coordinator.perform (empty, .empty) (.world (Cache.empty.meet first))
    let d := Coordinator.perform (Coordinator.perform loaded (.join 0 ⟨1, .ready true⟩))
      (.enter 0 .live ⟨0, 0⟩ 9)
    let accepted := Coordinator.perform d (.resolve 0 (.ok ⟨some 7⟩) 5)
    let d' := Coordinator.perform accepted (.world (accepted.2.meet late))
    d.1.find? 0
        = some ⟨0, ⟨1, .ready true⟩, 0, .dispatched .live (.push 1 5 .null ⟨0, 0⟩) 9⟩
      ∧ d'.2.version? 1 = some 5
      ∧ ((∃ w, d'.2.version? 1 = some w ∧ 7 ≤ w) ∨ (d'.1.wake d'.2 1 5).2 = true) := by
  intro first late loaded d accepted d'
  have hd : Runs Honest (empty, .empty) d := by
    refine .step (.step (.step .refl ?_) nofun) nofun
    rintro cache ⟨⟩
    exact ⟨first, rfl⟩
  have hcalm : Runs (Calm 1 5 7 5) accepted d' :=
    .step .refl ⟨late, rfl, fun _ => .inl (by decide)⟩
  exact ⟨rfl, rfl, accepted_command_echoed_or_fetched d d' 0
    ⟨0, ⟨1, .ready true⟩, 0, .dispatched .live (.push 1 5 .null ⟨0, 0⟩) 9⟩ .live
    (.push 1 5 .null ⟨0, 0⟩) 9 5 5 7 hd rfl rfl ⟨_, rfl, .inl ⟨rfl, rfl⟩⟩ hcalm (Nat.le_refl 5)⟩

end Coordinator

/-- A state of version 6 comes in while a command on version 5 is under way. The
command is accepted with version 7, and that state is lost. The watchdog finds
no guess, has nothing fetched, and is gone. -/
theorem Client.lost_echo_not_fetched :
    let moves : List Move := [.push 7 5 .null, .submit ⟨7, .ready true⟩, .enter 0, .push 7 6 .null,
      .submitted 0 (.ok ⟨some 7⟩)]
    let accepted := (Client.start .default .initial).run moves
    let later := accepted.1.run [.tick 5_000_000_000, .watchdog 7]
    .finish 0 (.submitted (.ok ⟨some 7⟩)) ∈ accepted.2
      ∧ accepted.1.coordinator.watchdogs.get? 7 = some ⟨5, 5_000_000_000, .sleeping⟩
      ∧ later.1.engine.cache.version? 7 = some 6 ∧ later.2 = []
      ∧ later.1.coordinator.watchdogs.get? 7 = none := by
  intro moves accepted later
  exact ⟨.tail _ (.head _), by decide, by decide, rfl, by decide⟩

end LiveSync
