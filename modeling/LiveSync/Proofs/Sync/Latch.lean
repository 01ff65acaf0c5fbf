import LiveSync.Proofs.Sync.Desk
import LiveSync.Proofs.Turns.Memory

/-!
# The latch

While a guess is shown nobody knows what the server will make of it, so hints
at a turn are not announced: the entity is pending. This is one latch for all
commands of the entity. A guess that is written sets it, and whatever takes
the guess away clears it.

A guess may be written on one that was accepted and waits for its echo. If the
later command fails, its guess gives way to the earlier one, and the latch is
cleared although that one still waits (`Cache.rollback_onto_guess`). This is
the only way in which a guess is ever shown and not awaited: from the moment a
command gets its turn, every guess that is shown is awaited, until a command
fails that was issued on a guess (`Coordinator.KeepsLatch`).

A command that fails also clears the latch where its own guess is gone. That no
other guess is shown then is because commands take turns; the invariant
therefore says on which version the guess of a dispatched command rests
(`Coordinator.Latched`).
-/

namespace LiveSync

namespace Cache

/-- **A guess that is put back is not awaited.** -/
theorem rollback_onto_guess {c : Cache} {previous : Entry} {s : Slot}
    (hs : c.slot? previous.entityId = some s) (hg : s.guessesOn previous.baseVersion = true)
    (hp : previous.isOptimistic = true) :
    (c.rollback previous).state.slot? previous.entityId
      = some ⟨previous, s.authoritative, false⟩ := by
  rw [alters_rollback c previous, if_pos rfl, hs, Option.map_some, Slot.putBack, if_pos hg,
    if_pos hp]

end Cache

namespace Coordinator

open Cache

variable {d d' : WithCache} {id : EntityId}

/-- **What leaves the latch of an entity alone**: the cache changes by what the
server says, and no command for the entity fails that was issued on a guess. -/
def KeepsLatch (id : EntityId) (d : WithCache) : Op → Prop
  | .world cache => ∃ b : Background, cache = d.2.meet b ∧ ∀ j base, b ≠ .revert j base
  | .resolve caller (.error _) _ => ∀ s route previous deadline, d.1.find? caller = some s →
      s.stage = .dispatched route previous deadline → s.mutation.entityId = id →
        previous.isOptimistic = false
  | .join _ _ | .enter _ _ _ _ | .resolve _ (.ok _) _ | .forget _ | .wake _ _ | .confirm _ _
  | .shutdown => True

theorem KeepsLatch.honest {op : Op} (h : KeepsLatch id d op) : Honest d op := by
  rintro cache rfl
  obtain ⟨b, hb, -⟩ := h
  exact ⟨b, hb⟩

/-- **A guess that is shown is awaited**, and it rests on the version that the
command on its way was issued against. -/
structure Latched (id : EntityId) (d : WithCache) : Prop where
  sound : Sound d
  pending : ∀ slot, d.2.slot? id = some slot → slot.current.isOptimistic = true →
    slot.pending = true
  base : ∀ s ∈ d.1.submissions, ∀ route previous deadline,
    s.stage = .dispatched route previous deadline → s.mutation.entityId = id →
      ∀ slot, d.2.slot? id = some slot → slot.current.isOptimistic = true →
        slot.current.baseVersion = previous.baseVersion

/-- A guess that is shown was shown before, and is awaited as it was. -/
def Keeps (s s' : Slot) : Prop :=
  s'.current.isOptimistic = true →
    s.current.isOptimistic = true ∧ s'.current.baseVersion = s.current.baseVersion
      ∧ s'.pending = s.pending

/-- **No guess comes to be shown** for an entity. -/
def KeepsGuess (id : EntityId) (c c' : Cache) : Prop :=
  ∀ s', c'.slot? id = some s' → s'.current.isOptimistic = true →
    ∃ s, c.slot? id = some s ∧ Keeps s s'

theorem keepsGuess_refl (id : EntityId) (c : Cache) : KeepsGuess id c c :=
  fun s hs ho => ⟨s, hs, fun _ => ⟨ho, rfl, rfl⟩⟩

/-- An operation by which no command is dispatched. -/
theorem Latched.of_leaves (h : Latched id d) {op : Op} (hop : op.leaves = true) (ho : Honest d op)
    (hguess : KeepsGuess id d.2 (perform d op).2) : Latched id (perform d op) where
  sound := h.sound.perform ho
  pending := fun slot' hs' ho' => by
    obtain ⟨slot, hs, hkeeps⟩ := hguess slot' hs' ho'
    obtain ⟨ho, -, hp⟩ := hkeeps ho'
    exact hp.trans (h.pending slot hs ho)
  base := fun s hs route previous deadline hst hid slot' hs' ho' => by
    obtain ⟨slot, hslot, hkeeps⟩ := hguess slot' hs' ho'
    obtain ⟨ho, hb, -⟩ := hkeeps ho'
    exact hb.trans (h.base s (mem_of_mem_perform hop hs) route previous deadline hst hid slot
      hslot ho)

/-! ### What the server says, failures and watchdogs -/

theorem keepsGuess_alters {c c' : Cache} {j : EntityId} {f : Slot → Slot} (ha : c.Alters j f c')
    (hf : ∀ s, j = id → c.slot? id = some s → Keeps s (f s)) : KeepsGuess id c c' := by
  intro s' hs' ho'
  rw [ha id] at hs'
  split at hs'
  · rename_i hj
    obtain ⟨s, hs, rfl⟩ := Option.map_eq_some_iff.mp hs'
    exact ⟨s, hs, hf s hj hs⟩
  · exact keepsGuess_refl id c s' hs' ho'

theorem keeps_offered {e : Entry} (he : e.isOptimistic = false) (s : Slot) :
    Keeps s (s.offered e) := by
  unfold Slot.offered
  split
  · intro ho
    cases he.symm.trans ho
  · exact fun ho => ⟨ho, rfl, rfl⟩

theorem keeps_refreshed (s : Slot) (now : Instant) : Keeps s (s.refreshed now) := by
  unfold Keeps Slot.refreshed
  split
  · exact fun ho => ⟨ho, rfl, rfl⟩
  · rename_i hno
    exact fun ho => absurd ho hno

theorem keepsGuess_meet (c : Cache) {b : Background} (hb : ∀ j base, b ≠ .revert j base) :
    KeepsGuess id c (c.meet b) := by
  intro s' hs' ho'
  rw [slot?_meet] at hs'
  split at hs'
  · cases hs : c.slot? id with
    | none =>
      -- what comes in first is a state of the server
      rw [hs] at hs'
      cases b with
      | push | fetched =>
        obtain rfl := Option.some.inj hs'
        cases ho'
      | notModified | revert => cases hs'
    | some s =>
      rw [hs] at hs'
      obtain rfl := Option.some.inj hs'
      refine ⟨s, rfl, ?_⟩
      cases b with
      | push | fetched => exact keeps_offered rfl s
      | notModified j now => exact keeps_refreshed s now
      | revert j base => exact absurd rfl (hb j base)
  · exact keepsGuess_refl id c s' hs' ho'

/-- A watchdog that discards guesses has seen that there are some. -/
theorem keepsGuess_revert {c : Cache} (hc : c.Sound) {j : EntityId} {base : Version}
    (hg : isUnconfirmed c j base = true) : KeepsGuess id c (c.revert j base).state := by
  refine keepsGuess_alters (alters_revert c j base) fun s hj hs => ?_
  subst hj
  rw [isUnconfirmed, hs, Option.any_some] at hg
  rw [Slot.reverted, if_pos hg]
  intro ho
  have hauth := Entry.isOptimistic_eq_false (hc j s hs).isAuthoritative
  cases hauth.symm.trans ho

/-- **A command that fails** takes its own guess away, if no other was
replaced by it. -/
theorem Latched.keepsGuess_rollback (h : Latched id d) {s : Submission} (hs : s ∈ d.1.submissions)
    {route : Route} {previous : Entry} {deadline : Clock}
    (hst : s.stage = .dispatched route previous deadline)
    (hprevious : s.mutation.entityId = id → previous.isOptimistic = false) :
    KeepsGuess id d.2 (d.2.rollback previous).state := by
  have hid := (h.sound.replaced s hs route previous deadline hst).1
  refine keepsGuess_alters (alters_rollback d.2 previous) fun slot hj hslot ho => ?_
  have hs' : s.mutation.entityId = id := hid.symm.trans hj
  unfold Slot.putBack at ho
  split at ho
  · cases (hprevious hs').symm.trans ho
  · rename_i hg
    -- whatever guess is shown is that of the command
    have hbase := h.base s hs route previous deadline hst hs' slot hslot ho
    refine absurd ?_ hg
    rw [Slot.guessesOn, Bool.and_eq_true, beq_iff_eq]
    exact ⟨ho, hbase⟩

/-! ### Commands -/

theorem Latched.join (h : Latched id d) {caller : CallId} (hnew : d.1.find? caller = none)
    (m : Mutation) : Latched id (d.1.join caller m, d.2) where
  sound := h.sound.join hnew m
  pending := h.pending
  base := fun s hs route previous deadline hst => by
    rw [submissions_join, List.mem_append, List.mem_singleton] at hs
    rcases hs with hs | rfl
    · exact h.base s hs route previous deadline hst
    · cases hst

/-- **A command that gets its turn** latches its entity. -/
theorem Sound.latched_enter (h : Sound d) {s : Submission} (hs : s ∈ d.1.submissions)
    (hfree : d.1.isFree s.gate = true) (route : Route) (now : Instant) (deadline : Clock) :
    Latched s.mutation.entityId (d.1.enter d.2 s route now deadline).state := by
  have hsound := h.enter hs hfree route now deadline
  cases hslot : d.2.slot? s.mutation.entityId with
  | none =>
    rw [enter_of_none d.1 hslot] at hsound ⊢
    refine ⟨hsound, fun slot hs' => ?_, fun t _ _ _ _ _ _ slot hs' => ?_⟩ <;>
      cases hslot.symm.trans hs'
  | some slot =>
    rw [enter_of_some d.1 hslot] at hsound ⊢
    have hguess : ∀ slot', (d.2.beginOptimistic s.mutation.entityId
          (Mutation.speculate s.mutation.action) now).state.slot? s.mutation.entityId = some slot' →
        slot' = slot.guessed (Mutation.speculate s.mutation.action) now := by
      intro slot' hs'
      rw [alters_beginOptimistic d.2 s.mutation.entityId _ now, if_pos rfl, hslot] at hs'
      exact (Option.some.inj hs').symm
    refine ⟨hsound, fun slot' hs' _ => ?_, fun t ht r p dl hst hid slot' hs' _ => ?_⟩
    · rw [hguess slot' hs']
      rfl
    · rw [hguess slot' hs']
      obtain ⟨hcases, -⟩ := of_mem_setStage ht
      rcases hcases with ⟨-, hst'⟩ | ⟨hmem, -⟩
      · obtain ⟨-, rfl, -⟩ := Submission.Stage.dispatched.inj (hst.symm.trans hst')
        rfl
      · -- another command that was dispatched would not have left the gate free
        have hdispatched : t.isDispatched = true := by rw [Submission.isDispatched, hst]
        have hgate := (h.orderly.gate_eq_iff hmem hs).mpr hid
        exact absurd hgate (isFree_iff.mp hfree t hmem hdispatched)

/-- The turn of a command for another entity changes nothing. -/
theorem Latched.enter_of_ne (h : Latched id d) {s : Submission} (hs : s ∈ d.1.submissions)
    (hfree : d.1.isFree s.gate = true) (hne : s.mutation.entityId ≠ id) (route : Route)
    (now : Instant) (deadline : Clock) :
    Latched id (d.1.enter d.2 s route now deadline).state := by
  have hsound := h.sound.enter hs hfree route now deadline
  cases hslot : d.2.slot? s.mutation.entityId with
  | none =>
    rw [enter_of_none d.1 hslot] at hsound ⊢
    exact ⟨hsound, h.pending, fun t ht => h.base t (mem_forget.mp ht).1⟩
  | some slot =>
    rw [enter_of_some d.1 hslot] at hsound ⊢
    have hsame : (d.2.beginOptimistic s.mutation.entityId
        (Mutation.speculate s.mutation.action) now).state.slot? id = d.2.slot? id := by
      rw [alters_beginOptimistic d.2 s.mutation.entityId _ now, if_neg hne]
    refine ⟨hsound, fun slot' hs' => h.pending slot' (hsame ▸ hs'), ?_⟩
    intro t ht r p dl hst hid slot' hs'
    obtain ⟨hcases, u, hu, hcu, hmu, -⟩ := of_mem_setStage ht
    rcases hcases with ⟨hc, -⟩ | ⟨hmem, -⟩
    · obtain rfl := h.sound.orderly.eq_of_caller hu hs (hcu.trans hc)
      exact absurd (hmu ▸ hid) hne
    · exact h.base t hmem r p dl hst hid slot' (hsame ▸ hs')

/-- **Every operation that leaves the latch alone** keeps an entity latched. -/
theorem Latched.perform (h : Latched id d) {op : Op} (hop : KeepsLatch id d op) :
    Latched id (Coordinator.perform d op) := by
  have hhonest := hop.honest
  have hsame : KeepsGuess id d.2 d.2 := keepsGuess_refl id d.2
  cases op with
  | world cache =>
    obtain ⟨b, rfl, hb⟩ := hop
    exact h.of_leaves rfl hhonest (keepsGuess_meet d.2 hb)
  | join caller m =>
    rcases perform_join_cases d caller m with heq | ⟨hnew, heq⟩ <;> rw [heq]
    · exact h
    · exact h.join hnew m
  | enter caller route now deadline =>
    rcases perform_enter_cases d caller route now deadline with heq | ⟨s, hfind, hfree, heq⟩ <;>
      rw [heq]
    · exact h
    · have hs := (mem_of_find? hfind).1
      by_cases hid : s.mutation.entityId = id
      · exact hid ▸ h.sound.latched_enter hs hfree route now deadline
      · exact h.enter_of_ne hs hfree hid route now deadline
  | resolve caller result deadline =>
    rcases perform_resolve_cases d caller result deadline with
      heq | ⟨s, route, previous, commandDeadline, hfind, hst, heq⟩
    · rw [heq]
      exact h
    · refine h.of_leaves rfl hhonest ?_
      rw [heq]
      cases result with
      | ok receipt => exact hsame
      | error failure =>
        exact h.keepsGuess_rollback (mem_of_find? hfind).1 hst
          (hop s route previous commandDeadline hfind hst)
  | forget caller => exact h.of_leaves rfl hhonest hsame
  | wake j now => exact h.of_leaves rfl hhonest hsame
  | confirm j failed =>
    refine h.of_leaves rfl hhonest ?_
    simp only [Coordinator.perform, confirm]
    split
    · split
      · rename_i hdiscards
        rw [Bool.and_eq_true] at hdiscards
        exact keepsGuess_revert h.sound.cache hdiscards.2
      · exact hsame
    · exact hsame
  | shutdown => exact h.of_leaves rfl hhonest hsame

/-! ### Hints -/

/-- **No hint is announced while a guess is shown.** From the moment a command
gets its turn, until a command for the entity fails that was issued on a
guess, a guess that is shown for the entity silences every hint, be its
command on its way or accepted. -/
theorem hints_silent_while_guess_shown (d d' : WithCache) (caller : CallId) (s : Submission)
    (route : Route) (now : Instant) (deadline : Clock) (e : Entry)
    (hd : Runs Honest (empty, .empty) d) (hfind : d.1.find? caller = some s)
    (hwaiting : s.stage = .waiting) (hfree : d.1.isFree s.gate = true)
    (hlater : Runs (KeepsLatch s.mutation.entityId)
      (Coordinator.perform d (.enter caller route now deadline)) d')
    (hshown : d'.2.current? s.mutation.entityId = some e) (hguess : e.isOptimistic = true)
    (turns : Turns) :
    turns.hint d'.2 s.mutation.entityId = .silent turns false := by
  have hentered : Latched s.mutation.entityId
      (Coordinator.perform d (.enter caller route now deadline)) := by
    rw [perform_enter hfind hwaiting hfree]
    exact (hd.sound sound_start).latched_enter (mem_of_find? hfind).1 hfree route now deadline
  have hlatched : Latched s.mutation.entityId d' :=
    hlater.induction hentered fun _ _ hop h => h.perform hop
  obtain ⟨slot, hslot, rfl⟩ := Option.map_eq_some_iff.mp hshown
  refine Turns.hint_of_pending ?_
  rw [isPending, hslot]
  exact hlatched.pending slot hslot hguess

/-- A command was accepted, and its echo is awaited. -/
theorem hints_silent_while_guess_shown_accepted :
    let first : Background := .push 7 1 (Game.trick 1 2) ⟨0, 0⟩
    let loaded := Coordinator.perform (empty, .empty) (.world (Cache.empty.meet first))
    let d := Coordinator.perform loaded (.join 0 ⟨7, .ready true⟩)
    let entered := Coordinator.perform d (.enter 0 .live ⟨0, 0⟩ 9)
    let d' := Coordinator.perform entered (.resolve 0 (.ok ⟨some 2⟩) 5)
    let turns := Turns.empty.watch d'.2 7 none
    (∃ e, d'.2.current? 7 = some e ∧ e.isOptimistic = true)
      ∧ turns.isTurn? 7 = some false ∧ turns.hint d'.2 7 = .silent turns false := by
  intro first loaded d entered d' turns
  have hd : Runs Honest (empty, .empty) d := by
    refine .step (.step .refl ?_) nofun
    rintro cache ⟨⟩
    exact ⟨first, rfl⟩
  have hlater : Runs (KeepsLatch 7) entered d' := .step .refl trivial
  have hsilent := hints_silent_while_guess_shown d d' 0 ⟨0, ⟨7, .ready true⟩, 0, .waiting⟩ .live
    ⟨0, 0⟩ 9 _ hd rfl rfl rfl hlater rfl rfl turns
  exact ⟨⟨_, rfl, rfl⟩, by decide, hsilent⟩

/-- **A failure on a guess clears the latch.** A command fails that was issued
on a guess, while its own is still shown: the earlier guess is shown again,
nothing is awaited, and a hint is announced unless the turn is known. -/
theorem Sound.resolve_onto_guess (h : Sound d) {caller : CallId} {s : Submission} {route : Route}
    {previous : Entry} {commandDeadline : Clock} {slot : Slot}
    (hfind : d.1.find? caller = some s)
    (hst : s.stage = .dispatched route previous commandDeadline)
    (hguess : previous.isOptimistic = true) (hslot : d.2.slot? s.mutation.entityId = some slot)
    (hshown : slot.guessesOn previous.baseVersion = true) (failure : Failure.Command)
    (deadline : Clock) {turns : Turns} {w : TurnWatch}
    (hw : turns.watches.get? s.mutation.entityId = some w) (hunknown : w.isTurn ≠ some true) :
    let d' := Coordinator.perform d (.resolve caller (.error failure) deadline)
    d'.2.current? s.mutation.entityId = some previous
      ∧ (turns.hint d'.2 s.mutation.entityId).events
        = [.turnStarted s.mutation.entityId .hint] := by
  intro d'
  have hid := (h.replaced s (mem_of_find? hfind).1 route previous commandDeadline hst).1
  have hcache : d'.2.slot? s.mutation.entityId = some ⟨previous, slot.authoritative, false⟩ := by
    show (Coordinator.perform d (.resolve caller (.error failure) deadline)).2.slot? _ = _
    rw [perform_resolve hfind hst, ← hid]
    exact rollback_onto_guess (hid ▸ hslot) hshown hguess
  have hpending : d'.2.isPending s.mutation.entityId = false := by
    rw [isPending, hcache]
    rfl
  refine ⟨?_, ?_⟩
  · rw [current?, hcache]
    rfl
  · rw [Turns.hint_of_unknown hpending hw hunknown]

/-- A second command is issued on the guess of the accepted one, and fails. The
guess is shown again, its echo is still awaited, and a hint is announced. -/
theorem hint_announced_while_echo_awaited :
    let first : Background := .push 7 1 (Game.trick 1 2) ⟨0, 0⟩
    let loaded := Coordinator.perform (empty, .empty) (.world (Cache.empty.meet first))
    let accepted := Coordinator.performAll loaded
      [.join 0 ⟨7, .ready true⟩, .enter 0 .live ⟨0, 0⟩ 9, .resolve 0 (.ok ⟨some 2⟩) 5]
    let failed := Coordinator.performAll accepted
      [.join 1 ⟨7, .ready true⟩, .enter 1 .live ⟨0, 0⟩ 9, .resolve 1 (.error (.timeout 9)) 5]
    let turns := Turns.empty.watch failed.2 7 none
    (accepted.2.current? 7).any Entry.isOptimistic = true
      ∧ failed.2.current? 7 = accepted.2.current? 7
      ∧ (turns.hint failed.2 7).events = [.turnStarted 7 .hint] := by
  intro first loaded accepted failed turns
  exact ⟨by decide, by decide, by decide⟩

end Coordinator

end LiveSync
