import LiveSync.Proofs.Client.Acceptance

/-!
# Watchdogs

A watchdog looks at the cache twice, once when it wakes up and once when the fetch
that it then makes has ended, and in between anything can happen: states are pushed,
other commands show their guesses, fail, or are accepted. If it came to a wrong
conclusion, it would discard what the server has confirmed.

It looks at the entry that is shown and at nothing else. That is enough, because a guess
never rests on anything but the server's latest entry: if a guess on the version is shown
that the command was issued against, the server is still there as far as the client knows
(`Cache.ShowsGuess`). What remains is to see that the watchdog that looks is the right one.
For that, every watchdog and every fetch of one is traced back to the move in which its
command was accepted (`Client.Traced`).

The fetch itself is an ordinary one. What it brings is reconciled like any other state, and
can replace an entry that is not a guess at all (`echo_gives_way_to_fetched_state`).
-/

namespace LiveSync

open LiveSync.Connection

/-! ### What watchdogs look at -/

namespace Cache

variable {c : Cache} {id : EntityId} {base : Version}

/-- **A guess is shown on a version that is still the server's latest.** -/
def ShowsGuess (c : Cache) (id : EntityId) (base : Version) : Prop :=
  ∃ s, c.slot? id = some s ∧ s.current.isOptimistic = true ∧ s.authoritative.version = base

/-- A watchdog looks at what is shown only, and that tells. -/
theorem Sound.isUnconfirmed_iff (h : c.Sound) :
    Coordinator.isUnconfirmed c id base = true ↔ c.ShowsGuess id base := by
  unfold Coordinator.isUnconfirmed ShowsGuess
  cases hs : c.slot? id with
  | none => exact iff_of_false Bool.false_ne_true nofun
  | some s =>
    rw [Option.any_some, (h id s hs).guessesOn_iff]
    constructor
    · exact fun ⟨hshown, hbase⟩ => ⟨s, rfl, hshown, hbase.symm⟩
    · rintro ⟨t, ht, hshown, hbase⟩
      obtain rfl := Option.some.inj ht
      exact ⟨hshown, hbase.symm⟩

end Cache

namespace Client

variable {c : Client} {m : Move} {s : Step} {id : EntityId} {base : Version} {f : Fetch}

/-! ### Watchdogs that wake up -/

/-- The only fetch that a watchdog starts is the one of the watchdog that wakes up. -/
theorem Course.confirmation (h : Course m c s) {f : Fetch} (hf : f ∈ s.1.fetches)
    (hpurpose : f.purpose = .confirm) : f ∈ c.fetches ∨ m = .watchdog f.entity := by
  induction h with
  | still => exact .inl hf
  | @go s t _ change ih =>
    cases change with
    | aside h =>
      have hfetches : t.1.fetches = s.1.fetches := congrArg Core.fetches h.core
      exact ih (hfetches ▸ hf)
    | accept => exact ih (List.mem_filter.mp hf).1
    | drop p => exact ih (List.mem_filter.mp hf).1
    | fetch id force purpose h =>
      rcases List.mem_append.mp hf with hf | hf
      · exact ih hf
      · obtain rfl := List.mem_singleton.mp hf
        exact .inr (h hpurpose)
    | tick | world | perform | hold | letGo => exact ih hf

/-- **A watchdog that wakes up** has its entity fetched in full, if it slept long enough and
the guess is still shown. -/
theorem wakeWatchdog_cases (c : Client) (id : EntityId) :
    (∃ k, c.wakeWatchdog id = ({ c with coordinator := k } : Client).still)
      ∨ ∃ w, c.coordinator.watchdogs.get? id = some w ∧ w.stage = .sleeping
        ∧ w.deadline ≤ c.now ∧ Coordinator.isUnconfirmed c.engine.cache id w.base = true
        ∧ c.wakeWatchdog id
          = ({ c with coordinator := { c.coordinator with
              watchdogs := c.coordinator.watchdogs.insert id { w with stage := .fetching } } }
            : Client).startFetch id true .confirm := by
  unfold wakeWatchdog Coordinator.wake
  cases hw : c.coordinator.watchdogs.get? id with
  | none => exact .inl ⟨_, rfl⟩
  | some w =>
    dsimp only
    by_cases hdue : w.stage = .sleeping ∧ w.deadline ≤ c.now
    · rw [if_pos hdue]
      by_cases hdoubt : Coordinator.isUnconfirmed c.engine.cache id w.base = true
      · rw [if_pos hdoubt]
        exact .inr ⟨w, rfl, hdue.1, hdue.2, hdoubt, rfl⟩
      · rw [if_neg hdoubt]
        exact .inl ⟨_, rfl⟩
    · rw [if_neg hdue]
      exact .inl ⟨_, rfl⟩

/-- **A fetch for a watchdog** was in flight before, and no command for its entity was
accepted since; or the watchdog has just woken up. -/
theorem Regular.confirmation_step (h : c.Regular) (m : Move) (hf : f ∈ (c.step m).1.fetches)
    (hpurpose : f.purpose = .confirm) :
    f ∈ c.fetches ∧ (∀ base, ¬ c.Accepts m f.entity base)
      ∨ m = .watchdog f.entity ∧ ∃ w, c.coordinator.watchdogs.get? f.entity = some w
        ∧ w.deadline ≤ c.now ∧ c.engine.cache.ShowsGuess f.entity w.base
        ∧ (c.step m).1.coordinator.watchdogs.get? f.entity = some { w with stage := .fetching }
        ∧ (c.step m).2 = [.fetch f.id f.entity none] := by
  have hnone : ∀ base, ¬ c.Accepts m f.entity base := fun base haccepts =>
    (h.accepts haccepts).2 f hf hpurpose rfl
  rcases (h.inTurn.course m).confirmation hf hpurpose with hold | rfl
  · exact .inl ⟨hold, hnone⟩
  · rcases c.wakeWatchdog_cases f.entity with ⟨k, heq⟩ | ⟨w, hw, -, hdue, hdoubt, heq⟩
    · rw [Client.step, heq] at hf
      exact .inl ⟨hf, hnone⟩
    · rw [Client.step, heq] at hf
      rcases List.mem_append.mp hf with hf | hf
      · exact .inl ⟨hf, hnone⟩
      · refine .inr ⟨rfl, w, hw, hdue, h.sound.cache.isUnconfirmed_iff.mp hdoubt, ?_, ?_⟩
        · rw [Client.step, heq]
          exact Table.get?_insert_self _ _ _
        · rw [Client.step, heq, List.mem_singleton.mp hf]
          rfl

/-! ### Runs -/

/-- **No command for an entity is accepted** in some moves that come after others. -/
def NoneAccepted (c : Client) (id : EntityId) (past since : List Move) : Prop :=
  ∀ mid m later, since = mid ++ m :: later → ∀ base, ¬ (c.run (past ++ mid)).1.Accepts m id base

variable {moves past since : List Move}

theorem noneAccepted_nil (c : Client) (id : EntityId) (past : List Move) :
    c.NoneAccepted id past [] :=
  fun mid m later heq => absurd heq (by simp)

theorem NoneAccepted.concat (h : c.NoneAccepted id past since)
    (hm : ∀ base, ¬ (c.run (past ++ since)).1.Accepts m id base) :
    c.NoneAccepted id past (since ++ [m]) := by
  intro mid m' later heq
  induction later using List.reverseRecOn with
  | nil =>
    obtain ⟨rfl, hlast⟩ := List.append_inj' heq rfl
    exact List.singleton_inj.mp hlast ▸ hm
  | append_singleton later x _ =>
    rw [← List.cons_append, ← List.append_assoc] at heq
    exact h mid m' later (List.append_inj' heq rfl).1

/-- **How a watchdog was set**: for a command that was accepted when it says so, and no
other was accepted since. -/
def SetBy (c : Client) (moves : List Move) (id : EntityId) (base : Version)
    (deadline : Clock) : Prop :=
  ∃ past m since, moves = past ++ m :: since ∧ (c.run past).1.Accepts m id base
    ∧ deadline = (c.run past).1.now + c.config.confirmTimeout.nanos
    ∧ c.NoneAccepted id (past ++ [m]) since

/-- **How the fetch of a watchdog was started**: a command for its entity was accepted that
had been issued against `base`, the watchdog slept as long as it should, and found a guess
on that version still shown when it woke up. The fetch asks for the entity in full. No
other command for the entity was accepted since. -/
def StartedBy (c : Client) (moves : List Move) (f : Fetch) (base : Version) : Prop :=
  ∃ past m asleep since, moves = past ++ m :: (asleep ++ .watchdog f.entity :: since)
    ∧ (c.run past).1.Accepts m f.entity base
    ∧ (c.run past).1.now + c.config.confirmTimeout.nanos
      ≤ (c.run (past ++ m :: asleep)).1.now
    ∧ (c.run (past ++ m :: asleep)).1.engine.cache.ShowsGuess f.entity base
    ∧ ((c.run (past ++ m :: asleep)).1.step (.watchdog f.entity)).2 = [.fetch f.id f.entity none]
    ∧ c.NoneAccepted f.entity (past ++ [m]) (asleep ++ .watchdog f.entity :: since)

theorem SetBy.concat {deadline : Clock} (h : c.SetBy moves id base deadline)
    (hm : ∀ base, ¬ (c.run moves).1.Accepts m id base) :
    c.SetBy (moves ++ [m]) id base deadline := by
  obtain ⟨past, m', since, rfl, haccepts, hdeadline, hnone⟩ := h
  refine ⟨past, m', since ++ [m], by simp, haccepts, hdeadline, hnone.concat ?_⟩
  rwa [List.append_assoc, List.singleton_append]

theorem StartedBy.concat (h : c.StartedBy moves f base)
    (hm : ∀ base, ¬ (c.run moves).1.Accepts m f.entity base) :
    c.StartedBy (moves ++ [m]) f base := by
  obtain ⟨past, m', asleep, since, rfl, haccepts, hslept, hshown, hfetch, hnone⟩ := h
  refine ⟨past, m', asleep, since ++ [m], by simp, haccepts, hslept, hshown, hfetch, ?_⟩
  rw [← List.cons_append, ← List.append_assoc]
  refine hnone.concat ?_
  rwa [List.append_assoc, List.singleton_append]

/-- **What watchdogs and their fetches go back to**, in a run from a client. -/
structure Traced (c : Client) (moves : List Move) : Prop where
  regular : (c.run moves).1.Regular
  config : (c.run moves).1.config = c.config
  set : ∀ id w, (c.run moves).1.coordinator.watchdogs.get? id = some w →
    c.SetBy moves id w.base w.deadline
  started : ∀ f ∈ (c.run moves).1.fetches, f.purpose = .confirm →
    ∀ w, (c.run moves).1.coordinator.watchdogs.get? f.entity = some w →
      c.StartedBy moves f w.base

theorem traced_nil (config : Config) (host : Host.Condition) :
    (start config host).Traced [] where
  regular := regular_start config host
  config := rfl
  set := nofun
  started := nofun

theorem Traced.concat (h : c.Traced moves) (hm : m.IsHonest) : c.Traced (moves ++ [m]) where
  regular := by
    rw [run_concat]
    exact h.regular.step hm
  config := by
    rw [run_concat]
    exact (h.regular.inTurn.course m).config.trans h.config
  set id w hw := by
    rw [run_concat] at hw
    rcases h.regular.get?_watchdogs_step m hw with ⟨haccepts, hdeadline⟩ | ⟨hnone, w', hw', heq⟩
    · exact ⟨moves, m, [], rfl, haccepts, h.config ▸ hdeadline, noneAccepted_nil _ _ _⟩
    · exact heq.1 ▸ heq.2 ▸ (h.set id w' hw').concat hnone
  started f hf hpurpose w hw := by
    rw [run_concat] at hf hw
    rcases h.regular.confirmation_step m hf hpurpose with
      ⟨hold, hnone⟩ | ⟨rfl, w', hw', hdue, hshown, hwoken, hfetch⟩
    · obtain ⟨w', hw', hbase, -⟩ := ((h.regular.get?_watchdogs_step m hw).resolve_left
        fun haccepts => hnone _ haccepts.1).2
      exact hbase ▸ (h.started f hold hpurpose w' hw').concat hnone
    · obtain rfl := Option.some.inj (hwoken.symm.trans hw)
      obtain ⟨past, m', asleep, rfl, haccepts, hdeadline, hnone⟩ := h.set f.entity w' hw'
      refine ⟨past, m', asleep, [], by simp, haccepts, hdeadline ▸ hdue, hshown, hfetch, ?_⟩
      refine hnone.concat fun base => ?_
      rw [List.append_assoc, List.singleton_append]
      exact h.regular.not_accepts rfl

theorem traced_run (config : Config) (host : Host.Condition) (hmoves : ∀ m ∈ moves, m.IsHonest) :
    (start config host).Traced moves := by
  induction moves using List.reverseRecOn with
  | nil => exact traced_nil config host
  | append_singleton moves m ih =>
    refine (ih fun m' hm' => hmoves m' (List.mem_append_left _ hm')).concat (hmoves m ?_)
    exact List.mem_append_right _ (List.mem_singleton_self m)

/-! ### The end of a watchdog's fetch -/

/-- **A fetch ends**: it is answered, or it is not answered in time. -/
inductive Ends (c : Client) (f : Fetch) : Move → Except Failure.Fetch FetchOutcome → Prop
  | answered (result : Except Failure.Fetch FetchOutcome) : c.Ends f (.fetched f.id result) result
  | late (h : f.deadline ≤ c.now) :
    c.Ends f (.fetchTimer f.id) (.error (.timedOut c.config.fetchTimeout))

variable {result : Except Failure.Fetch FetchOutcome}

theorem Enumerated.step_of_ends (h : c.Enumerated) (hf : f ∈ c.fetches)
    (hends : c.Ends f m result) : c.step m = c.endFetch f result := by
  have hfind := h.find?_of_mem hf
  cases hends with
  | answered result => simp only [step, fetched, hfind]
  | late hdue => simp only [step, fetchTimer, hfind, if_pos hdue]

end Client

/-- **What becomes of the cache** when the fetch of a watchdog ends that was set for a
command issued against `base`. Nothing, if the fetch failed. Otherwise what it brought is
reconciled, and if a guess on `base` is shown even then, it gives way to the server's
entry. -/
structure Cache.Confirms (c : Cache) (id : EntityId) (base : Version) (now : Instant)
    (result : Except Failure.Fetch FetchOutcome) (c' : Cache) : Prop where
  failed : ∀ f, result = .error f → c' = c
  kept : ¬ (c.reconcile id now result).state.ShowsGuess id base →
    c' = (c.reconcile id now result).state
  discarded : ∀ outcome s, result = .ok outcome →
    (c.reconcile id now result).state.slot? id = some s → s.current.isOptimistic = true →
    s.authoritative.version = base →
      c'.slot? id = some ⟨s.authoritative, s.authoritative, false⟩
        ∧ ∀ j, j ≠ id → c'.slot? j = (c.reconcile id now result).state.slot? j

/-- The cache once the fetch has ended. -/
def Cache.confirmed (c : Cache) (id : EntityId) (base : Version) (now : Instant)
    (result : Except Failure.Fetch FetchOutcome) : Cache :=
  if !Client.hasFailed result
      && Coordinator.isUnconfirmed (c.reconcile id now result).state id base then
    ((c.reconcile id now result).state.revert id base).state
  else (c.reconcile id now result).state

theorem Cache.confirms_confirmed (c : Cache) {id : EntityId} (base : Version) {now : Instant}
    {result : Except Failure.Fetch FetchOutcome}
    (hsound : (c.reconcile id now result).state.Sound) :
    c.Confirms id base now result (c.confirmed id base now result) where
  failed := by
    rintro f rfl
    rfl
  kept hkept := by
    refine if_neg fun hdoubt => hkept (hsound.isUnconfirmed_iff.mp ?_)
    exact (Bool.and_eq_true_iff.mp hdoubt).2
  discarded := by
    rintro outcome s rfl hs hshown hbase
    have halters := (c.reconcile id now (.ok outcome)).state.alters_revert id base
    have hguess : s.guessesOn base = true :=
      ((hsound _ s hs).guessesOn_iff base).mpr ⟨hshown, hbase.symm⟩
    have hreverted : c.confirmed id base now (.ok outcome)
        = ((c.reconcile id now (.ok outcome)).state.revert id base).state :=
      if_pos (hsound.isUnconfirmed_iff.mpr ⟨s, hs, hshown, hbase⟩)
    rw [hreverted]
    refine ⟨?_, fun j hj => (halters j).trans (if_neg hj.symm)⟩
    rw [halters id, if_pos rfl, hs]
    exact congrArg some (if_pos hguess)

/-- **A watchdog whose fetch has ended** is gone, and discards guesses on its version if
there are any. -/
theorem Coordinator.confirm_eq {k : Coordinator} {id : EntityId} {w : Watchdog}
    (hw : k.watchdogs.get? id = some w) (hstage : w.stage = .fetching) (cache : Cache)
    (failed : Bool) :
    (k.confirm cache id failed).state
      = ({ k with watchdogs := k.watchdogs.erase id },
        if !failed && isUnconfirmed cache id w.base then (cache.revert id w.base).state
        else cache) := by
  obtain ⟨base, deadline, stage⟩ := w
  obtain rfl : stage = .fetching := hstage
  simp only [confirm, hw]
  split <;> rfl

namespace Client

variable {c : Client} {m : Move} {f : Fetch} {result : Except Failure.Fetch FetchOutcome}

theorem endFetch_confirm (hpurpose : f.purpose = .confirm) {w : Watchdog}
    (hw : c.coordinator.watchdogs.get? f.entity = some w) (hstage : w.stage = .fetching)
    (result : Except Failure.Fetch FetchOutcome) :
    (c.endFetch f result).1.coordinator.watchdogs = c.coordinator.watchdogs.erase f.entity
      ∧ (c.endFetch f result).1.engine.cache
        = c.engine.cache.confirmed f.entity w.base c.instant result := by
  have hfailed : hasFailed (c.engine.cache.reconcile f.entity c.instant result).result
      = hasFailed result := by
    match result with
    | .error _ => rfl
    | .ok .notModified => rfl
    | .ok (.modified _) => rfl
  have hconfirm := Coordinator.confirm_eq hw hstage
    (c.engine.cache.reconcile f.entity c.instant result).state
    (hasFailed (c.engine.cache.reconcile f.entity c.instant result).result)
  have hend : (c.endFetch f result).1.desk = (c.coordinator.confirm
      (c.engine.cache.reconcile f.entity c.instant result).state f.entity
      (hasFailed (c.engine.cache.reconcile f.entity c.instant result).result)).state := by
    simp only [endFetch, hpurpose]
    rfl
  rw [hconfirm, hfailed] at hend
  exact ⟨congrArg (fun d : Coordinator.WithCache => d.1.watchdogs) hend, congrArg Prod.snd hend⟩

theorem Ends.isHonest (h : c.Ends f m result) (hm : m.IsHonest) :
    ∀ e, result = .ok (.modified e) → e.provenance.isAuthoritative = true := by
  cases h with
  | answered result =>
    rintro e rfl
    exact hm
  | late => nofun

/-- **The end of a watchdog's fetch** discards nothing that the server has confirmed, and
the watchdog is gone. -/
theorem Regular.confirms (h : c.Regular) (hf : f ∈ c.fetches) (hpurpose : f.purpose = .confirm)
    {w : Watchdog} (hw : c.coordinator.watchdogs.get? f.entity = some w)
    (hstage : w.stage = .fetching) (hends : c.Ends f m result) (hm : m.IsHonest) :
    c.engine.cache.Confirms f.entity w.base c.instant result (c.step m).1.engine.cache
      ∧ (c.step m).1.coordinator.watchdogs.get? f.entity = none := by
  obtain ⟨hgone, hcache⟩ := endFetch_confirm hpurpose hw hstage result
  rw [h.enumerated.step_of_ends hf hends, hgone, hcache]
  exact ⟨Cache.confirms_confirmed _ w.base (sound_reconcile h.sound.cache (hends.isHonest hm)).1,
    Table.get?_erase_self _ _⟩

/-- What a fetch for a watchdog belongs to. -/
theorem Regular.watchdog_of_mem (h : c.Regular) (hf : f ∈ c.fetches)
    (hpurpose : f.purpose = .confirm) :
    ∃ w, c.coordinator.watchdogs.get? f.entity = some w ∧ w.stage = .fetching := by
  have hwanted := h.owned.wanted f hf
  rwa [Fetch.owner, hpurpose] at hwanted

/-! ### Safety -/

/-- To wake up is nothing that the cache notices. -/
theorem cache_wakeWatchdog (c : Client) (id : EntityId) :
    (c.wakeWatchdog id).1.engine.cache = c.engine.cache := by
  rcases c.wakeWatchdog_cases id with ⟨k, heq⟩ | ⟨w, -, -, -, -, heq⟩ <;> rw [heq] <;> rfl

/-- **Watchdogs destroy nothing that the server has confirmed**, in whatever order things
happen, provided that what is fetched comes from the server. There is at most one of them
for an entity, and at most one fetch for it. To wake up leaves the cache alone. A fetch in
flight was started when the time had passed since a command was accepted (`StartedBy`).
When it ends guesses are discarded only if it succeeded and a guess is shown on the version
that the command was issued against and that the server is still at (`Cache.Confirms`). A
watchdog that a later command replaces has no part in anything that comes after. -/
theorem watchdogs_destroy_nothing_confirmed (config : Config) (host : Host.Condition)
    (moves : List Move) (hmoves : ∀ m ∈ moves, m.IsHonest) :
    let started := start config host
    let c := (started.run moves).1
    c.coordinator.watchdogs.Distinct
      ∧ (∀ f ∈ c.fetches, ∀ g ∈ c.fetches, f.purpose = .confirm → g.purpose = .confirm →
        f.entity = g.entity → f = g)
      ∧ (∀ id, (c.step (.watchdog id)).1.engine.cache = c.engine.cache)
      ∧ (∀ f ∈ c.fetches, f.purpose = .confirm → ∃ base, started.StartedBy moves f base
        ∧ ∀ m result, c.Ends f m result → m.IsHonest →
          c.engine.cache.Confirms f.entity base c.instant result (c.step m).1.engine.cache
            ∧ (c.step m).1.coordinator.watchdogs.get? f.entity = none)
      ∧ ∀ m id base, c.Accepts m id base →
        (c.step m).1.coordinator.watchdogs.get? id
            = some ⟨base, c.now + config.confirmTimeout.nanos, .sleeping⟩
          ∧ ∀ f ∈ c.fetches, f.purpose = .confirm → f.entity = id →
            ∀ later, ((c.step m).1.run later).1.Ignores f.id := by
  intro started c
  have htraced : started.Traced moves := traced_run config host hmoves
  have h : c.Regular := htraced.regular
  refine ⟨h.distinct, fun f hf g hg hfp hgp hfg => ?_, c.cache_wakeWatchdog,
    fun f hf hpurpose => ?_, fun m id base haccepts => ?_⟩
  · refine List.inj_on_of_nodup_map h.owned.distinct hf hg ?_
    rw [Fetch.owner, Fetch.owner, hfp, hgp, hfg]
  · obtain ⟨w, hw, hstage⟩ := h.watchdog_of_mem hf hpurpose
    exact ⟨w.base, htraced.started f hf hpurpose w hw,
      fun m result hends hm => h.confirms hf hpurpose hw hstage hends hm⟩
  · obtain ⟨hset, hfetches⟩ := h.accepts haccepts
    have hconfig : c.config = config := htraced.config
    refine ⟨hconfig ▸ hset, fun f hf hpurpose hid later => ?_⟩
    -- nothing with its number is in flight any more: a new fetch has another one
    have hcourse := (h.inTurn.course m).fetches
    have hover : (c.step m).1.IsOver f.id := by
      refine ⟨(h.enumerated.lt f hf).trans_le hcourse.1, fun g hg heq => ?_⟩
      rcases hcourse.2 g hg with hold | hnew
      · obtain rfl := h.enumerated.eq_of_id hold hf heq
        exact hfetches g hg hpurpose hid
      · exact absurd (heq ▸ hnew) (Nat.not_le.mpr (h.enumerated.lt f hf))
    exact (hover.run (h.inTurn.step m) later).ignores

/-- A command is accepted, its echo is lost, and its watchdog wakes up. -/
def unechoed : List Move :=
  [.push 7 5 .null, .submit ⟨7, .ready true⟩, .enter 0, .submitted 0 (.ok ⟨some 6⟩),
    .tick 5_000_000_000, .watchdog 7]

/-- A watchdog has its entity fetched. -/
theorem watchdogs_destroy_nothing_confirmed_unechoed :
    (∀ m ∈ unechoed, m.IsHonest)
      ∧ ⟨1, 7, 15_000_000_000, .confirm⟩ ∈ ((start .default .initial).run unechoed).1.fetches
      ∧ ∃ base, (start .default .initial).StartedBy unechoed ⟨1, 7, 15_000_000_000, .confirm⟩
        base := by
  have hhonest : ∀ m ∈ unechoed, m.IsHonest := by simp [unechoed, Move.IsHonest]
  have hfetch : ⟨1, 7, 15_000_000_000, .confirm⟩
      ∈ ((start .default .initial).run unechoed).1.fetches := by decide +kernel
  have hsafe := watchdogs_destroy_nothing_confirmed .default .initial unechoed hhonest
  obtain ⟨base, hstarted, -⟩ := hsafe.2.2.2.1 _ hfetch rfl
  exact ⟨hhonest, hfetch, base, hstarted⟩

/-- The echo comes after all, while the fetch is under way, and is shown. What the fetch
brings is newer still and replaces it. -/
theorem echo_gives_way_to_fetched_state :
    let c := ((start .default .initial).run (unechoed ++ [.push 7 6 .null])).1
    let answered := (c.step (.fetched 1 (.ok (.modified (.http 7 7 .null none ⟨0, 0⟩))))).1
    ⟨1, 7, 15_000_000_000, .confirm⟩ ∈ c.fetches
      ∧ (c.engine.cache.current? 7).map Entry.isOptimistic = some false
      ∧ c.engine.cache.version? 7 = some 6 ∧ answered.engine.cache.version? 7 = some 7 := by
  decide +kernel

end Client

end LiveSync
