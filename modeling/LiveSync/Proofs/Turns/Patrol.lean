import LiveSync.Proofs.Broadcast.Unread
import LiveSync.Proofs.Turns.Run
import LiveSync.Proofs.Turns.Sentry

/-!
# The watch catches up

Nobody has to make the watch look. A task follows the events of the client: it
looks at an entity when a state of it came from the server, and at all watched
ones when events were lost. A **patrol** is a sentry together with the events that
it publishes and the task that follows them.

The task may lag behind for as long as it likes, events may be lost while it does,
and watches start and end in the meantime. Yet once it has read everything, every
watch has looked at the server's latest entry (`Patrol.drained_watch_is_current`).

Why this holds is an invariant of a single watch (`Patrol.Sound`): it is up to
date, or an event that will make the task look at it is still unread. It does not
matter that the event may be lost, because then its loss is what the task reads,
and it does not matter which event it is, because a look is at the cache and not at
the event.
-/

namespace LiveSync

/-! ### What becomes of a watch -/

namespace TurnWatch

variable {w : TurnWatch} {x y : Option TurnWatch} {a b : Option Entry} {e : Entry}

/-- **What can become of a watch**, if no hint is announced. -/
inductive Next (a : Option Entry) (x : Option TurnWatch) : Option TurnWatch → Prop
  | still : Next a x x
  | started (seat : Option Seat) : Next a x (some (.seeded seat a))
  | ended : Next a x none
  | looked : Next a x (x.map (·.look a))

/-- **What was looked at** is no newer than the server's entry. -/
def Rooted (w : TurnWatch) (a : Option Entry) : Prop :=
  ∀ v, w.version = some v → ∃ e, a = some e ∧ v ≤ e.version

/-- **The server's entry was looked at.** -/
def UpToDate (w : TurnWatch) (a : Option Entry) : Prop :=
  ∀ e, a = some e → w.version = some e.version

/-- **A watch shows what it has looked at**: an entry that the server's entry has
advanced from. -/
def Shows (w : TurnWatch) (a : Option Entry) : Prop :=
  ∀ v, w.version = some v → ∃ p e : Entry, a = some e ∧ p.Advances e ∧ v = p.version
    ∧ ∀ seat, w.seat = some seat → w.isTurn = some (Game.isTurnOf p.payload seat)

/-! A watch that is started looks first. -/

theorem upToDate_seeded (seat : Option Seat) (a : Option Entry) : (seeded seat a).UpToDate a := by
  rintro e rfl
  rfl

theorem shows_seeded (seat : Option Seat) (a : Option Entry) : (seeded seat a).Shows a := by
  intro v hv
  cases a with
  | none => cases hv
  | some e =>
    refine ⟨e, e, rfl, .inl (.refl e), (Option.some.inj hv).symm, fun s hs => ?_⟩
    show (seeded seat (some e)).seat.map (Game.isTurnOf e.payload) = _
    rw [hs]
    rfl

theorem Shows.rooted (h : w.Shows a) : w.Rooted a := by
  intro v hv
  obtain ⟨p, e, he, hadv, rfl, -⟩ := h v hv
  exact ⟨e, he, hadv.version_le⟩

/-! A look. -/

theorem shows_after (w : TurnWatch) (e : Entry) : (w.after e).Shows (some e) := by
  intro v hv
  refine ⟨e, e, rfl, .inl (.refl e), (Option.some.inj hv).symm, fun s hs => ?_⟩
  show ((w.after e).seat.map (Game.isTurnOf e.payload) <|> _) = _
  rw [hs]
  rfl

theorem Shows.look (h : w.Shows a) : (w.look a).Shows a := by
  cases a with
  | none => exact h
  | some e =>
    cases hn : w.isNews e with
    | true =>
      rw [look_of_news hn]
      exact shows_after w e
    | false =>
      rw [look_of_no_news hn]
      exact h

/-- What is not news was looked at. -/
theorem Rooted.upToDate_look (h : w.Rooted a) : (w.look a).UpToDate a := by
  rintro e rfl
  cases hn : w.isNews e with
  | true =>
    rw [look_of_news hn]
    rfl
  | false =>
    rw [look_of_no_news hn]
    unfold isNews at hn
    split at hn
    · cases hn
    · rename_i v hv
      obtain ⟨e', he', hle⟩ := h v hv
      obtain rfl := Option.some.inj he'
      rw [hv, Int64.le_antisymm hle (Int64.not_lt.mp (of_decide_eq_false hn))]

theorem Rooted.look (h : w.Rooted a) : (w.look a).Rooted a := by
  intro v hv
  cases a with
  | none => exact h v hv
  | some e =>
    have hversion := h.upToDate_look e rfl
    rw [hversion] at hv
    exact ⟨e, rfl, Option.some.inj hv ▸ Int64.le_refl _⟩

/-! Whatever becomes of a watch. -/

theorem Next.rooted (h : Next a x y) (hx : ∀ w ∈ x, w.Rooted a) : ∀ w ∈ y, w.Rooted a := by
  cases h with
  | still => exact hx
  | started seat => rintro w ⟨⟩; exact (shows_seeded seat a).rooted
  | ended => nofun
  | looked =>
    intro w hw
    obtain ⟨w', hw', rfl⟩ := Option.map_eq_some_iff.mp hw
    exact (hx w' hw').look

theorem Next.shows (h : Next a x y) (hx : ∀ w ∈ x, w.Shows a) : ∀ w ∈ y, w.Shows a := by
  cases h with
  | still => exact hx
  | started seat => rintro w ⟨⟩; exact shows_seeded seat a
  | ended => nofun
  | looked =>
    intro w hw
    obtain ⟨w', hw', rfl⟩ := Option.map_eq_some_iff.mp hw
    exact (hx w' hw').look

/-- A watch that is up to date stays so. -/
theorem Next.upToDate (h : Next a x y) (hx : ∀ w ∈ x, w.Rooted a) {P : Prop}
    (hcurrent : ∀ w ∈ x, w.UpToDate a ∨ P) : ∀ w ∈ y, w.UpToDate a ∨ P := by
  cases h with
  | still => exact hcurrent
  | started seat => rintro w ⟨⟩; exact .inl (upToDate_seeded seat a)
  | ended => nofun
  | looked =>
    intro w hw
    obtain ⟨w', hw', rfl⟩ := Option.map_eq_some_iff.mp hw
    exact .inl (hx w' hw').upToDate_look

/-- **Whatever a watch has taken in, it shows.** -/
theorem Next.shows_of_version_ne (h : Next a x y)
    (hne : x.bind TurnWatch.version ≠ y.bind TurnWatch.version) : ∀ w ∈ y, w.Shows a := by
  cases h with
  | still => exact absurd rfl hne
  | started seat => rintro w ⟨⟩; exact shows_seeded seat a
  | ended => nofun
  | looked =>
    intro w hw
    obtain ⟨w', rfl, rfl⟩ := Option.map_eq_some_iff.mp hw
    cases a with
    | none => exact absurd rfl hne
    | some e =>
      cases hn : w'.isNews e with
      | true =>
        rw [look_of_news hn]
        exact shows_after w' e
      | false =>
        rw [Option.map_some, look_of_no_news hn] at hne
        exact absurd rfl hne

/-! The server's entry advances under a watch. -/

theorem Rooted.mono (h : w.Rooted a)
    (hgrows : ∀ e, a = some e → ∃ e', b = some e' ∧ e.Advances e') : w.Rooted b := by
  intro v hv
  obtain ⟨e, he, hle⟩ := h v hv
  obtain ⟨e', he', hadv⟩ := hgrows e he
  exact ⟨e', he', Int64.le_trans hle hadv.version_le⟩

theorem Shows.mono (h : w.Shows a)
    (hgrows : ∀ e, a = some e → ∃ e', b = some e' ∧ e.Advances e') : w.Shows b := by
  intro v hv
  obtain ⟨p, e, he, hadv, hp, hturn⟩ := h v hv
  obtain ⟨e', he', hadv'⟩ := hgrows e he
  exact ⟨p, e', he', hadv.trans hadv', hp, hturn⟩

theorem UpToDate.of_agree (h : w.UpToDate a) (hagree : Entry.Agree a b) : w.UpToDate b := by
  rintro e rfl
  obtain ⟨e', rfl, hs⟩ := Entry.agree_some_left.mp hagree.symm
  rw [h e' rfl, hs.version]

/-- **A watch that is up to date shows the server's entry.** -/
theorem Shows.isTurn_eq (h : w.Shows (some e)) (hv : w.version = some e.version) {seat : Seat}
    (hseat : w.seat = some seat) : w.isTurn = some (Game.isTurnOf e.payload seat) := by
  obtain ⟨p, e', he', hadv, hp, hturn⟩ := h _ hv
  obtain rfl := Option.some.inj he'
  have hsame : p.Same e := hadv.resolve_right (hp ▸ Int64.lt_irrefl)
  obtain ⟨now, rfl⟩ := Entry.same_iff.mp hsame
  exact hturn seat hseat

end TurnWatch

namespace Sentry

/-- **What an operation makes of a watch**: what can become of any, or a hint was
announced. -/
theorem watch_cases (s : Sentry) (op : Op) (id : EntityId) :
    TurnWatch.Next (s.authoritative? id) (s.watch? id) ((s.perform op).state.watch? id)
      ∨ op = .hint id ∧ (s.perform op).result = some true
        ∧ ∃ w, s.watch? id = some w
          ∧ (s.perform op).state.watch? id = some { w with isTurn := some true } := by
  cases op with
  | cache op => exact .inl .still
  | watch j seat =>
    have hget : (s.perform (.watch j seat)).state.watch? id
        = if j = id then some (.seeded seat (s.authoritative? j)) else s.watch? id :=
      Table.get?_insert _ _ _ _
    rw [hget]
    split
    · rename_i hj
      exact .inl (hj ▸ .started seat)
    · exact .inl .still
  | unwatch j =>
    have hget : (s.perform (.unwatch j)).state.watch? id
        = if j = id then none else s.watch? id := Table.get?_erase _ _ _
    rw [hget]
    split
    · exact .inl .ended
    · exact .inl .still
  | observe j =>
    have hget := s.turns.get?_observe s.ledger.cache j id
    have hwatch : (s.perform (.observe j)).state.watch? id
        = (s.turns.observe s.ledger.cache j).state.watches.get? id := rfl
    rw [hwatch, hget]
    split
    · exact .inl .looked
    · exact .inl .still
  | hint j =>
    have hhint : (s.perform (.hint j)).state.watch? id
        = (s.turns.hint s.ledger.cache j).state.watches.get? id := rfl
    have hresult : (s.perform (.hint j)).result
        = some (s.turns.hint s.ledger.cache j).result := rfl
    rw [hhint, hresult]
    unfold Turns.hint
    split
    · exact .inl .still
    · split
      · exact .inl .still
      · rename_i w hw
        split
        · exact .inl .still
        · by_cases hj : j = id
          · subst hj
            exact .inr ⟨rfl, rfl, w, hw, Table.get?_insert_self _ _ _⟩
          · dsimp only
            rw [Table.get?_insert_of_ne _ _ hj]
            exact .inl .still

end Sentry

/-- Whether what was read makes the task look at an entity. -/
def Reading.calls (id : EntityId) : Reading Event → Bool
  | .item event => event.brings id
  | .lagged _ => true
  | .empty => false

/-- **What the task makes of the watches.** -/
theorem Turns.get?_follow (t : Turns) (cache : Cache) (reading : Reading Event) (j : EntityId) :
    (t.follow cache reading).state.watches.get? j
      = if reading.calls j then (t.watches.get? j).map (·.look (cache.authoritative? j))
        else t.watches.get? j := by
  cases reading with
  | empty => rfl
  | lagged lost =>
    refine (t.get?_observeAll cache t.watches.keys j).trans ?_
    rw [if_pos (show (Reading.lagged lost).calls j = true from rfl)]
    split
    · rfl
    · rename_i hkey
      -- nothing is read where there is no key
      rw [Table.mem_keys_iff, Option.not_isSome_iff_eq_none] at hkey
      rw [hkey]
      rfl
  | item event =>
    cases event with
    | entityUpdated id version provenance =>
      cases hp : provenance.isAuthoritative with
      | false =>
        rw [if_neg (by simp [Reading.calls, Event.brings, hp])]
        simp only [follow, hp]
        rfl
      | true =>
        simp only [follow, hp, if_true]
        refine (t.get?_observe cache id j).trans (if_congr ?_ rfl rfl)
        simp [Reading.calls, Event.brings, hp]
    | connectionChanged | entityRolledBack | turnStarted | waitInvalidated | serverError
    | syncErrorChanged => rfl

/-! ### Runs -/

/-- **A sentry, the events it publishes, and the task that follows them**, which is
receiver number zero. -/
structure Patrol where
  sentry : Sentry
  bus : Channel Event

namespace Patrol

/-- **What can happen to a patrol.** -/
inductive Op where
  /-- Something is done to the sentry, and its events are published. -/
  | act (op : Sentry.Op)
  /-- Somebody else publishes an event. -/
  | publish (event : Event)
  /-- The task takes up the next event. -/
  | receive

/-- Nothing is known and nothing is watched; the task listens. -/
def start (capacity : Nat) : Patrol := ⟨.start, (Channel.withCapacity capacity).subscribe.1⟩

/-- **One step.** -/
def step (p : Patrol) : Op → Patrol
  | .act op => ⟨(p.sentry.perform op).state,
      (p.sentry.perform op).events.foldl Channel.publish p.bus⟩
  | .publish event => { p with bus := p.bus.publish event }
  | .receive =>
    let (bus, reading) := p.bus.receive 0
    let u := p.sentry.turns.follow p.sentry.ledger.cache reading
    ⟨{ p.sentry with turns := u.state }, u.events.foldl Channel.publish bus⟩

/-- **A run** with events of which at least so many are kept. -/
def run (capacity : Nat) (ops : List Op) : Patrol := ops.foldl step (start capacity)

theorem run_concat (capacity : Nat) (ops : List Op) (op : Op) :
    run capacity (ops ++ [op]) = (run capacity ops).step op := by
  rw [run, List.foldl_append]
  rfl

/-- The server's latest entry of an entity. -/
def authoritative? (p : Patrol) (id : EntityId) : Option Entry := p.sentry.authoritative? id

/-- What is remembered of a watched entity. -/
def watch? (p : Patrol) (id : EntityId) : Option TurnWatch := p.sentry.watch? id

variable {p : Patrol} {id : EntityId} {capacity : Nat}

/-- **What a step makes of a watch.** -/
theorem watch_cases (p : Patrol) (op : Op) (id : EntityId) :
    TurnWatch.Next (p.authoritative? id) (p.watch? id) ((p.step op).watch? id)
      ∨ op = .act (.hint id) ∧ (p.sentry.perform (.hint id)).result = some true
        ∧ ∃ w, p.watch? id = some w
          ∧ (p.step op).watch? id = some { w with isTurn := some true } := by
  cases op with
  | act op =>
    refine (p.sentry.watch_cases op id).imp_right ?_
    rintro ⟨rfl, h⟩
    exact ⟨rfl, h⟩
  | publish event => exact .inl .still
  | receive =>
    have hget := p.sentry.turns.get?_follow p.sentry.ledger.cache (p.bus.peek 0) id
    have hwatch : (p.step .receive).watch? id
        = (p.sentry.turns.follow p.sentry.ledger.cache (p.bus.peek 0)).state.watches.get? id := rfl
    rw [hwatch, hget]
    split
    · exact .inl .looked
    · exact .inl .still

/-- **What holds at any time.** -/
structure Sound (p : Patrol) : Prop where
  ledger : p.sentry.ledger.Sound
  listens : p.bus.Listens 0
  /-- No watch is ahead of the cache. -/
  rooted : ∀ id, ∀ w ∈ p.watch? id, w.Rooted (p.authoritative? id)
  /-- A watch is up to date, or an event is unread that says it is not. -/
  upToDate : ∀ id, ∀ w ∈ p.watch? id,
    w.UpToDate (p.authoritative? id) ∨ ∃ event ∈ p.bus.unread 0, event.brings id = true

theorem sound_start (capacity : Nat) : (start capacity).Sound where
  ledger := Ledger.sound_start
  listens := (Channel.listens_subscribe _).1
  rooted := fun _ _ h => nomatch h
  upToDate := fun _ _ h => nomatch h

theorem sound_sentry (h : p.Sound) (op : Op) :
    (p.step op).sentry.ledger.Sound
      ∧ p.sentry.ledger.cache.Grows (p.step op).sentry.ledger.cache := by
  cases op with
  | act op => exact Sentry.sound_perform h.ledger op
  | publish | receive => exact ⟨h.ledger, (Cache.Quiet.refl _).grows⟩

/-- A hint has no part in what a watch has looked at. -/
theorem Sound.rooted_step (h : p.Sound) (op : Op) (id : EntityId) :
    ∀ w ∈ (p.step op).watch? id, w.Rooted ((p.step op).authoritative? id) := by
  intro w hw
  refine TurnWatch.Rooted.mono ?_ ((sound_sentry h op).2 id)
  rcases p.watch_cases op id with hnext | ⟨-, -, w', hw', hhinted⟩
  · exact hnext.rooted (h.rooted id) w hw
  · obtain rfl := Option.some.inj (hhinted.symm.trans hw)
    exact h.rooted id w' hw'

/-- What happens to the sentry is told. -/
theorem Sound.upToDate_act (h : p.Sound) (op : Sentry.Op) (id : EntityId) :
    ∀ w ∈ (p.step (.act op)).watch? id,
      w.UpToDate ((p.step (.act op)).authoritative? id)
        ∨ ∃ event ∈ p.bus.unread 0 ++ (p.sentry.perform op).events, event.brings id = true := by
  intro w hw
  have hbefore : w.UpToDate (p.authoritative? id)
      ∨ ∃ event ∈ p.bus.unread 0, event.brings id = true := by
    rcases p.watch_cases (.act op) id with hnext | ⟨-, -, w', hw', hhinted⟩
    · exact hnext.upToDate (h.rooted id) (h.upToDate id) w hw
    · obtain rfl := Option.some.inj (hhinted.symm.trans hw)
      exact h.upToDate id w' hw'
  rcases hbefore with hcurrent | ⟨event, hmem, hbrings⟩
  · cases op with
    | cache op =>
      rcases h.ledger.agree_or_brings op id with hagree | ⟨event, hmem, hbrings⟩
      · exact .inl (hcurrent.of_agree hagree)
      · exact .inr ⟨event, List.mem_append_right _ hmem, hbrings⟩
    | watch | unwatch | observe | hint => exact .inl hcurrent
  · exact .inr ⟨event, List.mem_append_left _ hmem, hbrings⟩

/-- **What is read is acted upon**: an event that is read, and was unread because a
watch is not up to date, makes the task look at it. -/
theorem Sound.upToDate_receive (h : p.Sound) (id : EntityId) :
    ∀ w ∈ (p.step .receive).watch? id,
      w.UpToDate (p.authoritative? id)
        ∨ ∃ event ∈ (p.bus.advance 0).unread 0, event.brings id = true := by
  have hget : (p.step .receive).watch? id
      = if (p.bus.peek 0).calls id then (p.watch? id).map (·.look (p.authoritative? id))
        else p.watch? id :=
    p.sentry.turns.get?_follow p.sentry.ledger.cache (p.bus.peek 0) id
  intro w hw
  rw [hget] at hw
  split at hw
  · obtain ⟨w', hw', rfl⟩ := Option.map_eq_some_iff.mp hw
    exact .inl (h.rooted id w' hw').upToDate_look
  · rename_i hcalls
    refine (h.upToDate id w hw).imp_right ?_
    rintro ⟨event, hmem, hbrings⟩
    rcases h.listens.receive_cases.2 with ⟨-, hnil, -⟩ | ⟨x, hpeek, hunread⟩ | ⟨lost, hpeek, -⟩
    · exact absurd (hnil ▸ hmem) List.not_mem_nil
    · rw [hunread] at hmem
      rcases List.mem_cons.mp hmem with rfl | hmem
      · exact absurd (by rw [hpeek]; exact hbrings) hcalls
      · exact ⟨event, hmem, hbrings⟩
    · exact absurd (by rw [hpeek]; rfl) hcalls

theorem Sound.step (h : p.Sound) (op : Op) : (p.step op).Sound := by
  have hledger := (sound_sentry h op).1
  have hrooted := h.rooted_step op
  cases op with
  | act op =>
    obtain ⟨hlistens, hunread⟩ := h.listens.publishAll (p.sentry.perform op).events
    exact ⟨hledger, hlistens, hrooted, fun id w hw => hunread ▸ h.upToDate_act op id w hw⟩
  | publish event =>
    refine ⟨hledger, h.listens.publish event, hrooted, fun id w hw => ?_⟩
    refine (h.upToDate id w hw).imp_right ?_
    rintro ⟨event', hmem, hbrings⟩
    refine ⟨event', ?_, hbrings⟩
    show event' ∈ (p.bus.publish event).unread 0
    rw [h.listens.unread_publish]
    exact List.mem_append_left _ hmem
  | receive =>
    obtain ⟨hlistens, hunread⟩ := h.listens.receive_cases.1.publishAll
      (p.sentry.turns.follow p.sentry.ledger.cache (p.bus.peek 0)).events
    refine ⟨hledger, hlistens, hrooted, fun id w hw => ?_⟩
    refine (h.upToDate_receive id w hw).imp_right ?_
    rintro ⟨event, hmem, hbrings⟩
    exact ⟨event, hunread ▸ List.mem_append_left _ hmem, hbrings⟩

theorem sound_run (capacity : Nat) (ops : List Op) : (run capacity ops).Sound := by
  induction ops using List.reverseRecOn with
  | nil => exact sound_start capacity
  | append_singleton ops op ih =>
    rw [run_concat]
    exact ih.step op

/-! ### Since the watch has looked -/

/-- The version that a watch has looked at last. -/
def version? (p : Patrol) (id : EntityId) : Option Version := (p.watch? id).bind TurnWatch.version

/-- **A step at which a watch takes something in**: it is started, or the version
that it has looked at changes. -/
def TakesIn (p : Patrol) (id : EntityId) (op : Op) : Prop :=
  (∃ seat, op = .act (.watch id seat)) ∨ p.version? id ≠ (p.step op).version? id

/-- **No hint was announced since the watch took in what it stands at.** -/
def Unhinted (capacity : Nat) (id : EntityId) (ops : List Op) : Prop :=
  ∃ before op rest, ops = before ++ op :: rest ∧ (run capacity before).TakesIn id op
    ∧ ∀ mid post, rest = mid ++ .act (.hint id) :: post →
        ((run capacity (before ++ op :: mid)).sentry.perform (.hint id)).result = some false

/-- What is taken in is shown. -/
theorem Sound.shows_of_takesIn (h : p.Sound) {op : Op} (hop : p.TakesIn id op) :
    ∀ w ∈ (p.step op).watch? id, w.Shows ((p.step op).authoritative? id) := by
  intro w hw
  refine TurnWatch.Shows.mono ?_ ((sound_sentry h op).2 id)
  rcases hop with ⟨seat, rfl⟩ | hne
  · have hget : (p.step (.act (.watch id seat))).watch? id
        = some (.seeded seat (p.authoritative? id)) := Table.get?_insert_self _ _ _
    obtain rfl := Option.some.inj (hget.symm.trans hw)
    exact TurnWatch.shows_seeded seat _
  · rcases p.watch_cases op id with hnext | ⟨-, -, w', hw', hhinted⟩
    · exact hnext.shows_of_version_ne hne w hw
    · -- a hint leaves the version as it is
      rw [version?, version?, hw', hhinted] at hne
      exact absurd rfl hne

/-- **Without a hint** a watch goes on to show what it has looked at. -/
theorem Sound.shows_step (h : p.Sound) {op : Op}
    (hshows : ∀ w ∈ p.watch? id, w.Shows (p.authoritative? id))
    (hop : op = .act (.hint id) → (p.sentry.perform (.hint id)).result = some false) :
    ∀ w ∈ (p.step op).watch? id, w.Shows ((p.step op).authoritative? id) := by
  intro w hw
  refine TurnWatch.Shows.mono ?_ ((sound_sentry h op).2 id)
  rcases p.watch_cases op id with hnext | ⟨rfl, hannounced, -⟩
  · exact hnext.shows hshows w hw
  · rw [hop rfl] at hannounced
    cases hannounced

theorem Unhinted.shows {ops : List Op} (h : Unhinted capacity id ops) :
    ∀ w ∈ (run capacity ops).watch? id, w.Shows ((run capacity ops).authoritative? id) := by
  obtain ⟨before, op, rest, rfl, hop, hrest⟩ := h
  induction rest using List.reverseRecOn with
  | nil =>
    rw [run_concat]
    exact (sound_run capacity before).shows_of_takesIn hop
  | append_singleton rest op' ih =>
    have hsplit : before ++ op :: (rest ++ [op']) = (before ++ op :: rest) ++ [op'] := by simp
    rw [hsplit, run_concat]
    refine (sound_run capacity _).shows_step (ih fun mid post hmid => ?_) fun hhint => ?_
    · exact hrest mid (post ++ [op']) (by rw [hmid]; simp)
    · exact hrest rest [] (by rw [hhint])

/-- **Once the task has read everything, every watch is current**: it has looked at
the server's latest entry, and if no hint was announced since, it shows whether that
entry is the viewer's turn. -/
theorem drained_watch_is_current {capacity : Nat} {ops : List Op} {id : EntityId}
    {w : TurnWatch} {e : Entry} (hdrained : (run capacity ops).bus.peek 0 = .empty)
    (hw : (run capacity ops).watch? id = some w)
    (he : (run capacity ops).authoritative? id = some e) :
    w.version = some e.version
      ∧ (Unhinted capacity id ops → ∀ seat, w.seat = some seat →
          w.isTurn = some (Game.isTurnOf e.payload seat)) := by
  have hsound := sound_run capacity ops
  have hversion : w.version = some e.version := by
    rcases hsound.upToDate id w hw with hcurrent | ⟨event, hmem, -⟩
    · exact hcurrent e he
    · rcases hsound.listens.receive_cases.2 with ⟨-, hnil, -⟩ | ⟨x, hpeek, -⟩ | ⟨lost, hpeek, -⟩
      · exact absurd (hnil ▸ hmem) List.not_mem_nil
      · exact absurd (hpeek.symm.trans hdrained) nofun
      · exact absurd (hpeek.symm.trans hdrained) nofun
  refine ⟨hversion, fun hunhinted seat hseat => ?_⟩
  have hshows := hunhinted.shows w hw
  rw [he] at hshows
  exact hshows.isTurn_eq hversion hseat

/-- Of three states two are kept when the task begins to read, and a fourth one is
the viewer's turn. -/
theorem drained_watch_is_current_lagged :
    let trick (version : Version) (toAct : Seat) : Op :=
      .act (.cache (.background (.push 7 version (Game.trick toAct 2) ⟨0, 0⟩)))
    let missed : List Op := [.act (.watch 7 none), trick 1 1, trick 2 2, trick 3 1]
    let ops : List Op := missed ++ [.receive, .receive, .receive, trick 4 2, .receive, .receive]
    (run 2 missed).bus.peek 0 = .lagged 1
      ∧ (run 2 ops).bus.peek 0 = .empty
      ∧ (run 2 ops).watch? 7 = some ⟨some 2, some true, some 4⟩
      ∧ Game.isTurnOf (Game.trick 2 2) 2 = true := by
  intro trick missed ops
  have hdrained : (run 2 ops).bus.peek 0 = .empty := by decide
  have hw : (run 2 ops).watch? 7 = some ⟨some 2, some true, some 4⟩ := by decide
  have he : (run 2 ops).authoritative? 7 = some (.trick 4 2) := by decide
  have hunhinted : Unhinted 2 7 ops := by
    refine ⟨missed ++ [.receive, .receive, .receive, trick 4 2], .receive, [.receive], rfl,
      .inr (by decide), fun mid post hmid => ?_⟩
    have hmem : .act (.hint 7) ∈ [Op.receive] := hmid ▸ by simp
    simp at hmem
  obtain ⟨-, hturn⟩ := drained_watch_is_current hdrained hw he
  exact ⟨by decide, hdrained, hw, (Option.some.inj (hturn hunhinted 2 rfl)).symm⟩

end Patrol

end LiveSync
