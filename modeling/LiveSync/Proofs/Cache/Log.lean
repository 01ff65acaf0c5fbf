import LiveSync.Proofs.Cache.Told

/-!
# The log of events

An observer that was there from the start can do without the cache: the
events that it has received say at which version each entity is shown. For
that the two have to move together. An operation that replaces the shown
entry must be told, once, and at the right version; one that leaves the
entry in place must not be told at all, though it may have written to the
slot (a time that moved, a command that is no longer awaited).

Whether an entry was replaced cannot be seen by comparing what is shown
before and after: the same guess, made twice in the same instant, looks as
if nothing had happened. It is known from the answer that the caller gets
(`Ledger.replaced`).

The versions in the log never fall, although guesses are taken back. The
reason is again that everything that is shown of an entity stands at the
version of the server's entry (`Slot.Sound`): guesses and what uncovers them
move sideways, and only the server's states move upwards (`Cache.Replaces`).
-/

namespace LiveSync

/-- Entries that agree stand at the same version. -/
theorem Entry.Agree.map_version {a b : Option Entry} (h : Agree a b) :
    a.map version = b.map version := by
  cases h with
  | none => rfl
  | some h => exact congrArg some h.version

/-! ### Events about entries -/

namespace Event

variable {x : Event} {e : Entry} {id j : EntityId} {w : Version}

/-- **The version at which an event says that an entity is now shown**, if
it is about that entity's entry. -/
def versionOf? (id : EntityId) : Event → Option Version
  | .entityUpdated j version _ | .entityRolledBack j version =>
    if j = id then some version else none
  | _ => none

/-- **An event announces an entry** that is shown from now on. -/
inductive Announces (e : Entry) : Event → Prop where
  | updated : Announces e (Cache.updated e)
  | rolledBack : Announces e (.entityRolledBack e.entityId e.version)

theorem Announces.entityId? (h : x.Announces e) : x.entityId? = some e.entityId := by
  cases h <;> rfl

theorem Announces.versionOf? (h : x.Announces e) : x.versionOf? e.entityId = some e.version := by
  cases h <;> exact if_pos rfl

theorem Announces.versionOf?_of_ne (h : x.Announces e) (hj : e.entityId ≠ j) :
    x.versionOf? j = none := by
  cases h <;> exact if_neg hj

theorem Announces.brings_of_ne (h : x.Announces e) (hj : e.entityId ≠ j) : x.brings j = false := by
  cases h with
  | updated => simp [brings, Cache.updated, hj]
  | rolledBack => rfl

end Event

/-! ### One operation -/

namespace Cache

variable {c c' : Cache} {id : EntityId}

theorem version?_eq {s : Slot} (hs : c.slot? id = some s) :
    c.version? id = some s.current.version := by
  rw [version?, current?, hs]
  rfl

/-- **An event tells how the entry of an entity was replaced.** A state of
the server stands above what was shown before, and everything else where
that stood. -/
structure Replaces (c : Cache) (id : EntityId) (x : Event) (c' : Cache) : Prop where
  shown : ∃ e, c'.current? id = some e ∧ e.entityId = id ∧ x.Announces e
    ∧ if x.brings id then ∀ v, c.version? id = some v → v < e.version
      else c.version? id = some e.version
  others : ∀ j, id ≠ j → c'.current? j = c.current? j

/-- **What an operation tells**: nothing if no shown entry is replaced, and
one event if that of an entity is. -/
def Tells (c : Cache) (replaced : Option EntityId) (c' : Cache) (events : List Event) : Prop :=
  match replaced with
  | none => events = [] ∧ ∀ j, Entry.Agree (c.current? j) (c'.current? j)
  | some id => ∃ x, events = [x] ∧ c.Replaces id x c'

theorem tells_nothing (c : Cache) : c.Tells none c [] := ⟨rfl, fun _ => .refl _⟩

/-- A slot that is written anew with the same shown entry is not told. -/
theorem tells_write {s s' : Slot} (hs : c.slot? id = some s) (hc : s.current.Same s'.current) :
    c.Tells none (c.write id s') [] := by
  refine ⟨rfl, fun j => ?_⟩
  rw [current?, current?, slot?_write]
  split
  · rename_i hj
    subst hj
    rw [hs]
    exact .some hc
  · exact .refl _

/-- A slot that is written with an entry that the event announces. -/
theorem replaces_write {x : Event} {s : Slot} (hid : s.current.entityId = id)
    (hx : x.Announces s.current)
    (hv : if x.brings id then ∀ v, c.version? id = some v → v < s.current.version
      else c.version? id = some s.current.version) :
    c.Replaces id x (c.write id s) where
  shown := by
    refine ⟨s.current, ?_, hid, hx, hv⟩
    rw [current?, slot?_write, if_pos rfl]
    rfl
  others := fun j hj => by rw [current?, slot?_write, if_neg hj, current?]

/-- What comes in and is taken up is told as a state of the server. -/
theorem replaces_first {e : Entry} (he : e.provenance.isAuthoritative = true)
    (hv : ∀ v, c.version? e.entityId = some v → v < e.version) :
    c.Replaces e.entityId (updated e) (c.write e.entityId (.first e)) := by
  refine replaces_write rfl .updated ?_
  have hb : (updated e).brings e.entityId = true := by simp [Event.brings, updated, he]
  rw [if_pos hb]
  exact hv

/-- What moves sideways is not told as a state of the server. -/
theorem replaces_sideways {x : Event} {s s' : Slot} (hs : c.slot? id = some s)
    (hid : s'.current.entityId = id) (hx : x.Announces s'.current) (hb : x.brings id = false)
    (hv : s'.current.version = s.current.version) : c.Replaces id x (c.write id s') := by
  refine replaces_write hid hx ?_
  rw [hb, hv]
  exact version?_eq hs

theorem Sound.tells_apply (h : c.Sound) {e : Entry} (he : e.provenance.isAuthoritative = true) :
    c.Tells (if (c.apply e).result.isApplied then some e.entityId else none)
      (c.apply e).state (c.apply e).events := by
  unfold Cache.apply
  split
  · rename_i hs
    refine ⟨_, rfl, replaces_first he fun v hv => ?_⟩
    rw [version?, current?, hs] at hv
    cases hv
  · rename_i s hs
    split
    · rename_i hlt
      refine ⟨_, rfl, replaces_first he fun v hv => ?_⟩
      obtain rfl := Option.some.inj ((version?_eq hs).symm.trans hv)
      rw [(h _ s hs).version_current, ← (h _ s hs).baseVersion_current]
      exact hlt
    · exact tells_nothing c

theorem Sound.tells_beginOptimistic (h : c.Sound) (id : EntityId) (edit : Json → Json)
    (now : Instant) :
    c.Tells (if (c.beginOptimistic id edit now).result.toOption.isSome then some id else none)
      (c.beginOptimistic id edit now).state (c.beginOptimistic id edit now).events := by
  unfold Cache.beginOptimistic
  split
  · exact tells_nothing c
  · rename_i s hs
    exact ⟨_, rfl, replaces_sideways hs (h id s hs).current_entityId .updated
      (Bool.and_false _) rfl⟩

theorem Sound.tells_rollback (h : c.Sound) {p : Entry} (hp : c.Knows p) :
    c.Tells (if (c.rollback p).result then some p.entityId else none)
      (c.rollback p).state (c.rollback p).events := by
  obtain ⟨a, ha, hbehind⟩ := hp
  unfold Cache.rollback
  split
  · exact tells_nothing c
  · rename_i s hs
    obtain rfl := Option.some.inj ((authoritative?_eq hs).symm.trans ha)
    have hslot := h _ s hs
    split
    · rename_i hg
      -- a guess on the version that `p` rests on is shown, so `p` rests on the server's entry
      have hrests := hbehind.restsOn ((hslot.guessesOn_iff _).mp hg).2
      exact ⟨_, rfl, replaces_sideways hs rfl .rolledBack rfl
        (hrests.version.trans hslot.version_current.symm)⟩
    · exact tells_write hs (.refl _)

theorem Sound.tells_revert (h : c.Sound) (id : EntityId) (base : Version) :
    c.Tells (if (c.revert id base).result then some id else none)
      (c.revert id base).state (c.revert id base).events := by
  unfold Cache.revert
  split
  · exact tells_nothing c
  · rename_i s hs
    have hslot := h id s hs
    split
    · have hid := hslot.authoritative_entityId
      exact ⟨_, rfl, replaces_sideways hs hid (hid ▸ .rolledBack) rfl hslot.version_current.symm⟩
    · exact tells_write hs (.refl _)

theorem tells_markNotModified (c : Cache) (id : EntityId) (now : Instant) :
    c.Tells none (c.markNotModified id now).state (c.markNotModified id now).events := by
  unfold markNotModified
  split
  · exact tells_nothing c
  · rename_i s hs
    refine tells_write hs ?_
    show s.current.Same (if _ then _ else _)
    split
    · exact .refl _
    · exact Entry.same_at _ now

theorem tells_clearPending (c : Cache) (id : EntityId) :
    c.Tells none (c.clearPending id).state (c.clearPending id).events := by
  unfold clearPending
  split
  · exact tells_nothing c
  · rename_i s hs
    exact tells_write hs (.refl _)

end Cache

/-! ### Runs -/

namespace Ledger

open Cache

variable {l : Ledger} {id : EntityId}

/-- **The entity whose shown entry an operation replaces**, if it replaces
one. The answers say so: what came in was taken up, a guess was written, or
one was taken back or discarded. -/
def replaced (l : Ledger) : Op → Option EntityId
  | .background (.push id version payload now) =>
    if (l.cache.applyPush id version payload now).result.isApplied then some id else none
  | .background (.fetched id version payload validator now) =>
    if (l.cache.apply (.http id version payload validator now)).result.isApplied then some id
    else none
  | .background (.notModified _ _) => none
  | .background (.revert id base) => if (l.cache.revert id base).result then some id else none
  | .guess id edit now =>
    if (l.cache.beginOptimistic id edit now).result.toOption.isSome then some id else none
  | .takeBack ticket => l.handedOut[ticket]?.bind fun previous =>
    if (l.cache.rollback previous).result then some previous.entityId else none
  | .clearPending _ => none

/-- What is told of an operation of a run is what it replaces. -/
theorem Sound.tells (h : l.Sound) (op : Op) :
    l.cache.Tells (l.replaced op) (l.step op).cache (l.told op) := by
  cases op with
  | background b =>
    cases b with
    | push id version payload now => exact h.cache.tells_apply rfl
    | fetched id version payload validator now => exact h.cache.tells_apply rfl
    | notModified id now => exact tells_markNotModified l.cache id now
    | revert id base => exact h.cache.tells_revert id base
  | guess id edit now => exact h.cache.tells_beginOptimistic id edit now
  | takeBack ticket =>
    rw [replaced, told, Ledger.step]
    cases hp : l.handedOut[ticket]? with
    | none => exact tells_nothing l.cache
    | some p => exact h.cache.tells_rollback (h.handedOut p (List.mem_of_getElem? hp))
  | clearPending id => exact tells_clearPending l.cache id

/-- The events of a list of operations. -/
def logFrom (l : Ledger) : List Op → List Event
  | [] => []
  | op :: ops => l.told op ++ (l.step op).logFrom ops

/-- **The log of a run**: the events of its operations, in their order. -/
def log (ops : List Op) : List Event := start.logFrom ops

theorem log_concat (ops : List Op) (op : Op) :
    log (ops ++ [op]) = log ops ++ (run ops).told op := by
  have hfrom (l : Ledger) :
      l.logFrom (ops ++ [op]) = l.logFrom ops ++ (ops.foldl step l).told op := by
    induction ops generalizing l with
    | nil => exact List.append_nil _
    | cons o ops ih =>
      show l.told o ++ (l.step o).logFrom (ops ++ [op]) = _
      rw [ih, ← List.append_assoc]
      rfl
  exact hfrom start

/-- The versions of an entity in a log. -/
def versions (id : EntityId) (log : List Event) : List Version :=
  log.filterMap (Event.versionOf? id)

theorem versions_append (id : EntityId) (log log' : List Event) :
    versions id (log ++ log') = versions id log ++ versions id log' := List.filterMap_append ..

theorem versions_singleton (id : EntityId) (x : Event) :
    versions id [x] = (x.versionOf? id).toList := by
  cases hx : x.versionOf? id <;> simp [versions, hx]

/-- **A log mirrors a cache on an entity.** -/
structure Mirrors (id : EntityId) (log : List Event) (c : Cache) : Prop where
  /-- The versions never fall. -/
  ascending : (versions id log).Pairwise (· ≤ ·)
  /-- The versions of the server's states rise. -/
  rising : (versions id (log.filter (Event.brings id))).Pairwise (· < ·)
  /-- The last version is the one that is shown. -/
  latest : (versions id log).getLast? = c.version? id

namespace Mirrors

variable {log : List Event} {c c' : Cache} {x : Event}

theorem empty (id : EntityId) : Mirrors id [] .empty := ⟨.nil, .nil, rfl⟩

/-- The version that is shown is the greatest in the log. -/
theorem version_le (h : Mirrors id log c) {w : Version} (hw : c.version? id = some w) :
    ∀ v ∈ versions id log, v ≤ w := by
  obtain ⟨front, hfront⟩ := List.getLast?_eq_some_iff.mp (h.latest.trans hw)
  have hasc := hfront ▸ h.ascending
  intro v hv
  rw [hfront] at hv
  rcases List.mem_append.mp hv with hv | hv
  · exact (List.pairwise_append.mp hasc).2.2 v hv w (List.mem_singleton_self w)
  · exact List.mem_singleton.mp hv ▸ Int64.le_refl _

/-- Without a shown entry nothing is in the log. -/
theorem versions_eq_nil (h : Mirrors id log c) (hw : c.version? id = none) : versions id log = [] :=
  List.getLast?_eq_none_iff.mp (h.latest.trans hw)

/-- What is told and is not a state of the server. -/
theorem filter_concat_of_neg (hb : x.brings id = false) :
    (log ++ [x]).filter (Event.brings id) = log.filter (Event.brings id) := by
  rw [List.filter_append, List.filter_cons_of_neg (Bool.eq_false_iff.mp hb), List.filter_nil,
    List.append_nil]

/-- What is told of other entities does not matter. -/
theorem aside (h : Mirrors id log c) (hv : c'.version? id = c.version? id)
    (hx : x.versionOf? id = none) (hb : x.brings id = false) : Mirrors id (log ++ [x]) c' := by
  have hversions : versions id (log ++ [x]) = versions id log := by
    rw [versions_append, versions_singleton, hx]
    exact List.append_nil _
  refine ⟨hversions ▸ h.ascending, ?_, hversions ▸ hv ▸ h.latest⟩
  rw [filter_concat_of_neg hb]
  exact h.rising

/-- A guess, or what uncovers one, is told at the version that was shown. -/
theorem sideways (h : Mirrors id log c) {w : Version} (hx : x.versionOf? id = some w)
    (hw : c'.version? id = some w) (hb : x.brings id = false) (hv : c.version? id = some w) :
    Mirrors id (log ++ [x]) c' where
  ascending := by
    rw [versions_append, versions_singleton, hx]
    exact List.pairwise_append.mpr ⟨h.ascending, List.pairwise_singleton .., fun v hmem u hu =>
      List.mem_singleton.mp hu ▸ h.version_le hv v hmem⟩
  rising := by
    rw [filter_concat_of_neg hb]
    exact h.rising
  latest := by
    rw [versions_append, versions_singleton, hx, List.getLast?_append, hw]
    rfl

/-- A state of the server is told at a version above all others. -/
theorem upwards (h : Mirrors id log c) {w : Version} (hx : x.versionOf? id = some w)
    (hw : c'.version? id = some w) (hb : x.brings id = true)
    (hv : ∀ v, c.version? id = some v → v < w) : Mirrors id (log ++ [x]) c' := by
  have hlt : ∀ v ∈ versions id log, v < w := by
    intro v hmem
    cases hc : c.version? id with
    | none =>
      rw [h.versions_eq_nil hc] at hmem
      nomatch hmem
    | some u => exact Int64.lt_of_le_of_lt (h.version_le hc v hmem) (hv u hc)
  refine ⟨?_, ?_, ?_⟩
  · rw [versions_append, versions_singleton, hx]
    exact List.pairwise_append.mpr ⟨h.ascending, List.pairwise_singleton .., fun v hmem u hu =>
      List.mem_singleton.mp hu ▸ Int64.le_of_lt (hlt v hmem)⟩
  · rw [List.filter_append, List.filter_cons_of_pos hb, List.filter_nil, versions_append,
      versions_singleton, hx]
    refine List.pairwise_append.mpr ⟨h.rising, List.pairwise_singleton .., fun v hmem u hu =>
      List.mem_singleton.mp hu ▸ hlt v ?_⟩
    exact (List.filter_sublist.filterMap _).subset hmem
  · rw [versions_append, versions_singleton, hx, List.getLast?_append, hw]
    rfl

/-- What an operation tells keeps the log in step with the cache. -/
theorem tells (h : Mirrors id log c) {replaced : Option EntityId} {events : List Event}
    (ht : c.Tells replaced c' events) : Mirrors id (log ++ events) c' := by
  cases replaced with
  | none =>
    obtain ⟨rfl, hsame⟩ := ht
    rw [List.append_nil]
    exact ⟨h.ascending, h.rising, h.latest.trans (hsame id).map_version⟩
  | some j =>
    obtain ⟨x, rfl, ⟨e, hcur, rfl, hx, hv⟩, hothers⟩ := ht
    by_cases hj : e.entityId = id
    · subst hj
      have hw : c'.version? e.entityId = some e.version := congrArg (Option.map _) hcur
      split at hv
      · rename_i hb
        exact h.upwards hx.versionOf? hw hb hv
      · rename_i hb
        exact h.sideways hx.versionOf? hw (Bool.eq_false_iff.mpr hb) hv
    · exact h.aside (congrArg (Option.map _) (hothers id hj)) (hx.versionOf?_of_ne hj)
        (hx.brings_of_ne hj)

end Mirrors

theorem mirrors_log (id : EntityId) (ops : List Op) : Mirrors id (log ops) (run ops).cache := by
  induction ops using List.reverseRecOn with
  | nil => exact .empty id
  | append_singleton ops op ih =>
    rw [log_concat, run_concat]
    exact ih.tells ((sound_run ops).tells op)

/-- **The log mirrors the cache.** In every run an operation that replaces
the shown entry of an entity publishes one event, which announces the entry
that is shown now; any other leaves what is shown of that entity as it is, up
to its time, and publishes nothing about it – and nothing at all if it
replaces no entry. The versions in the log never fall, those of the server's
states rise, and the last one is that of the cache. -/
theorem log_mirrors_cache (id : EntityId) (ops : List Op) :
    Mirrors id (log ops) (run ops).cache
    ∧ ∀ op, let l := run ops
      (l.replaced op = some id →
        ∃ e x, (l.step op).cache.current? id = some e ∧ e.entityId = id
          ∧ l.told op = [x] ∧ x.Announces e)
      ∧ (l.replaced op ≠ some id →
        (∀ x ∈ l.told op, x.entityId? ≠ some id)
          ∧ Entry.Agree (l.cache.current? id) ((l.step op).cache.current? id))
      ∧ (l.replaced op = none → l.told op = []) := by
  refine ⟨mirrors_log id ops, fun op => ?_⟩
  have ht := (sound_run ops).tells op
  refine ⟨fun hr => ?_, fun hr => ?_, fun hr => ?_⟩
  · rw [hr] at ht
    obtain ⟨x, hx, ⟨e, hcur, hid, hann, -⟩, -⟩ := ht
    exact ⟨e, x, hcur, hid, hx, hann⟩
  · cases hj : (run ops).replaced op with
    | none =>
      rw [hj] at ht
      exact ⟨ht.1 ▸ nofun, ht.2 id⟩
    | some j =>
      rw [hj] at ht hr
      obtain ⟨x, hx, ⟨e, -, rfl, hann, -⟩, hothers⟩ := ht
      have hne : e.entityId ≠ id := fun h => hr (congrArg some h)
      refine ⟨fun y hy => ?_, hothers id hne ▸ .refl _⟩
      rw [hx] at hy
      rw [List.mem_singleton.mp hy, hann.entityId?]
      exact hr
  · rw [hr] at ht
    exact ht.1

/-- A guess on a guess is taken back after a state that comes too late. -/
theorem log_mirrors_cache_two_guesses :
    let ops : List Op :=
      [.background (.push 1 3 .null ⟨0, 0⟩), .guess 1 (fun _ => .bool true) ⟨1, 0⟩,
        .guess 1 (fun _ => .bool true) ⟨1, 0⟩, .background (.push 1 2 .null ⟨2, 0⟩)]
    (run ops).replaced (.takeBack 1) = some 1
      ∧ ∃ e x, ((run ops).step (.takeBack 1)).cache.current? 1 = some e ∧ e.entityId = 1
          ∧ (run ops).told (.takeBack 1) = [x] ∧ x.Announces e := by
  intro ops
  have hr : (run ops).replaced (.takeBack 1) = some 1 := rfl
  exact ⟨hr, ((log_mirrors_cache 1 ops).2 (.takeBack 1)).1 hr⟩

end Ledger

end LiveSync
