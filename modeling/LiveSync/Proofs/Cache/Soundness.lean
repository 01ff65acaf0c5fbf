import LiveSync.Proofs.Cache.Run
import Mathlib.Data.List.Induction

/-!
# What holds of every slot

A slot holds two entries, and there are few ways in which they can differ.
Either they are the same, or the shown one is a guess on the other: it
stands at the other's version, names that version as its base, and has its
validator (`Slot.Sound`).

Whether a guess is taken back depends on a version alone, so an entry that
was handed out long ago may be put back. It does no harm, because of what
the cache still knows of it: it is **behind** the server's entry
(`Entry.Behind`), which is to say that it rests on an older version – and
then it is refused – or on that very entry. The server's entry itself only
**advances** (`Entry.Advances`): it stays what it is, up to its time, or
gives way to a newer one. What is behind an entry is behind whatever the
entry advances to, and that is the invariant of a run (`Ledger.Sound`).
-/

namespace LiveSync

/-! ### Entries, up to their time -/

namespace Entry

variable {a b c g p : Entry}

theorem same_iff : a.Same b ↔ ∃ now, b = { a with receivedAt := now } := by
  constructor
  · intro h
    exact ⟨b.receivedAt, h.symm⟩
  · rintro ⟨now, rfl⟩
    rfl

theorem same_at (a : Entry) (now : Instant) : a.Same { a with receivedAt := now } := rfl

theorem Same.refl (a : Entry) : a.Same a := rfl

theorem Same.symm (h : a.Same b) : b.Same a := by
  obtain ⟨now, rfl⟩ := same_iff.mp h
  rfl

theorem Same.trans (h : a.Same b) (h' : b.Same c) : a.Same c := by
  obtain ⟨now, rfl⟩ := same_iff.mp h
  obtain ⟨later, rfl⟩ := same_iff.mp h'
  rfl

theorem Same.version (h : a.Same b) : a.version = b.version := by
  obtain ⟨now, rfl⟩ := same_iff.mp h
  rfl

theorem Same.validator (h : a.Same b) : a.validator = b.validator := by
  obtain ⟨now, rfl⟩ := same_iff.mp h
  rfl

theorem Same.provenance (h : a.Same b) : a.provenance = b.provenance := by
  obtain ⟨now, rfl⟩ := same_iff.mp h
  rfl

theorem Same.isOptimistic (h : a.Same b) : a.isOptimistic = b.isOptimistic := by
  obtain ⟨now, rfl⟩ := same_iff.mp h
  rfl

theorem Same.baseVersion (h : a.Same b) : a.baseVersion = b.baseVersion := by
  obtain ⟨now, rfl⟩ := same_iff.mp h
  rfl

/-- **Two entries agree** if both are missing, or they are the same up to
their time. -/
abbrev Agree : Option Entry → Option Entry → Prop := Option.Rel Same

theorem Agree.refl (a : Option Entry) : Agree a a := by
  cases a with
  | none => exact .none
  | some a => exact .some (.refl a)

theorem Agree.symm {a b : Option Entry} (h : Agree a b) : Agree b a := by
  cases h with
  | none => exact .none
  | some h => exact .some h.symm

theorem Agree.trans {a b c : Option Entry} (h : Agree a b) (h' : Agree b c) : Agree a c := by
  cases h with
  | none => exact h'
  | some h =>
    cases h' with
    | some h' => exact .some (h.trans h')

theorem agree_none_left {b : Option Entry} : Agree none b ↔ b = none := by
  constructor
  · intro h
    cases h
    rfl
  · rintro rfl
    exact .none

theorem agree_some_left {b : Option Entry} : Agree (some a) b ↔ ∃ b', b = some b' ∧ a.Same b' := by
  constructor
  · intro h
    cases h with
    | some h => exact ⟨_, rfl, h⟩
  · rintro ⟨b', rfl, h⟩
    exact .some h

/-- The server's entry rests on itself. -/
theorem baseVersion_of_isAuthoritative (h : a.provenance.isAuthoritative = true) :
    a.baseVersion = a.version := by
  unfold baseVersion
  split
  · rename_i base hp
    rw [hp] at h
    exact absurd h Bool.false_ne_true
  · rfl
  · rfl

theorem isOptimistic_eq_false (h : a.provenance.isAuthoritative = true) :
    a.isOptimistic = false := by
  rw [isOptimistic, h]
  rfl

/-! ### Guesses -/

/-- **A guess on an entry of the server**: it stands at the same version,
which it names as its base, and has the same validator. -/
structure GuessOn (g a : Entry) : Prop where
  provenance : g.provenance = .optimistic a.version
  version : g.version = a.version
  validator : g.validator = a.validator

theorem GuessOn.isOptimistic (h : g.GuessOn a) : g.isOptimistic = true := by
  rw [Entry.isOptimistic, h.provenance]
  rfl

theorem GuessOn.baseVersion (h : g.GuessOn a) : g.baseVersion = a.version := by
  rw [Entry.baseVersion, h.provenance]

theorem GuessOn.of_same (h : g.GuessOn a) (hs : a.Same b) : g.GuessOn b :=
  ⟨hs.version ▸ h.provenance, hs.version ▸ h.version, hs.validator ▸ h.validator⟩

/-- **An entry rests on one of the server's** if it is that entry or a guess
on it. -/
def RestsOn (p a : Entry) : Prop := p.Same a ∨ p.GuessOn a

theorem RestsOn.of_same (h : p.RestsOn a) (hs : a.Same b) : p.RestsOn b :=
  h.imp (·.trans hs) (·.of_same hs)

theorem RestsOn.version (h : p.RestsOn a) : p.version = a.version :=
  h.elim Same.version GuessOn.version

theorem RestsOn.validator (h : p.RestsOn a) : p.validator = a.validator :=
  h.elim Same.validator GuessOn.validator

theorem RestsOn.baseVersion (h : p.RestsOn a) (ha : a.provenance.isAuthoritative = true) :
    p.baseVersion = a.version := by
  rcases h with h | h
  · rw [h.baseVersion, baseVersion_of_isAuthoritative ha]
  · exact h.baseVersion

/-- A guess on what rests on an entry rests on that entry too. -/
theorem RestsOn.guessOn (h : p.RestsOn a) (ha : a.provenance.isAuthoritative = true)
    (payload : Json) (now : Instant) : (p.optimistic payload now).GuessOn a where
  provenance := congrArg Provenance.optimistic (h.baseVersion ha)
  version := h.version
  validator := h.validator

/-! ### The order of what the server sends -/

/-- **An entry is behind one of the server's** if it rests on that one or on
an older version. -/
def Behind (p a : Entry) : Prop := p.baseVersion < a.version ∨ p.RestsOn a

/-- **An entry advances** by staying the same, up to its time, or by giving
way to a newer one. -/
def Advances (a b : Entry) : Prop := a.Same b ∨ a.version < b.version

/-- **The newer of the server's entry and what comes in**: an entry that is
not newer is passed over. -/
def adopt : Option Entry → Entry → Entry
  | none, e => e
  | some a, e => if a.version < e.version then e else a

theorem advances_adopt (a e : Entry) : a.Advances (adopt (some a) e) := by
  show a.Advances (if a.version < e.version then e else a)
  split
  · rename_i hv
    exact .inr hv
  · exact .inl (.refl a)

theorem Advances.version_le (h : a.Advances b) : a.version ≤ b.version := by
  rcases h with h | h
  · rw [h.version]
    exact Int64.le_refl _
  · exact Int64.le_of_lt h

theorem Advances.trans (h : a.Advances b) (h' : b.Advances c) : a.Advances c := by
  rcases h with h | h
  · exact h'.imp h.trans (h.version ▸ ·)
  · exact .inr (Int64.lt_of_lt_of_le h h'.version_le)

theorem Behind.advances (h : p.Behind a) (ha : a.provenance.isAuthoritative = true)
    (hab : a.Advances b) : p.Behind b := by
  rcases h with h | h
  · exact .inl (Int64.lt_of_lt_of_le h hab.version_le)
  · rcases hab with hs | hlt
    · exact .inr (h.of_same hs)
    · exact .inl ((h.baseVersion ha).symm ▸ hlt)

/-- What is behind an entry and not on an older version rests on it. -/
theorem Behind.restsOn (h : p.Behind a) (hv : p.baseVersion = a.version) : p.RestsOn a :=
  h.resolve_left (hv ▸ Int64.lt_irrefl)

end Entry

/-! ### Slots -/

/-- **What holds of the slot of an entity**, at any time. -/
structure Slot.Sound (id : EntityId) (s : Slot) : Prop where
  current_entityId : s.current.entityId = id
  authoritative_entityId : s.authoritative.entityId = id
  /-- The server's entry was pushed or fetched. -/
  isAuthoritative : s.authoritative.provenance.isAuthoritative = true
  /-- The entry that is shown is the server's entry or a guess on it. -/
  current : s.current = s.authoritative ∨ s.current.GuessOn s.authoritative
  /-- Something is awaited only while a guess is shown. -/
  pending : s.pending = true → s.current.isOptimistic = true

namespace Slot.Sound

variable {id : EntityId} {s : Slot}

theorem restsOn_current (h : s.Sound id) : s.current.RestsOn s.authoritative := by
  rcases h.current with hc | hc
  · exact .inl (hc ▸ .refl _)
  · exact .inr hc

theorem version_current (h : s.Sound id) : s.current.version = s.authoritative.version :=
  h.restsOn_current.version

theorem baseVersion_current (h : s.Sound id) :
    s.current.baseVersion = s.authoritative.version :=
  h.restsOn_current.baseVersion h.isAuthoritative

/-- What is shown and comes from the server is the server's entry. -/
theorem current_eq (h : s.Sound id) (hc : s.current.isOptimistic = false) :
    s.current = s.authoritative := by
  refine h.current.resolve_right (fun hg => ?_)
  exact Bool.false_ne_true (hc.symm.trans hg.isOptimistic)

theorem guessesOn_iff (h : s.Sound id) (base : Version) :
    s.guessesOn base = true
      ↔ s.current.isOptimistic = true ∧ base = s.authoritative.version := by
  rw [Slot.guessesOn, h.baseVersion_current, Bool.and_eq_true, beq_iff_eq, eq_comm (a := base)]

/-! Each operation keeps a slot sound and lets the server's entry advance. -/

theorem first {e : Entry} (hid : e.entityId = id) (he : e.provenance.isAuthoritative = true) :
    (Slot.first e).Sound id where
  current_entityId := hid
  authoritative_entityId := hid
  isAuthoritative := he
  current := .inl rfl
  pending := fun h => absurd h Bool.false_ne_true

theorem offered (h : s.Sound id) {e : Entry} (hid : e.entityId = id)
    (he : e.provenance.isAuthoritative = true) : (s.offered e).Sound id := by
  unfold Slot.offered
  split
  · exact first hid he
  · exact h

theorem authoritative_offered (h : s.Sound id) (e : Entry) :
    (s.offered e).authoritative = Entry.adopt (some s.authoritative) e := by
  rw [Slot.offered, h.baseVersion_current, Entry.adopt]
  split <;> rfl

theorem refreshed (h : s.Sound id) (now : Instant) : (s.refreshed now).Sound id := by
  cases ho : s.current.isOptimistic with
  | true =>
    have hg : s.current.GuessOn s.authoritative := by
      refine h.current.resolve_left (fun hc => ?_)
      rw [hc, Entry.isOptimistic_eq_false h.isAuthoritative] at ho
      exact absurd ho Bool.false_ne_true
    rw [Slot.refreshed, ho, if_pos rfl]
    exact ⟨h.current_entityId, h.authoritative_entityId, h.isAuthoritative,
      .inr (hg.of_same (Entry.same_at _ now)), fun _ => ho⟩
  | false =>
    have hp : s.pending = false := by
      cases hp : s.pending with
      | false => rfl
      | true => exact absurd (ho.symm.trans (h.pending hp)) Bool.false_ne_true
    rw [Slot.refreshed, ho, if_neg Bool.false_ne_true, h.current_eq ho, hp]
    exact first (e := { s.authoritative with receivedAt := now }) h.authoritative_entityId
      h.isAuthoritative

theorem guessed (h : s.Sound id) (edit : Json → Json) (now : Instant) :
    (s.guessed edit now).Sound id where
  current_entityId := h.current_entityId
  authoritative_entityId := h.authoritative_entityId
  isAuthoritative := h.isAuthoritative
  current := .inr (h.restsOn_current.guessOn h.isAuthoritative _ now)
  pending := fun _ => Entry.isOptimistic_optimistic _ _ _

theorem settled (h : s.Sound id) : s.settled.Sound id :=
  { h with pending := fun hp => absurd hp Bool.false_ne_true }

theorem reverted (h : s.Sound id) (base : Version) : (s.reverted base).Sound id := by
  unfold Slot.reverted
  split
  · exact first h.authoritative_entityId h.isAuthoritative
  · exact h.settled

theorem authoritative_reverted (s : Slot) (base : Version) :
    (s.reverted base).authoritative = s.authoritative := by
  unfold Slot.reverted
  split <;> rfl

/-- A guess that is taken back uncovers an entry that rests on the server's:
that entry itself, or an earlier guess on it. -/
theorem putBack (h : s.Sound id) {p : Entry} (hid : p.entityId = id)
    (hp : p.Behind s.authoritative) :
    (s.putBack p).Sound id ∧ s.authoritative.Same (s.putBack p).authoritative := by
  unfold Slot.putBack
  split
  · rename_i hg
    have hv : p.baseVersion = s.authoritative.version := ((h.guessesOn_iff _).mp hg).2
    rcases hp.restsOn hv with hs | hg
    · have hpa : p.provenance.isAuthoritative = true := hs.provenance ▸ h.isAuthoritative
      have hpo : ¬ p.isOptimistic = true := Bool.eq_false_iff.mp (Entry.isOptimistic_eq_false hpa)
      rw [if_neg hpo]
      exact ⟨first hid hpa, hs.symm⟩
    · rw [if_pos hg.isOptimistic]
      exact ⟨⟨hid, h.authoritative_entityId, h.isAuthoritative, .inr hg,
        fun hp => absurd hp Bool.false_ne_true⟩, .refl _⟩
  · exact ⟨h.settled, .refl _⟩

end Slot.Sound

/-! ### Caches -/

namespace Cache

/-- Every slot is sound. -/
def Sound (c : Cache) : Prop := ∀ id s, c.slot? id = some s → s.Sound id

/-- **The server's entries stay what they are**, up to their time. -/
def Quiet (c c' : Cache) : Prop :=
  ∀ id, Entry.Agree (c.authoritative? id) (c'.authoritative? id)

/-- **The server's entries advance**, and none is lost. -/
def Grows (c c' : Cache) : Prop :=
  ∀ id a, c.authoritative? id = some a →
    ∃ a', c'.authoritative? id = some a' ∧ a.Advances a'

/-- **A cache knows an entry** if the entry is behind the server's entry of
its entity. -/
def Knows (c : Cache) (p : Entry) : Prop :=
  ∃ a, c.authoritative? p.entityId = some a ∧ p.Behind a

variable {c c' : Cache} {id : EntityId}

theorem authoritative?_eq {s : Slot} (hs : c.slot? id = some s) :
    c.authoritative? id = some s.authoritative := congrArg (Option.map _) hs

/-- The slot of a server's entry. -/
theorem exists_slot {a : Entry} (ha : c.authoritative? id = some a) :
    ∃ s, c.slot? id = some s ∧ s.authoritative = a := Option.map_eq_some_iff.mp ha

theorem Quiet.refl (c : Cache) : c.Quiet c := fun _ => .refl _

theorem Quiet.grows (h : c.Quiet c') : c.Grows c' := by
  intro id a ha
  obtain ⟨a', ha', hs⟩ := Entry.agree_some_left.mp (ha ▸ h id)
  exact ⟨a', ha', .inl hs⟩

theorem Knows.grows {p : Entry} (h : c.Knows p) (hc : c.Sound) (hg : c.Grows c') :
    c'.Knows p := by
  obtain ⟨a, ha, hp⟩ := h
  obtain ⟨a', ha', hadv⟩ := hg _ a ha
  obtain ⟨s, hs, rfl⟩ := exists_slot ha
  exact ⟨a', ha', hp.advances (hc _ s hs).isAuthoritative hadv⟩

/-- What is shown is known. -/
theorem Sound.knows_current (h : c.Sound) {s : Slot} (hs : c.slot? id = some s) :
    c.Knows s.current :=
  ⟨s.authoritative, (h id s hs).current_entityId ▸ authoritative?_eq hs,
    .inr (h id s hs).restsOn_current⟩

theorem sound_empty : Sound .empty := by
  intro id s hs
  exact absurd hs (by simp [slot?, empty])

/-- An operation that keeps the slot it alters sound and its server's entry
the same does so for the cache. -/
theorem Sound.alters {f : Slot → Slot} (h : c.Sound) (ha : c.Alters id f c')
    (hf : ∀ s, c.slot? id = some s →
      (f s).Sound id ∧ s.authoritative.Same (f s).authoritative) :
    c'.Sound ∧ c.Quiet c' := by
  refine ⟨fun j s' hs' => ?_, fun j => ?_⟩
  · rw [ha j] at hs'
    split at hs'
    · rename_i hj
      subst hj
      obtain ⟨s, hs, rfl⟩ := Option.map_eq_some_iff.mp hs'
      exact (hf s hs).1
    · exact h j s' hs'
  · rw [authoritative?, authoritative?, ha j]
    split
    · rename_i hj
      subst hj
      cases hs : c.slot? id with
      | none => exact .none
      | some s => exact .some (hf s hs).2
    · exact .refl _

theorem Sound.markNotModified (h : c.Sound) (id : EntityId) (now : Instant) :
    (c.markNotModified id now).state.Sound ∧ c.Quiet (c.markNotModified id now).state :=
  h.alters (alters_markNotModified c id now) fun s hs =>
    ⟨(h id s hs).refreshed now, Entry.same_at _ now⟩

theorem Sound.beginOptimistic (h : c.Sound) (id : EntityId) (edit : Json → Json)
    (now : Instant) :
    (c.beginOptimistic id edit now).state.Sound
      ∧ c.Quiet (c.beginOptimistic id edit now).state :=
  h.alters (alters_beginOptimistic c id edit now) fun s hs =>
    ⟨(h id s hs).guessed edit now, .refl _⟩

theorem Sound.clearPending (h : c.Sound) (id : EntityId) :
    (c.clearPending id).state.Sound ∧ c.Quiet (c.clearPending id).state :=
  h.alters (alters_clearPending c id) fun s hs => ⟨(h id s hs).settled, .refl _⟩

theorem Sound.revert (h : c.Sound) (id : EntityId) (base : Version) :
    (c.revert id base).state.Sound ∧ c.Quiet (c.revert id base).state := by
  refine h.alters (alters_revert c id base) fun s hs => ⟨(h id s hs).reverted base, ?_⟩
  rw [Slot.Sound.authoritative_reverted]
  exact .refl _

theorem Sound.rollback (h : c.Sound) {p : Entry} (hp : c.Knows p) :
    (c.rollback p).state.Sound ∧ c.Quiet (c.rollback p).state := by
  refine h.alters (alters_rollback c p) fun s hs => ?_
  obtain ⟨a, ha, hbehind⟩ := hp
  obtain rfl := Option.some.inj ((authoritative?_eq hs).symm.trans ha)
  exact (h _ s hs).putBack rfl hbehind

theorem Sound.apply (h : c.Sound) {e : Entry} (he : e.provenance.isAuthoritative = true) :
    (c.apply e).state.Sound := by
  intro j s' hs'
  rw [slot?_apply] at hs'
  split at hs'
  · rename_i hj
    subst hj
    cases hs : c.slot? e.entityId with
    | none =>
      rw [hs] at hs'
      obtain rfl := Option.some.inj hs'
      exact .first rfl he
    | some s =>
      rw [hs] at hs'
      obtain rfl := Option.some.inj hs'
      exact (h _ s hs).offered rfl he
  · exact h j s' hs'

/-- **What comes in is adopted if it is newer** than the server's entry, and
whatever is shown has no say in it. -/
theorem Sound.authoritative?_apply (h : c.Sound) (e : Entry) (j : EntityId) :
    (c.apply e).state.authoritative? j
      = if e.entityId = j then some (Entry.adopt (c.authoritative? j) e)
        else c.authoritative? j := by
  rw [authoritative?, authoritative?, slot?_apply]
  split
  · cases hs : c.slot? j with
    | none => rfl
    | some s => exact congrArg some ((h j s hs).authoritative_offered e)
  · rfl

theorem Sound.grows_apply (h : c.Sound) (e : Entry) : c.Grows (c.apply e).state := by
  intro j a ha
  rw [h.authoritative?_apply, ha]
  split
  · exact ⟨_, rfl, Entry.advances_adopt a e⟩
  · exact ⟨a, rfl, .inl (.refl a)⟩

theorem Sound.meet (h : c.Sound) (b : Background) :
    (c.meet b).Sound ∧ c.Grows (c.meet b) := by
  cases b with
  | push id version payload now => exact ⟨h.apply rfl, h.grows_apply _⟩
  | fetched id version payload validator now => exact ⟨h.apply rfl, h.grows_apply _⟩
  | notModified id now => exact (h.markNotModified id now).imp_right Quiet.grows
  | revert id base => exact (h.revert id base).imp_right Quiet.grows

end Cache

/-! ### Runs -/

namespace Ledger

open Cache

/-- **What holds at any time of a run**: the slots are sound, and what was
handed out is known. -/
structure Sound (l : Ledger) : Prop where
  cache : l.cache.Sound
  handedOut : ∀ p ∈ l.handedOut, l.cache.Knows p

variable {l : Ledger}

theorem sound_start : start.Sound := ⟨sound_empty, nofun⟩

/-- What is known stays known while nothing new is handed out. -/
theorem Sound.withCache (h : l.Sound) {c : Cache} (hc : c.Sound ∧ l.cache.Grows c) :
    ({ l with cache := c } : Ledger).Sound ∧ l.cache.Grows c :=
  ⟨⟨hc.1, fun p hp => (h.handedOut p hp).grows h.cache hc.2⟩, hc.2⟩

theorem Sound.step (h : l.Sound) (op : Op) :
    (l.step op).Sound ∧ l.cache.Grows (l.step op).cache := by
  cases op with
  | background b => exact h.withCache (h.cache.meet b)
  | guess id edit now =>
    have hc := (h.cache.beginOptimistic id edit now).imp_right Quiet.grows
    refine ⟨⟨hc.1, fun p hp => ?_⟩, hc.2⟩
    rcases List.mem_append.mp hp with hp | hp
    · exact (h.handedOut p hp).grows h.cache hc.2
    · -- what is handed out now was shown until now
      rw [result_beginOptimistic] at hp
      cases hs : l.cache.slot? id with
      | none => simp [current?, hs, Except.toOption] at hp
      | some s =>
        obtain rfl : p = s.current := by simpa [current?, hs, Except.toOption] using hp
        exact (h.cache.knows_current hs).grows h.cache hc.2
  | takeBack ticket =>
    rw [Ledger.step]
    split
    · rename_i p hp
      have hknown := h.handedOut p (List.mem_of_getElem? hp)
      exact h.withCache ((h.cache.rollback hknown).imp_right Quiet.grows)
    · exact ⟨h, (Quiet.refl _).grows⟩
  | clearPending id => exact h.withCache ((h.cache.clearPending id).imp_right Quiet.grows)

theorem sound_run (ops : List Op) : (run ops).Sound := by
  induction ops using List.reverseRecOn with
  | nil => exact sound_start
  | append_singleton ops op ih =>
    rw [run_concat]
    exact (ih.step op).1

/-- **At any time of any run** the slots are sound, and one operation more
loses no slot and lets no version decrease. -/
theorem run_sound_and_monotone (ops : List Op) :
    (∀ id s, (run ops).cache.slot? id = some s → s.Sound id)
      ∧ ∀ op id v, (run ops).cache.version? id = some v →
          ∃ w, (run (ops ++ [op])).cache.version? id = some w ∧ v ≤ w := by
  refine ⟨(sound_run ops).cache, fun op id v hv => ?_⟩
  obtain ⟨e, he, rfl⟩ := Option.map_eq_some_iff.mp hv
  obtain ⟨s, hs, rfl⟩ := Option.map_eq_some_iff.mp he
  obtain ⟨a', ha', hadv⟩ := ((sound_run ops).step op).2 id _ (authoritative?_eq hs)
  rw [← run_concat] at ha'
  obtain ⟨s', hs', rfl⟩ := exists_slot ha'
  refine ⟨s'.current.version, by rw [version?, current?, hs']; rfl, ?_⟩
  rw [((sound_run ops).cache id s hs).version_current,
    ((sound_run (ops ++ [op])).cache id s' hs').version_current]
  exact hadv.version_le

end Ledger

end LiveSync
