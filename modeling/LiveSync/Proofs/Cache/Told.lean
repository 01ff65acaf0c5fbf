import LiveSync.Proofs.Cache.Newest

/-!
# What the cache tells

Whoever follows the events of the cache wants to hear of every state that the
server's entry of an entity advances to. An operation either leaves that entry
as it is, up to its time, or tells so (`Ledger.Sound.agree_or_brings`). Guesses
are told too, and so is it when they are taken back, but a turn is never
announced by the cache itself.
-/

namespace LiveSync

/-- **Whether an event brings a state of an entity** that came from the
server. -/
def Event.brings (id : EntityId) : Event → Bool
  | .entityUpdated j _ provenance => j = id && provenance.isAuthoritative
  | _ => false

/-- Whether an event announces a turn. -/
def Event.isTurn : Event → Bool
  | .turnStarted _ _ => true
  | _ => false

namespace Cache

variable {c : Cache} {e : Entry}

/-- What is told of something that happens in the background. -/
def told (c : Cache) : Background → List Event
  | .push id version payload now => (c.applyPush id version payload now).events
  | .fetched id version payload validator now =>
    (c.apply (.http id version payload validator now)).events
  | .notModified id now => (c.markNotModified id now).events
  | .revert id base => (c.revert id base).events

/-- What comes in and is not taken up changes nothing; what is taken up is
told. -/
theorem apply_cases (c : Cache) (e : Entry) :
    ((c.apply e).state = c ∧ (c.apply e).events = []) ∨ (c.apply e).events = [updated e] := by
  unfold apply
  split
  · exact .inr rfl
  · split
    · exact .inr rfl
    · exact .inl ⟨rfl, rfl⟩

theorem told_of_offer? {b : Background} (h : b.offer? = some e) :
    c.told b = (c.apply e).events := by
  cases b <;> cases h <;> rfl

theorem provenance_of_offer? {b : Background} (h : b.offer? = some e) :
    e.provenance.isAuthoritative = true := by
  cases b <;> cases h <;> rfl

end Cache

namespace Ledger

open Cache

variable {l : Ledger} {op : Op} {e : Entry}

/-- **What is told of an operation.** -/
def told (l : Ledger) : Op → List Event
  | .background b => l.cache.told b
  | .guess id edit now => (l.cache.beginOptimistic id edit now).events
  | .takeBack ticket =>
    l.handedOut[ticket]?.elim [] fun previous => (l.cache.rollback previous).events
  | .clearPending id => (l.cache.clearPending id).events

theorem told_of_offer? (hop : op.offer? = some e) : l.told op = (l.cache.apply e).events := by
  cases op with
  | background b => exact Cache.told_of_offer? hop
  | guess | takeBack | clearPending => nomatch hop

theorem provenance_of_offer? (hop : op.offer? = some e) : e.provenance.isAuthoritative = true := by
  cases op with
  | background b => exact Cache.provenance_of_offer? hop
  | guess | takeBack | clearPending => nomatch hop

/-- **The server's entry stays what it is, or a new one is told.** -/
theorem Sound.agree_or_brings (h : l.Sound) (op : Op) (id : EntityId) :
    Entry.Agree (l.cache.authoritative? id) ((l.step op).cache.authoritative? id)
      ∨ ∃ event ∈ l.told op, event.brings id = true := by
  cases hop : op.offer? with
  | none => exact .inl (h.quiet_step hop id)
  | some e =>
    rw [step_of_offer? hop, told_of_offer? hop]
    rcases l.cache.apply_cases e with ⟨hstate, -⟩ | hevents
    · rw [hstate]
      exact .inl (.refl _)
    · by_cases hid : e.entityId = id
      · refine .inr ⟨updated e, hevents ▸ List.mem_singleton_self _, ?_⟩
        simp [Event.brings, updated, hid, provenance_of_offer? hop]
      · rw [h.cache.authoritative?_apply, if_neg hid]
        exact .inl (.refl _)

/-- **The cache announces no turn.** -/
theorem filter_isTurn_told (l : Ledger) (op : Op) : (l.told op).filter Event.isTurn = [] := by
  have happly (e : Entry) : (l.cache.apply e).events.filter Event.isTurn = [] := by
    rcases l.cache.apply_cases e with ⟨-, hnil⟩ | htold
    · rw [hnil]
      rfl
    · rw [htold]
      rfl
  cases op with
  | background b =>
    cases b with
    | push id version payload now => exact happly _
    | fetched id version payload validator now => exact happly _
    | notModified id now =>
      show (l.cache.markNotModified id now).events.filter _ = _
      unfold markNotModified
      split <;> rfl
    | revert id base =>
      show (l.cache.revert id base).events.filter _ = _
      unfold revert
      split
      · rfl
      · split <;> rfl
  | guess id edit now =>
    show (l.cache.beginOptimistic id edit now).events.filter _ = _
    unfold beginOptimistic
    split <;> rfl
  | takeBack ticket =>
    rw [told]
    cases l.handedOut[ticket]? with
    | none => rfl
    | some previous =>
      show (l.cache.rollback previous).events.filter _ = _
      unfold rollback
      split
      · rfl
      · split <;> rfl
  | clearPending id =>
    show (l.cache.clearPending id).events.filter _ = _
    unfold clearPending
    split <;> rfl

end Ledger

end LiveSync
