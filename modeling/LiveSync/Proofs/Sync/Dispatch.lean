import LiveSync.Client.Basic
import LiveSync.Proofs.Cache.Newest
import LiveSync.Proofs.Entity.Validator

/-!
# One guard on two ways

A command is meant for the state that its user saw, and the server refuses it
if it has moved on. How the state is named depends on the way that the command
goes: on the live connection it is a version, and by way of the API it is a
token. If the two came apart, the server would accept on one way what it
refuses on the other.

Both are taken from one entry, the one that the command's guess replaced, and
that entry may be a guess itself. Its version and its token were then copied,
from one guess to the next, out of an entry of the server; they came into the
cache together, and since then that entry can only have been put back, or have
got another time (`Entry.RestsOn`). So it is enough to look at the entries
that come in.
-/

namespace LiveSync

open LiveSync.Connection

namespace Entry

variable {a e p : Entry}

/-- **An entry is guarded** if it has a token that does not contradict its
version. -/
def Guarded (e : Entry) : Prop :=
  ∃ token, e.validator = some token ∧ token.Guards e.version

theorem guarded_push (id : EntityId) (version : Version) (payload : Json) (now : Instant) :
    (push id version payload now).Guarded := ⟨_, rfl, Validator.guards_derive id version⟩

theorem guarded_http (id : EntityId) (version : Version) (payload : Json)
    (validator : Option Validator) (now : Instant) :
    (http id version payload validator now).Guarded :=
  ⟨_, rfl, Validator.guards_fetchedValidator id version validator⟩

/-- The guard of an entry is that of any other with its version and token. -/
theorem Guarded.of_eq (h : a.Guarded) (hversion : e.version = a.version)
    (hvalidator : e.validator = a.validator) : e.Guarded := by
  rw [Guarded, hversion, hvalidator]
  exact h

theorem Guarded.of_same (h : a.Guarded) (hs : a.Same e) : e.Guarded :=
  h.of_eq hs.version.symm hs.validator.symm

/-- **Any depth of guesses** has the guard of the entry they rest on. -/
theorem Guarded.of_restsOn (h : a.Guarded) (hp : p.RestsOn a) : p.Guarded :=
  h.of_eq hp.version hp.validator

end Entry

namespace Cache

variable {e : Entry} {id : EntityId} {ops : List Op}

/-- Whatever comes in is guarded. -/
theorem guarded_of_offer? {op : Op} (h : op.offer? = some e) : e.Guarded := by
  cases op with
  | background b =>
    cases b with
    | push id version payload now =>
      obtain rfl := Option.some.inj h
      exact Entry.guarded_push id version payload now
    | fetched id version payload validator now =>
      obtain rfl := Option.some.inj h
      exact Entry.guarded_http id version payload validator now
    | notModified | revert => nomatch h
  | guess | takeBack | clearPending => nomatch h

theorem guarded_of_mem_offers (h : e ∈ offers id ops) : e.Guarded := by
  obtain ⟨op, -, hop⟩ := List.mem_filterMap.mp (List.mem_filter.mp h).1
  exact guarded_of_offer? hop

end Cache

namespace Ledger

open Cache Entry

/-- **The server's entry of a loaded entity is guarded.** -/
theorem guarded_authoritative {id : EntityId} {ops : List Op} {a : Entry}
    (ha : (run ops).cache.authoritative? id = some a) : a.Guarded := by
  have hagree := ha ▸ agree_newest_offers id ops
  obtain ⟨e, he, hs⟩ := agree_some_left.mp hagree.symm
  exact (guarded_of_mem_offers (isNewest_newest he).mem).of_same hs.symm

end Ledger

namespace Coordinator

open Cache

/-- A command is dispatched with what is shown when its turn comes. -/
theorem result_enter (k : Coordinator) (c : Cache) (s : Submission) (route : Route) (now : Instant)
    (deadline : Clock) :
    (k.enter c s route now deadline).result
      = (c.current? s.mutation.entityId).elim (.error (.notLoaded s.mutation.entityId)) .ok := by
  rw [← result_beginOptimistic c s.mutation.entityId (Mutation.speculate s.mutation.action) now]
  unfold enter
  generalize c.beginOptimistic _ _ now = u
  obtain ⟨state, result, events⟩ := u
  cases result <;> rfl

end Coordinator

namespace Client

open Cache Ledger

/-- **A command is guarded by one version on either way.** If the server's
entry of its entity has version `v`, then it is dispatched with an entry of
that version, whether this is the server's own or a guess. On the live
connection `v` is sent. By way of the API a token is sent, and it names `v` if
it names a version at all. -/
theorem one_guard_either_way (ops : List Op) (s : Submission) {a : Entry}
    (ha : (Ledger.run ops).cache.authoritative? s.mutation.entityId = some a) :
    ∃ previous token,
      (∀ (k : Coordinator) (route : Route) (now : Instant) (deadline : Clock),
        (k.enter (Ledger.run ops).cache s route now deadline).result = .ok previous)
      ∧ previous.version = a.version ∧ previous.validator = some token
      ∧ (token.parse? = none ∨ ∃ id, token.parse? = some (id, a.version))
      ∧ ∀ (c : Client) (caller : CallId),
        c.dispatch caller s.mutation previous .live
            = c.freshRequest.1.enqueue (.submit c.freshRequest.2 s.mutation.entityId a.version
                s.mutation.action caller)
        ∧ c.dispatch caller s.mutation previous .api
            = (c, [.submit caller s.mutation.entityId s.mutation.action (some token)]) := by
  obtain ⟨slot, hslot, rfl⟩ := exists_slot ha
  have hsound : slot.Sound s.mutation.entityId := (sound_run ops).cache _ slot hslot
  have hversion : slot.current.version = slot.authoritative.version := hsound.version_current
  obtain ⟨token, htoken, hguards⟩ := (guarded_authoritative ha).of_restsOn hsound.restsOn_current
  refine ⟨slot.current, token, fun k route now deadline => ?_, hversion, htoken, ?_,
    fun c caller => ⟨?_, ?_⟩⟩
  · rw [Coordinator.result_enter, current?, hslot]
    rfl
  · rw [← hversion]
    refine hguards.imp (fun h => Option.map_eq_none_iff.mp h) (fun h => ?_)
    obtain ⟨⟨id, v⟩, hparse, rfl⟩ := Option.map_eq_some_iff.mp h
    exact ⟨id, hparse⟩
  · rw [← hversion]
    rfl
  · rw [← htoken]
    rfl

/-- A second guess is dispatched, after a fetch with a token of another
version. -/
theorem one_guard_either_way_second_guess :
    let ops : List Op :=
      [.background (.fetched 7 3 .null (some ⟨"\"game-7-v2\""⟩) ⟨0, 0⟩),
        .guess 7 (fun _ => .bool true) ⟨1, 0⟩]
    let a : Entry := .http 7 3 .null (some ⟨"\"game-7-v2\""⟩) ⟨0, 0⟩
    (Ledger.run ops).cache.authoritative? 7 = some a
      ∧ ∃ previous token,
        ((Coordinator.empty.enter (Ledger.run ops).cache ⟨0, ⟨7, .bid 1⟩, 0, .waiting⟩ .live ⟨2, 0⟩
            0).result = .ok previous)
        ∧ previous.version = 3 ∧ previous.validator = some token
        ∧ (token.parse? = none ∨ ∃ id, token.parse? = some (id, 3)) := by
  intro ops a
  have ha : (Ledger.run ops).cache.authoritative? 7 = some a := rfl
  obtain ⟨previous, token, henter, hversion, hvalidator, hparse, -⟩ :=
    one_guard_either_way ops ⟨0, ⟨7, .bid 1⟩, 0, .waiting⟩ ha
  exact ⟨ha, previous, token, henter _ _ _ _, hversion, hvalidator, hparse⟩

end Client

end LiveSync
