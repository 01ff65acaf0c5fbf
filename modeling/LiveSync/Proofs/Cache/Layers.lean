import LiveSync.Proofs.Cache.Log

/-!
# Guesses on guesses

Commands may be issued before the answers to earlier ones have come, so there
are guesses on guesses. To take a guess back uncovers the entry under it, which
may be a guess again. One would like a guess that was uncovered over, and so is
gone, to be gone for good.

The cache does not keep its guesses in a stack. It shows one of them, and leaves
it to whoever wrote a guess to keep the entry under it. When that entry comes
back, the cache asks no more than whether a guess on the same version is shown.
So it has to be known from the run which guess is shown and what lies under it:
guesses are numbered in the order in which they were written, which is the order
in which the entries under them were handed out (`Ledger.Layers`).

A guess comes back only when the entry under *another* guess than the one that
is shown is put back. Where that does not happen (`Ledger.TakesShown`), what a
rollback or a watchdog has discarded stays discarded
(`Ledger.discarded_guess_stays_discarded`); where it happens, it may not
(`Ledger.discarded_guess_comes_back`).
-/

namespace LiveSync

/-! ### What is not replaced -/

namespace Cache

variable {c c' : Cache} {id : EntityId}

/-- **Guesses are left as they are**, their times included, unless they are
replaced. -/
def LeavesGuesses (c : Cache) (replaced : Option EntityId) (c' : Cache) : Prop :=
  ∀ id e, replaced ≠ some id → c'.current? id = some e → e.isOptimistic = true →
    c.current? id = some e

theorem leavesGuesses_refl (c : Cache) (replaced : Option EntityId) :
    c.LeavesGuesses replaced c := fun _ _ _ he _ => he

theorem current?_eq {s : Slot} (hs : c.slot? id = some s) : c.current? id = some s.current :=
  congrArg (Option.map _) hs

theorem current?_write (c : Cache) (id j : EntityId) (s : Slot) :
    (c.write id s).current? j = if id = j then some s.current else c.current? j := by
  rw [current?, slot?_write]
  split <;> rfl

theorem leavesGuesses_write (c : Cache) (id : EntityId) (s : Slot) :
    c.LeavesGuesses (some id) (c.write id s) := by
  intro j e hne he _
  rwa [current?_write, if_neg fun hj => hne (congrArg some hj)] at he

theorem leavesGuesses_write_of_eq {s s' : Slot} (hs : c.slot? id = some s)
    (hc : s'.current.isOptimistic = true → s'.current = s.current)
    (replaced : Option EntityId) : c.LeavesGuesses replaced (c.write id s') := by
  intro j e _ he ho
  rw [current?_write] at he
  split at he
  · rename_i hj
    obtain rfl := Option.some.inj he
    rw [← hj, current?_eq hs, hc ho]
  · exact he

theorem leavesGuesses_apply (c : Cache) (e : Entry) :
    c.LeavesGuesses (if (c.apply e).result.isApplied then some e.entityId else none)
      (c.apply e).state := by
  unfold apply
  split
  · exact leavesGuesses_write c _ _
  · split
    · exact leavesGuesses_write c _ _
    · exact leavesGuesses_refl c _

theorem leavesGuesses_markNotModified (c : Cache) (id : EntityId) (now : Instant) :
    c.LeavesGuesses none (c.markNotModified id now).state := by
  unfold markNotModified
  split
  · exact leavesGuesses_refl c _
  · rename_i s hs
    refine leavesGuesses_write_of_eq hs ?_ _
    show Entry.isOptimistic (if _ then _ else _) = true → (if _ then _ else _) = _
    split
    · exact fun _ => rfl
    · rename_i hno
      exact fun ho => absurd ho hno

theorem leavesGuesses_beginOptimistic (c : Cache) (id : EntityId) (edit : Json → Json)
    (now : Instant) :
    c.LeavesGuesses
      (if (c.beginOptimistic id edit now).result.toOption.isSome then some id else none)
      (c.beginOptimistic id edit now).state := by
  unfold beginOptimistic
  split
  · exact leavesGuesses_refl c _
  · exact leavesGuesses_write c _ _

theorem leavesGuesses_rollback (c : Cache) (p : Entry) :
    c.LeavesGuesses (if (c.rollback p).result then some p.entityId else none)
      (c.rollback p).state := by
  unfold rollback
  split
  · exact leavesGuesses_refl c _
  · rename_i s hs
    split
    · exact leavesGuesses_write c _ _
    · refine leavesGuesses_write_of_eq hs ?_ _
      exact fun _ => rfl

theorem leavesGuesses_revert (c : Cache) (id : EntityId) (base : Version) :
    c.LeavesGuesses (if (c.revert id base).result then some id else none)
      (c.revert id base).state := by
  unfold revert
  split
  · exact leavesGuesses_refl c _
  · rename_i s hs
    split
    · exact leavesGuesses_write c _ _
    · refine leavesGuesses_write_of_eq hs ?_ _
      exact fun _ => rfl

theorem leavesGuesses_clearPending (c : Cache) (id : EntityId) :
    c.LeavesGuesses none (c.clearPending id).state := by
  unfold clearPending
  split
  · exact leavesGuesses_refl c _
  · rename_i s hs
    refine leavesGuesses_write_of_eq hs ?_ _
    exact fun _ => rfl

/-! ### What replaces it -/

theorem current?_of_isApplied {e : Entry} (h : (c.apply e).result.isApplied = true) :
    (c.apply e).state.current? e.entityId = some e := by
  unfold apply at h ⊢
  split
  · rw [current?_write, if_pos rfl]
  · rename_i s hs
    split
    · rw [current?_write, if_pos rfl]
    · rename_i hno
      simp [hs, hno, Update.silent, ApplyOutcome.isApplied] at h

theorem current?_of_guessed {edit : Json → Json} {now : Instant}
    (h : (c.beginOptimistic id edit now).result.toOption.isSome = true) :
    ∃ e, c.current? id = some e ∧ (c.beginOptimistic id edit now).state.current? id
      = some (e.optimistic (edit e.payload) now) := by
  unfold beginOptimistic at h ⊢
  split
  · rename_i hs
    simp [hs, Update.silent, Except.toOption] at h
  · rename_i s hs
    refine ⟨s.current, current?_eq hs, ?_⟩
    rw [current?_write, if_pos rfl]

theorem current?_of_rolledBack {p : Entry} (h : (c.rollback p).result = true) :
    (c.rollback p).state.current? p.entityId = some p := by
  unfold rollback at h ⊢
  split
  · rename_i hs
    simp [hs, Update.silent] at h
  · rename_i s hs
    split
    · rw [current?_write, if_pos rfl]
    · rename_i hno
      simp [hs, hno, Update.silent] at h

theorem Sound.current?_of_reverted (hc : c.Sound) {base : Version}
    (h : (c.revert id base).result = true) :
    ∃ e, (c.revert id base).state.current? id = some e ∧ e.isOptimistic = false := by
  unfold Cache.revert at h ⊢
  split
  · rename_i hs
    simp [hs, Update.silent] at h
  · rename_i s hs
    split
    · refine ⟨s.authoritative, ?_, Entry.isOptimistic_eq_false (hc id s hs).isAuthoritative⟩
      rw [current?_write, if_pos rfl]
    · rename_i hno
      simp [hs, hno, Update.silent] at h

end Cache

namespace Ledger

open Cache

variable {l : Ledger} {id : EntityId} {op : Op}

theorem leavesGuesses_step (l : Ledger) (op : Op) :
    l.cache.LeavesGuesses (l.replaced op) (l.step op).cache := by
  cases op with
  | background b =>
    cases b with
    | push id version payload now => exact leavesGuesses_apply l.cache _
    | fetched id version payload validator now => exact leavesGuesses_apply l.cache _
    | notModified id now => exact leavesGuesses_markNotModified l.cache id now
    | revert id base => exact leavesGuesses_revert l.cache id base
  | guess id edit now => exact leavesGuesses_beginOptimistic l.cache id edit now
  | takeBack ticket =>
    rw [replaced, Ledger.step]
    cases l.handedOut[ticket]? with
    | none => exact leavesGuesses_refl l.cache _
    | some p => exact leavesGuesses_rollback l.cache p
  | clearPending id => exact leavesGuesses_clearPending l.cache id

/-- **The entry that an operation brings**, if it replaces the one that is shown
of an entity. -/
inductive Brings (l : Ledger) (id : EntityId) : Op → Entry → Prop
  /-- The server's entry, new or uncovered. -/
  | server {b : Background} {e : Entry} (he : e.isOptimistic = false) :
    Brings l id (.background b) e
  | guessed {edit : Json → Json} {now : Instant} {e : Entry} (he : l.cache.current? id = some e) :
    Brings l id (.guess id edit now) (e.optimistic (edit e.payload) now)
  | putBack {ticket : Nat} {e : Entry} (he : l.handedOut[ticket]? = some e) :
    Brings l id (.takeBack ticket) e

/-- An operation that replaces the entry that is shown brings another. -/
theorem Sound.brings (h : l.Sound) (hr : l.replaced op = some id) :
    ∃ e, (l.step op).cache.current? id = some e ∧ l.Brings id op e := by
  cases op with
  | background b =>
    cases b with
    | push j version payload now =>
      obtain ⟨happlied, hj⟩ := Option.ite_none_right_eq_some.mp hr
      obtain rfl := Option.some.inj hj
      exact ⟨_, current?_of_isApplied happlied, .server rfl⟩
    | fetched j version payload validator now =>
      obtain ⟨happlied, hj⟩ := Option.ite_none_right_eq_some.mp hr
      obtain rfl := Option.some.inj hj
      exact ⟨_, current?_of_isApplied happlied, .server rfl⟩
    | notModified j now => cases hr
    | revert j base =>
      obtain ⟨hreverted, hj⟩ := Option.ite_none_right_eq_some.mp hr
      obtain rfl := Option.some.inj hj
      obtain ⟨e, he, ho⟩ := h.cache.current?_of_reverted hreverted
      exact ⟨e, he, .server ho⟩
  | guess j edit now =>
    obtain ⟨hguessed, hj⟩ := Option.ite_none_right_eq_some.mp hr
    obtain rfl := Option.some.inj hj
    obtain ⟨e, he, hnew⟩ := current?_of_guessed hguessed
    exact ⟨_, hnew, .guessed he⟩
  | takeBack ticket =>
    obtain ⟨p, hp, hr⟩ := Option.bind_eq_some_iff.mp hr
    obtain ⟨hrolled, hj⟩ := Option.ite_none_right_eq_some.mp hr
    obtain rfl := Option.some.inj hj
    refine ⟨p, ?_, .putBack hp⟩
    rw [Ledger.step, hp]
    exact current?_of_rolledBack hrolled
  | clearPending j => cases hr

/-! ### Layers -/

/-- **A guess that was written**, and the number of the guess under it. There is
none if it was made on the server's entry. -/
structure Layer where
  entry : Entry
  under : Option Nat

/-- **The guesses of a run**, the first one first, and the number of the one that
is shown of each entity. There is none where the server's entry is shown. -/
structure Layers where
  written : List Layer
  shown : EntityId → Option Nat

namespace Layers

/-- Nothing was guessed. -/
def empty : Layers := ⟨[], fun _ => none⟩

/-- The number of the guess under a guess. -/
def under? (g : Layers) (n : Nat) : Option Nat := g.written[n]?.bind Layer.under

/-- The guess that an operation writes. -/
def added (g : Layers) (l : Ledger) : Op → List Layer
  | .guess id edit now => (l.cache.current? id).toList.map fun e =>
    ⟨e.optimistic (edit e.payload) now, g.shown id⟩
  | .background _ | .takeBack _ | .clearPending _ => []

/-- The number of the guess that an operation shows, if it replaces the entry
that is shown. The entry that is put back is the one under the guess whose
number is on the ticket. -/
def brought (g : Layers) : Op → Option Nat
  | .guess _ _ _ => some g.written.length
  | .takeBack ticket => g.under? ticket
  | .background _ | .clearPending _ => none

/-- **One operation.** -/
def step (g : Layers) (l : Ledger) (op : Op) : Layers where
  written := g.written ++ g.added l op
  shown id := if l.replaced op = some id then g.brought op else g.shown id

/-- **What a number stands for**: a guess, or else an entry of the server. -/
def Stands (g : Layers) : Option Nat → Entry → Prop
  | none, e => e.isOptimistic = false
  | some n, e => e.isOptimistic = true ∧ ∃ layer, g.written[n]? = some layer ∧ layer.entry = e

/-- **The layers are those of the cache.** -/
structure Sound (g : Layers) (l : Ledger) : Prop where
  length : g.written.length = l.handedOut.length
  shown : ∀ id e, l.cache.current? id = some e → g.Stands (g.shown id) e
  shown_lt : ∀ id n, g.shown id = some n → n < g.written.length
  /-- What was handed out for a guess is what lies under it. -/
  handedOut : ∀ (n : Nat) (layer : Layer) e, g.written[n]? = some layer → l.handedOut[n]? = some e →
    g.Stands layer.under e
  under_lt : ∀ (n : Nat) (layer : Layer) j, g.written[n]? = some layer → layer.under = some j →
    j < n

variable {g : Layers}

theorem sound_empty : empty.Sound start where
  length := rfl
  shown := nofun
  shown_lt := nofun
  handedOut := nofun
  under_lt := nofun

/-- What was written stays written. -/
theorem Stands.append {x : Option Nat} {e : Entry} (h : g.Stands x e) (l : Ledger) (op : Op) :
    (g.step l op).Stands x e := by
  cases x with
  | none => exact h
  | some n =>
    obtain ⟨ho, layer, hlayer, he⟩ := h
    refine ⟨ho, layer, ?_, he⟩
    rw [step, List.getElem?_append_left (List.getElem?_eq_some_iff.mp hlayer).1]
    exact hlayer

/-- An entry of the server has no number. -/
theorem Stands.eq_none {x : Option Nat} {e : Entry} (h : g.Stands x e)
    (ho : e.isOptimistic = false) : x = none := by
  cases x with
  | none => rfl
  | some n => exact absurd (h.1.symm.trans ho) nofun

/-- A layer was written before, or is the one that the operation writes. -/
theorem written_step_cases {n : Nat} {layer : Layer}
    (h : (g.step l op).written[n]? = some layer) :
    g.written[n]? = some layer
      ∨ n = g.written.length ∧ ∃ id edit now e, op = .guess id edit now
        ∧ l.cache.current? id = some e
        ∧ layer = ⟨e.optimistic (edit e.payload) now, g.shown id⟩ := by
  rw [step, List.getElem?_append] at h
  split at h
  · exact .inl h
  · rename_i hn
    refine .inr ?_
    cases op with
    | background | takeBack | clearPending => nomatch h
    | guess id edit now =>
      cases hs : l.cache.current? id with
      | none => simp [added, hs] at h
      | some e =>
        rw [added, hs] at h
        obtain ⟨hlt, rfl⟩ := List.getElem?_eq_some_iff.mp h
        have hlen : n - g.written.length < 1 := hlt
        refine ⟨by omega, id, edit, now, e, rfl, hs, ?_⟩
        simp

/-- The guess that is written comes last. -/
theorem written_step_guess {edit : Json → Json} {now : Instant} {e : Entry}
    (he : l.cache.current? id = some e) :
    (g.step l (.guess id edit now)).written
      = g.written ++ [⟨e.optimistic (edit e.payload) now, g.shown id⟩] := by
  rw [step, added, he]
  rfl

end Layers

/-- What is put back replaces something. -/
theorem exists_current?_of_takeBack {ticket : Nat} (hr : l.replaced (.takeBack ticket) = some id) :
    ∃ e, l.cache.current? id = some e := by
  obtain ⟨p, -, hr⟩ := Option.bind_eq_some_iff.mp hr
  obtain ⟨hrolled, hj⟩ := Option.ite_none_right_eq_some.mp hr
  obtain rfl := Option.some.inj hj
  rw [result_rollback] at hrolled
  obtain ⟨s, hs, -⟩ := (Option.any_eq_true ..).mp hrolled
  exact ⟨s.current, current?_eq hs⟩

/-- What is handed out for a guess is the entry that was shown. -/
theorem handedOut_guess (l : Ledger) (id : EntityId) (edit : Json → Json) (now : Instant) :
    (l.step (.guess id edit now)).handedOut
      = l.handedOut ++ (l.cache.current? id).toList := by
  rw [step, result_beginOptimistic]
  cases l.cache.current? id <;> rfl

theorem handedOut_takeBack (l : Ledger) (ticket : Nat) :
    (l.step (.takeBack ticket)).handedOut = l.handedOut := by
  rw [step]
  split <;> rfl

/-- An entry that is not replaced is the same, up to its time. -/
theorem Sound.agree_current? (h : l.Sound) (hr : l.replaced op ≠ some id) :
    Entry.Agree (l.cache.current? id) ((l.step op).cache.current? id) := by
  have ht := h.tells op
  cases hj : l.replaced op with
  | none =>
    rw [hj] at ht
    exact ht.2 id
  | some j =>
    rw [hj] at ht
    obtain ⟨x, -, -, hothers⟩ := ht
    rw [hothers id fun hid => hr (hid ▸ hj)]
    exact .refl _

namespace Layers

variable {g : Layers}

theorem Sound.length_step (hg : g.Sound l) (op : Op) :
    (g.step l op).written.length = (l.step op).handedOut.length := by
  cases op with
  | guess id edit now =>
    rw [handedOut_guess, step, added, List.length_append, List.length_append, List.length_map,
      hg.length]
  | background | clearPending => exact (congrArg List.length (List.append_nil _)).trans hg.length
  | takeBack ticket =>
    rw [handedOut_takeBack]
    exact (congrArg List.length (List.append_nil _)).trans hg.length

/-- The entry that is put back has the number under that of its ticket. -/
theorem Sound.stands_under? (hg : g.Sound l) {ticket : Nat} {e : Entry}
    (he : l.handedOut[ticket]? = some e) : g.Stands (g.under? ticket) e := by
  have hlt : ticket < g.written.length := hg.length ▸ (List.getElem?_eq_some_iff.mp he).1
  have hlayer := List.getElem?_eq_getElem hlt
  rw [under?, hlayer]
  exact hg.handedOut ticket _ e hlayer he

theorem Sound.under?_lt (hg : g.Sound l) {n j : Nat} (h : g.under? n = some j) :
    j < n ∧ n < g.written.length := by
  obtain ⟨layer, hlayer, hj⟩ := Option.bind_eq_some_iff.mp h
  exact ⟨hg.under_lt n layer j hlayer hj, (List.getElem?_eq_some_iff.mp hlayer).1⟩

/-- What an operation brings has the number that it says. -/
theorem Sound.stands_brought (hg : g.Sound l) {e : Entry} (h : l.Brings id op e) :
    (g.step l op).Stands (g.brought op) e := by
  cases h with
  | server ho => exact ho
  | guessed he =>
    refine ⟨rfl, ⟨_, g.shown id⟩, ?_, rfl⟩
    rw [written_step_guess he]
    exact List.getElem?_concat_length
  | putBack he => exact (hg.stands_under? he).append l _

theorem Sound.step (hg : g.Sound l) (hl : l.Sound) (op : Op) : (g.step l op).Sound (l.step op) where
  length := hg.length_step op
  shown id e he := by
    by_cases hr : l.replaced op = some id
    · obtain ⟨e', he', hbrings⟩ := hl.brings hr
      obtain rfl := Option.some.inj (he'.symm.trans he)
      rw [show (g.step l op).shown id = g.brought op from if_pos hr]
      exact hg.stands_brought hbrings
    · rw [show (g.step l op).shown id = g.shown id from if_neg hr]
      cases ho : e.isOptimistic with
      | true =>
        have hsame := leavesGuesses_step l op id e hr he ho
        exact (hg.shown id e hsame).append l op
      | false =>
        obtain ⟨e', he', hsame⟩ := Entry.agree_some_left.mp (he ▸ (hl.agree_current? hr).symm)
        rw [(hg.shown id e' he').eq_none (hsame.isOptimistic ▸ ho)]
        exact ho
  shown_lt id n hn := by
    have hgrows : g.written.length ≤ (g.step l op).written.length := by
      rw [Layers.step, List.length_append]
      exact Nat.le_add_right ..
    by_cases hr : l.replaced op = some id
    · rw [show (g.step l op).shown id = g.brought op from if_pos hr] at hn
      obtain ⟨e, -, hbrings⟩ := hl.brings hr
      cases hbrings with
      | server => nomatch hn
      | guessed he =>
        obtain rfl := Option.some.inj hn
        rw [written_step_guess he, List.length_append]
        exact Nat.lt_succ_self _
      | putBack =>
        obtain ⟨hlt, hlen⟩ := hg.under?_lt hn
        exact Nat.lt_of_lt_of_le (Nat.lt_trans hlt hlen) hgrows
    · rw [show (g.step l op).shown id = g.shown id from if_neg hr] at hn
      exact Nat.lt_of_lt_of_le (hg.shown_lt id n hn) hgrows
  handedOut n layer e hlayer he := by
    rcases written_step_cases hlayer with hold | ⟨rfl, id, edit, now, e', rfl, he', rfl⟩
    · have hlt : n < l.handedOut.length := hg.length ▸ (List.getElem?_eq_some_iff.mp hold).1
      refine (hg.handedOut n layer e hold ?_).append l op
      cases op with
      | background | clearPending => exact he
      | takeBack ticket => rwa [handedOut_takeBack] at he
      | guess => rwa [handedOut_guess, List.getElem?_append_left hlt] at he
    · rw [handedOut_guess, hg.length, he', Option.toList, List.getElem?_concat_length] at he
      obtain rfl := Option.some.inj he
      exact (hg.shown id e' he').append l _
  under_lt n layer j hlayer hj := by
    rcases written_step_cases hlayer with hold | ⟨rfl, id, edit, now, e, -, -, rfl⟩
    · exact hg.under_lt n layer j hold hj
    · exact hg.shown_lt id j hj

end Layers

/-- A run with its layers. -/
def layered (ops : List Op) : Ledger × Layers :=
  ops.foldl (fun p op => (p.1.step op, p.2.step p.1 op)) (start, .empty)

/-- **The layers of a run.** -/
def layers (ops : List Op) : Layers := (layered ops).2

theorem layered_fst (ops : List Op) : (layered ops).1 = run ops := by
  induction ops using List.reverseRecOn with
  | nil => rfl
  | append_singleton ops op ih =>
    rw [run_concat, ← ih, layered, List.foldl_append]
    rfl

theorem layers_concat (ops : List Op) (op : Op) :
    layers (ops ++ [op]) = (layers ops).step (run ops) op := by
  rw [← layered_fst, layers, layered, List.foldl_append]
  rfl

theorem sound_layers (ops : List Op) : (layers ops).Sound (run ops) := by
  induction ops using List.reverseRecOn with
  | nil => exact Layers.sound_empty
  | append_singleton ops op ih =>
    rw [layers_concat, run_concat]
    exact ih.step (sound_run ops) op

/-! ### What stays discarded -/

namespace Layers

variable {g : Layers} {n : Nat} {x : Option Nat}

/-- **The entry that is put back was under the guess that is shown**, or came
from the server. -/
def TakesShown (g : Layers) (l : Ledger) (id : EntityId) (ticket : Nat) : Prop :=
  l.replaced (.takeBack ticket) = some id → g.under? ticket = none ∨ g.shown id = some ticket

/-- **A guess is not discarded** if it is one of those that come after the first
`n`, or is no later than the guess `x`. -/
def Spared (n : Nat) (x : Option Nat) (k : Nat) : Prop := n ≤ k ∨ ∃ j, x = some j ∧ k ≤ j

/-- **No discarded guess of an entity is shown, nor lies under a new one.** -/
structure Keeps (g : Layers) (id : EntityId) (n : Nat) (x : Option Nat) : Prop where
  shown : ∀ k, g.shown id = some k → Spared n x k
  under : ∀ (k : Nat) (layer : Layer) j, g.written[k]? = some layer → n ≤ k →
    layer.entry.entityId = id → layer.under = some j → Spared n x j

/-- At any time, the guesses that are later than the one that is shown are not
shown, and there are no new ones. -/
theorem keeps_self (g : Layers) (id : EntityId) : g.Keeps id g.written.length (g.shown id) where
  shown k hk := .inr ⟨k, hk, Nat.le_refl k⟩
  under _ _ _ hlayer hk _ _ :=
    absurd (List.getElem?_eq_some_iff.mp hlayer).1 (Nat.not_lt.mpr hk)

/-- What lies under the guess that is shown is not discarded. -/
theorem Keeps.under? (h : g.Keeps id n x) (hg : g.Sound l) (hl : l.Sound) {e : Entry}
    (he : l.cache.current? id = some e) {k j : Nat} (hk : g.shown id = some k)
    (hj : g.under? k = some j) : Spared n x j := by
  have hstands := hg.shown id e he
  rw [hk] at hstands
  obtain ⟨-, layer, hlayer, hentry⟩ := hstands
  obtain ⟨s, hs, rfl⟩ := Option.map_eq_some_iff.mp he
  rcases h.shown k hk with hnew | ⟨i, hi, hle⟩
  · refine h.under k layer j hlayer hnew (hentry ▸ (hl.cache id s hs).current_entityId) ?_
    rwa [Layers.under?, hlayer] at hj
  · exact .inr ⟨i, hi, Nat.le_of_lt (Nat.lt_of_lt_of_le (hg.under?_lt hj).1 hle)⟩

theorem Keeps.step (h : g.Keeps id n x) (hg : g.Sound l) (hl : l.Sound)
    (hn : n ≤ g.written.length) (htakes : ∀ ticket, op = .takeBack ticket →
      g.TakesShown l id ticket) : (g.step l op).Keeps id n x where
  shown k hk := by
    by_cases hr : l.replaced op = some id
    · rw [show (g.step l op).shown id = g.brought op from if_pos hr] at hk
      cases op with
      | background | clearPending => nomatch hk
      | guess =>
        obtain rfl := Option.some.inj hk
        exact .inl hn
      | takeBack ticket =>
        rcases htakes ticket rfl hr with hserver | hshown
        · exact absurd (hk.symm.trans hserver) nofun
        · obtain ⟨e, he⟩ := exists_current?_of_takeBack hr
          exact h.under? hg hl he hshown hk
    · rw [show (g.step l op).shown id = g.shown id from if_neg hr] at hk
      exact h.shown k hk
  under k layer j hlayer hk hid hj := by
    rcases written_step_cases hlayer with hold | ⟨rfl, i, edit, now, e, rfl, he, rfl⟩
    · exact h.under k layer j hold hk hid hj
    · obtain ⟨s, hs, rfl⟩ := Option.map_eq_some_iff.mp he
      have hi : i = id := (hl.cache i s hs).current_entityId.symm.trans hid
      exact h.shown j (hi ▸ hj)

end Layers

/-- **A discarded guess stays discarded**, if no entry is put back with the
ticket of a guess that is not shown. An operation of a run puts an entry back, as
a rollback or a watchdog does, or replaces it by a new one. Then no guess that was
written after that entry is ever shown again, as long as each later rollback
that puts back a guess does so while the guess on top of it is the one that is
shown. What else happens in between does not matter. -/
theorem discarded_guess_stays_discarded (before : List Op) (op : Op) (later : List Op)
    (id : EntityId) (hop : (run before).replaced op = some id)
    (hlater : ∀ early ticket rest, later = early ++ .takeBack ticket :: rest →
      (layers (before ++ op :: early)).TakesShown (run (before ++ op :: early)) id ticket) :
    let after := before ++ [op]
    let all := before ++ op :: later
    (∃ e, (run after).cache.current? id = some e
        ∧ (layers after).Stands ((layers after).shown id) e)
      ∧ (∀ e, (run all).cache.current? id = some e → (layers all).Stands ((layers all).shown id) e)
      ∧ ∀ k < (layers after).written.length, (∀ j, (layers after).shown id = some j → j < k) →
          (layers all).shown id ≠ some k := by
  intro after all
  have hkeeps : (layers after).written.length ≤ (layers all).written.length ∧ (layers all).Keeps id
      (layers after).written.length ((layers after).shown id) := by
    induction later using List.reverseRecOn with
    | nil => exact ⟨Nat.le_refl _, (layers after).keeps_self id⟩
    | append_singleton later next ih =>
      obtain ⟨hle, hkeeps⟩ := ih fun early ticket rest hsplit =>
        hlater early ticket (rest ++ [next]) (by rw [hsplit, List.append_assoc, List.cons_append])
      have hall : all = (before ++ op :: later) ++ [next] := by
        rw [List.append_assoc, List.cons_append]
      rw [hall, layers_concat (before ++ op :: later)]
      refine ⟨Nat.le_trans hle ?_, ?_⟩
      · rw [Layers.step, List.length_append]
        exact Nat.le_add_right ..
      · refine hkeeps.step (sound_layers _) (sound_run _) hle ?_
        rintro ticket rfl
        exact hlater later ticket [] rfl
  refine ⟨?_, (sound_layers all).shown id, fun k hk hlt hshown => ?_⟩
  · obtain ⟨e, he, -⟩ := (sound_run before).brings hop
    rw [← run_concat] at he
    exact ⟨e, he, (sound_layers after).shown id e he⟩
  · rcases hkeeps.2.shown k hshown with hnew | ⟨j, hj, hle⟩
    · exact Nat.not_lt.mpr hnew hk
    · exact Nat.not_lt.mpr hle (hlt j hj)

/-- Three guesses on top of each other. The first is uncovered, a fourth is
written and taken back, and the first one too. -/
theorem discarded_guess_stays_discarded_fourth :
    let before : List Op :=
      [.background (.push 7 5 (.str "server") ⟨0, 0⟩), .guess 7 (fun _ => .str "first") ⟨1, 0⟩,
        .guess 7 (fun _ => .str "second") ⟨2, 0⟩, .guess 7 (fun _ => .str "third") ⟨3, 0⟩]
    let later : List Op :=
      [.guess 7 (fun _ => .str "fourth") ⟨4, 0⟩, .takeBack 3, .takeBack 0]
    (run before).replaced (.takeBack 1) = some 7
      ∧ (layers (before ++ [.takeBack 1])).shown 7 = some 0
      ∧ (layers (before ++ .takeBack 1 :: later)).shown 7 ≠ some 1
      ∧ (layers (before ++ .takeBack 1 :: later)).shown 7 ≠ some 2 := by
  intro before later
  have hop : (run before).replaced (.takeBack 1) = some 7 := rfl
  have hshown : (layers (before ++ [.takeBack 1])).shown 7 = some 0 := rfl
  have hlen : (layers (before ++ [.takeBack 1])).written.length = 3 := rfl
  have hlater : ∀ early ticket rest, later = early ++ .takeBack ticket :: rest →
      (layers (before ++ .takeBack 1 :: early)).TakesShown
        (run (before ++ .takeBack 1 :: early)) 7 ticket := by
    intro early ticket rest hsplit
    dsimp only [later] at hsplit
    rcases early with _ | ⟨_, _ | ⟨_, _ | ⟨_, early⟩⟩⟩
    · cases hsplit
    · cases hsplit
      exact fun _ => .inr rfl
    · cases hsplit
      exact fun _ => .inl rfl
    · simp at hsplit
  obtain ⟨-, -, hnever⟩ := discarded_guess_stays_discarded before (.takeBack 1) later 7 hop hlater
  rw [hshown, hlen] at hnever
  have hlt (k : Nat) (hk : 0 < k) : ∀ j, some 0 = some j → j < k := by
    rintro _ ⟨⟩
    exact hk
  exact ⟨hop, hshown, hnever 1 (by decide) (hlt 1 (by decide)),
    hnever 2 (by decide) (hlt 2 (by decide))⟩

/-- **A discarded guess comes back.** Three guesses are written on top of each
other, and the first is uncovered. The entry under the third guess is put back
all the same, although the third guess is not shown any more: the first guess
rests on the same version. So the second guess is shown again. -/
theorem discarded_guess_comes_back :
    let first : List Op :=
      [.background (.push 7 5 (.str "server") ⟨0, 0⟩), .guess 7 (fun _ => .str "first") ⟨1, 0⟩]
    let second := first ++ [.guess 7 (fun _ => .str "second") ⟨2, 0⟩]
    let putBack := second ++ [.guess 7 (fun _ => .str "third") ⟨3, 0⟩, .takeBack 1]
    (run putBack).cache.current? 7 = (run first).cache.current? 7
      ∧ (run first).cache.current? 7 ≠ (run second).cache.current? 7
      ∧ (run (putBack ++ [.takeBack 2])).cache.current? 7 = (run second).cache.current? 7 := by
  refine ⟨rfl, ?_, rfl⟩
  decide

end Ledger

end LiveSync
