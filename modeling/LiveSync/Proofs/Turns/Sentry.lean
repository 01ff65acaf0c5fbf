import LiveSync.Engine.Turns
import LiveSync.Proofs.Cache.Told

/-!
# The watch for turns by itself

Subscriptions start watches and end them, but the watch for turns does not know
of subscriptions: anybody may start a watch, start it anew or end it, and may
make it look or hand it a hint. A **sentry** is a cache with the watch for its
turns, and nothing else, and a run is a list of such calls in any order.

A look concerns one entity only, and what it does to the watch of that entity is
a function of the watch and of the server's latest entry (`TurnWatch.look`).
Looking twice is the same as looking once, so several looks in a row can be
given in any order (`Turns.get?_observeAll`).
-/

namespace LiveSync

/-! ### Looks -/

namespace TurnWatch

variable {w : TurnWatch} {a : Option Entry} {e : Entry}

/-- **A watch after a look** at the server's latest entry. -/
def look (a : Option Entry) (w : TurnWatch) : TurnWatch := (a.filter w.isNews).elim w w.after

@[simp] theorem look_none (w : TurnWatch) : w.look none = w := rfl

theorem look_of_news (h : w.isNews e = true) : w.look (some e) = w.after e := by
  rw [look, Option.filter_some, if_pos h]
  rfl

theorem look_of_no_news (h : w.isNews e = false) : w.look (some e) = w := by
  rw [look, Option.filter_some, h]
  rfl

/-- What was looked at is no longer news. -/
theorem isNews_after (w : TurnWatch) (e : Entry) : (w.after e).isNews e = false :=
  decide_eq_false Int64.lt_irrefl

/-- **A second look** finds nothing new. -/
theorem look_look (a : Option Entry) (w : TurnWatch) : (w.look a).look a = w.look a := by
  cases a with
  | none => rfl
  | some e =>
    cases hn : w.isNews e with
    | true => rw [look_of_news hn, look_of_no_news (isNews_after w e)]
    | false => rw [look_of_no_news hn, look_of_no_news hn]

end TurnWatch

namespace Turns

variable {t : Turns} {cache : Cache} {id j : EntityId}

/-- **What a look does to the watches.** -/
theorem get?_observe (t : Turns) (cache : Cache) (id j : EntityId) :
    (t.observe cache id).state.watches.get? j
      = if id = j then (t.watches.get? j).map (·.look (cache.authoritative? j))
        else t.watches.get? j := by
  by_cases hj : id = j
  · subst hj
    rw [if_pos rfl, observe]
    cases he : cache.authoritative? id with
    | none => cases hw : t.watches.get? id <;> simpa [Update.silent] using hw
    | some e =>
      cases hw : t.watches.get? id with
      | none => simpa [Update.silent] using hw
      | some w =>
        dsimp only [Option.map_some]
        cases hn : w.isNews e with
        | true =>
          rw [if_pos rfl, TurnWatch.look_of_news hn]
          exact Table.get?_insert_self _ _ _
        | false =>
          rw [if_neg Bool.false_ne_true, TurnWatch.look_of_no_news hn]
          exact hw
  · rw [if_neg hj, observe]
    split
    · split
      · exact Table.get?_insert_of_ne _ _ hj
      · rfl
    · rfl

theorem state_observeAll_cons (t : Turns) (cache : Cache) (id : EntityId) (ids : List EntityId) :
    (t.observeAll cache (id :: ids)).state
      = ((t.observe cache id).state.observeAll cache ids).state := by
  have hfold (ids : List EntityId) (u v : Update Turns Unit) (huv : u.state = v.state) :
      (ids.foldl (fun u id => u.andThen fun t _ => (t.observe cache id).answer fun _ => ()) u).state
        = (ids.foldl (fun u id => u.andThen fun t _ => (t.observe cache id).answer fun _ => ())
            v).state := by
    induction ids generalizing u v with
    | nil => exact huv
    | cons id ids ih => exact ih _ _ (by simp [Update.andThen, Update.answer, huv])
  exact hfold ids _ _ rfl

/-- **What several looks do to the watches.** -/
theorem get?_observeAll (t : Turns) (cache : Cache) (ids : List EntityId) (j : EntityId) :
    (t.observeAll cache ids).state.watches.get? j
      = if j ∈ ids then (t.watches.get? j).map (·.look (cache.authoritative? j))
        else t.watches.get? j := by
  induction ids generalizing t with
  | nil => rfl
  | cons id ids ih =>
    rw [state_observeAll_cons, ih, get?_observe]
    by_cases hid : id = j
    · -- what the rest of the looks finds has been looked at
      rw [if_pos hid, if_pos (List.mem_cons.mpr (.inl hid.symm)), Option.map_map]
      split
      · exact congrArg (Option.map · _) (funext fun w => w.look_look _)
      · rfl
    · rw [if_neg hid]
      simp only [List.mem_cons, Ne.symm hid, false_or]

end Turns

/-! ### Runs -/

/-- **A cache and the watch for its turns.** -/
structure Sentry where
  /-- The cache, and what it has handed out. -/
  ledger : Ledger
  turns : Turns

namespace Sentry

/-- **What can be done to a sentry.** -/
inductive Op where
  /-- Something happens to the cache. -/
  | cache (op : Cache.Op)
  /-- A watch is started, or started anew. -/
  | watch (id : EntityId) (seat : Option Seat)
  /-- A watch is ended. -/
  | unwatch (id : EntityId)
  /-- The watch looks at the server's latest entry. -/
  | observe (id : EntityId)
  /-- The server hints at a turn. -/
  | hint (id : EntityId)

/-- Nothing is known, and nothing is watched. -/
def start : Sentry := ⟨.start, .empty⟩

/-- The server's latest entry of an entity. -/
def authoritative? (s : Sentry) (id : EntityId) : Option Entry :=
  s.ledger.cache.authoritative? id

/-- What is remembered of a watched entity. -/
def watch? (s : Sentry) (id : EntityId) : Option TurnWatch := s.turns.watches.get? id

/-- An operation on the watches, whose answer is whether a turn was announced. -/
def onTurns (s : Sentry) (op : Turns → Cache → Update Turns Bool) : Update Sentry (Option Bool) :=
  ((op s.turns s.ledger.cache).answer some).within fun t => { s with turns := t }

/-- **One operation.** Looks and hints have an answer. -/
def perform (s : Sentry) : Op → Update Sentry (Option Bool)
  | .cache op => ⟨{ s with ledger := s.ledger.step op }, none, s.ledger.told op⟩
  | .watch id seat => .silent { s with turns := s.turns.watch s.ledger.cache id seat } none
  | .unwatch id => .silent { s with turns := s.turns.unwatch id } none
  | .observe id => s.onTurns (·.observe · id)
  | .hint id => s.onTurns (·.hint · id)

/-- **Several operations**, one after another, with all their answers and
events. -/
def performAll (s : Sentry) (ops : List Op) : Update Sentry (List Bool) :=
  ops.foldl (fun u op => u.andThen fun s answers =>
    (s.perform op).answer fun answer => answers ++ answer.toList) (.silent s [])

/-- **A run**, from the start. -/
def run (ops : List Op) : Update Sentry (List Bool) := start.performAll ops

theorem run_concat (ops : List Op) (op : Op) :
    run (ops ++ [op]) = (run ops).andThen fun s answers =>
      (s.perform op).answer fun answer => answers ++ answer.toList := by
  rw [run, performAll, List.foldl_append]
  rfl

theorem state_run_concat (ops : List Op) (op : Op) :
    (run (ops ++ [op])).state = ((run ops).state.perform op).state := by
  rw [run_concat]
  rfl

theorem result_run_concat (ops : List Op) (op : Op) :
    (run (ops ++ [op])).result
      = (run ops).result ++ ((run ops).state.perform op).result.toList := by
  rw [run_concat]
  rfl

theorem events_run_concat (ops : List Op) (op : Op) :
    (run (ops ++ [op])).events = (run ops).events ++ ((run ops).state.perform op).events := by
  rw [run_concat]
  rfl

/-! ### The cache of a sentry

The watch does not touch the cache, so what is known of runs of the cache holds
here too. -/

variable {s : Sentry}

theorem ledger_perform (s : Sentry) (op : Op) :
    (s.perform op).state.ledger = match op with
      | .cache op => s.ledger.step op
      | .watch _ _ | .unwatch _ | .observe _ | .hint _ => s.ledger := by
  cases op <;> rfl

theorem sound_perform (h : s.ledger.Sound) (op : Op) :
    (s.perform op).state.ledger.Sound
      ∧ s.ledger.cache.Grows (s.perform op).state.ledger.cache := by
  rw [ledger_perform]
  cases op with
  | cache op => exact h.step op
  | watch | unwatch | observe | hint => exact ⟨h, (Cache.Quiet.refl _).grows⟩

theorem sound_run (ops : List Op) : (run ops).state.ledger.Sound := by
  induction ops using List.reverseRecOn with
  | nil => exact Ledger.sound_start
  | append_singleton ops op ih =>
    rw [state_run_concat]
    exact (sound_perform ih op).1

end Sentry

end LiveSync
