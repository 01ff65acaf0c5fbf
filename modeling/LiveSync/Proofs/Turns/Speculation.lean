import LiveSync.Proofs.Turns.Run
import LiveSync.Proofs.Turns.Sentry

/-!
# Guesses do not move the turn

A guess shows what a command will presumably lead to, and that may well be that
it is somebody else's turn. Nobody is told so. A run in which guesses are written,
taken back and discarded announces the turns that it announces without them, at
the same looks, and every watch remembers the same after every step
(`Sentry.guesses_do_not_move_turns`).

The watch reads the server's entries only, but this alone does not settle it: a
guess that is taken back writes the server's entry too, and what the server sends
is compared with what is shown. The two runs are therefore held **beside** each
other (`Sentry.Beside`): their caches may show different things, and agree on the
server's entries up to their time, which no watch looks at.

The server's hints are left out. A hint is passed over while a command is
awaited, and commands are what guesses are written for.
-/

namespace LiveSync

/-! ### The time of an entry does not matter -/

open Entry (Agree)

theorem TurnWatch.seeded_congr {a b : Option Entry} (h : Agree a b) (seat : Option Seat) :
    seeded seat a = seeded seat b := by
  cases h with
  | none => rfl
  | some h =>
    obtain ⟨now, rfl⟩ := Entry.same_iff.mp h
    rfl

theorem Turns.watch_congr {c c' : Cache} {id : EntityId}
    (h : Agree (c.authoritative? id) (c'.authoritative? id)) (t : Turns) (seat : Option Seat) :
    t.watch c id seat = t.watch c' id seat := by
  rw [watch, TurnWatch.seeded_congr h]
  rfl

theorem Turns.observe_congr {c c' : Cache} {id : EntityId}
    (h : Agree (c.authoritative? id) (c'.authoritative? id)) (t : Turns) :
    t.observe c id = t.observe c' id := by
  unfold observe
  generalize c.authoritative? id = a at h
  generalize c'.authoritative? id = b at h
  cases h with
  | none => rfl
  | some h =>
    obtain ⟨now, rfl⟩ := Entry.same_iff.mp h
    cases t.watches.get? id <;> rfl

/-- **The same operation keeps two caches in agreement**, whatever they show. -/
theorem Ledger.Sound.agree_step {l l' : Ledger} (h : l.Sound) (h' : l'.Sound)
    (hagree : ∀ id, Agree (l.cache.authoritative? id) (l'.cache.authoritative? id))
    (op : Cache.Op) (id : EntityId) :
    Agree ((l.step op).cache.authoritative? id) ((l'.step op).cache.authoritative? id) := by
  cases hop : op.offer? with
  | none =>
    exact ((h.quiet_step hop id).symm.trans (hagree id)).trans (h'.quiet_step hop id)
  | some e =>
    rw [Ledger.step_of_offer? hop, Ledger.step_of_offer? hop, h.cache.authoritative?_apply,
      h'.cache.authoritative?_apply]
    split
    · exact .some ((hagree id).adopt e)
    · exact hagree id

namespace Sentry

/-! ### Two sentries of which one does not guess -/

/-- **Whether an operation belongs to a guess**: it writes one, takes one back or
discards one. -/
def Op.isSpeculative : Op → Bool
  | .cache (.guess _ _ _) | .cache (.takeBack _) | .cache (.background (.revert _ _)) => true
  | .cache (.background (.push _ _ _ _)) | .cache (.background (.fetched _ _ _ _ _))
  | .cache (.background (.notModified _ _)) | .cache (.clearPending _)
  | .watch _ _ | .unwatch _ | .observe _ | .hint _ => false

/-- A run without its guesses. -/
def withoutGuesses (ops : List Op) : List Op := ops.filter fun op => !op.isSpeculative

/-- **Two sentries that know the same of the server**, and whose watches remember
the same. -/
structure Beside (s s' : Sentry) : Prop where
  sound : s.ledger.Sound
  sound' : s'.ledger.Sound
  authoritative : ∀ id, Agree (s.authoritative? id) (s'.authoritative? id)
  turns : s.turns = s'.turns

variable {s s' : Sentry} {op : Op}

theorem beside_start : start.Beside start :=
  ⟨Ledger.sound_start, Ledger.sound_start, fun _ => .refl _, rfl⟩

/-- What belongs to a guess is not seen by the watch. -/
theorem Beside.speculative (h : s.Beside s') (hop : op.isSpeculative = true) :
    (s.perform op).state.Beside s'
      ∧ (s.perform op).result = none ∧ (s.perform op).events.filter Event.isTurn = [] := by
  obtain ⟨cop, rfl, hoffer⟩ : ∃ cop, op = .cache cop ∧ cop.offer? = none := by
    cases op with
    | cache cop =>
      refine ⟨cop, rfl, ?_⟩
      cases cop with
      | background b =>
        cases b with
        | revert => rfl
        | push | fetched | notModified => cases hop
      | guess | takeBack => rfl
      | clearPending => cases hop
    | watch | unwatch | observe | hint => cases hop
  refine ⟨⟨(h.sound.step cop).1, h.sound', fun id => ?_, h.turns⟩, rfl,
    s.ledger.filter_isTurn_told cop⟩
  exact (h.sound.quiet_step hoffer id).symm.trans (h.authoritative id)

/-- **One operation for both**, which has the same answer and announces the same
turns. -/
theorem Beside.perform (h : s.Beside s') (hop : ∀ id, op ≠ .hint id) :
    (s.perform op).state.Beside (s'.perform op).state
      ∧ (s.perform op).result = (s'.perform op).result
      ∧ (s.perform op).events.filter Event.isTurn
          = (s'.perform op).events.filter Event.isTurn := by
  -- an operation that leaves the caches alone keeps them in agreement
  have hstay {t t' : Turns} (ht : t = t') :
      Beside { s with turns := t } { s' with turns := t' } :=
    ⟨h.sound, h.sound', h.authoritative, ht⟩
  cases op with
  | cache op =>
    refine ⟨⟨(h.sound.step op).1, (h.sound'.step op).1, ?_, h.turns⟩, rfl, ?_⟩
    · exact h.sound.agree_step h.sound' h.authoritative op
    · show (s.ledger.told op).filter _ = (s'.ledger.told op).filter _
      rw [Ledger.filter_isTurn_told, Ledger.filter_isTurn_told]
  | watch id seat =>
    refine ⟨hstay ?_, rfl, rfl⟩
    rw [← h.turns]
    exact s.turns.watch_congr (h.authoritative id) seat
  | unwatch id => exact ⟨hstay (congrArg (Turns.unwatch · id) h.turns), rfl, rfl⟩
  | observe id =>
    have hlook : s.turns.observe s.ledger.cache id = s'.turns.observe s'.ledger.cache id := by
      rw [← h.turns]
      exact s.turns.observe_congr (h.authoritative id)
    refine ⟨hstay (congrArg (fun u : Update Turns Bool => u.state) hlook), ?_, ?_⟩
    · exact congrArg (fun u : Update Turns Bool => some u.result) hlook
    · exact congrArg (fun u : Update Turns Bool => u.events.filter Event.isTurn) hlook
  | hint id => exact absurd rfl (hop id)

/-- **A run and the run without its guesses** stay beside each other. -/
theorem beside_run {ops : List Op} (hops : ∀ id, .hint id ∉ ops) :
    (run ops).state.Beside (run (withoutGuesses ops)).state
      ∧ (run ops).result = (run (withoutGuesses ops)).result
      ∧ (run ops).events.filter Event.isTurn
          = (run (withoutGuesses ops)).events.filter Event.isTurn := by
  induction ops using List.reverseRecOn with
  | nil => exact ⟨beside_start, rfl, rfl⟩
  | append_singleton ops op ih =>
    obtain ⟨hbeside, hresult, hturns⟩ :=
      ih fun id hmem => hops id (List.mem_append_left _ hmem)
    rw [withoutGuesses, List.filter_append, ← withoutGuesses]
    cases hop : op.isSpeculative with
    | true =>
      obtain ⟨hafter, hanswer, hsilent⟩ := hbeside.speculative hop
      have hnil : [op].filter (fun op => !op.isSpeculative) = [] := by simp [hop]
      rw [hnil, List.append_nil, state_run_concat, result_run_concat, events_run_concat]
      refine ⟨hafter, ?_, ?_⟩
      · rw [hanswer, hresult]
        exact List.append_nil _
      · rw [List.filter_append, hsilent, hturns, List.append_nil]
    | false =>
      obtain ⟨hafter, hanswer, hsame⟩ := hbeside.perform fun id (hid : op = .hint id) =>
        hops id (hid ▸ List.mem_append_right _ (List.mem_singleton_self _))
      have hone : [op].filter (fun op => !op.isSpeculative) = [op] := by simp [hop]
      rw [hone]
      simp only [state_run_concat, result_run_concat, events_run_concat, List.filter_append]
      exact ⟨hafter, by rw [hanswer, hresult], by rw [hsame, hturns]⟩

/-- **Guesses do not move the turn.** Without hints, a run and the run without its
guesses have the same watches after every step, the same answers to all looks, and
announce the same turns. -/
theorem guesses_do_not_move_turns {ops : List Op} (hops : ∀ id, .hint id ∉ ops) :
    (∀ before rest, ops = before ++ rest →
        (run before).state.turns = (run (withoutGuesses before)).state.turns)
      ∧ (run ops).result = (run (withoutGuesses ops)).result
      ∧ (run ops).events.filter Event.isTurn
          = (run (withoutGuesses ops)).events.filter Event.isTurn := by
  refine ⟨fun before rest hsplit => ?_, (beside_run hops).2⟩
  have hbefore : ∀ id, .hint id ∉ before := fun id hmem =>
    hops id (hsplit ▸ List.mem_append_left _ hmem)
  exact (beside_run hbefore).1.turns

/-- A state of entity 7, as seat 2 sees it, comes in. -/
def Op.trick (version : Version) (toAct : Seat) : Op :=
  .cache (.background (.push 7 version (Game.trick toAct 2) ⟨0, 0⟩))

/-- The turn is guessed and not announced, comes, and is guessed away. -/
theorem guesses_do_not_move_turns_guessed :
    let guess (toAct : Seat) : Op := .cache (.guess 7 (fun _ => Game.trick toAct 2) ⟨1, 0⟩)
    let ops : List Op := [.trick 1 1, .watch 7 none, guess 2, .observe 7, guess 1,
      .cache (.takeBack 0), .trick 2 2, .observe 7, guess 1, .observe 7,
      .cache (.background (.revert 7 2)), .observe 7]
    withoutGuesses ops = [.trick 1 1, .watch 7 none, .observe 7, .trick 2 2, .observe 7,
        .observe 7, .observe 7]
      ∧ (run ops).result = [false, true, false, false]
      ∧ (run ops).result = (run (withoutGuesses ops)).result
      ∧ (run (withoutGuesses ops)).events.filter Event.isTurn = [.turnStarted 7 .snapshot] := by
  intro guess ops
  have hops : ∀ id, .hint id ∉ ops := fun id h => by simp [ops, guess, Op.trick] at h
  obtain ⟨-, hresult, hturns⟩ := guesses_do_not_move_turns hops
  exact ⟨rfl, by decide, hresult, hturns ▸ by decide⟩

end Sentry

end LiveSync
