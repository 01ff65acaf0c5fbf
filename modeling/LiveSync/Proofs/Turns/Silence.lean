import LiveSync.Proofs.Turns.Edges

/-!
# Hints that are not announced

A hint is held back while a command is awaited, and otherwise it should be
held back only if the turn it speaks of is known already: because the last
state that was looked at shows it, or because a hint was announced since
(`Vigil.HasCause`).

That is so as soon as the viewer's seat is known. A look then decides anew
whose turn it is, and what was announced before it counts no longer. A look
by which the seat does not become known decides nothing. It is taken note of
– the version moves on – and yet the memory of an earlier hint stays, so that
one announced hint silences all later ones, whatever states come in between
(`Vigil.isTurn_iff_hinted`). A watch that is *started* at such a state forgets
what was known, and hints are announced again.
-/

namespace LiveSync

namespace Vigil

variable {seat : Option Seat} {moments : List Moment} {m : Moment} {v : Vigil}

/-- **The last state that was looked at shows the viewer's turn.** -/
def ShowsTurn (v : Vigil) : Prop :=
  ∃ before m rest, v.moments = before ++ m :: rest ∧ v.shows before m = some true
    ∧ ∀ r ∈ rest, r.seen = none

/-- **A hint was announced since the last look.** -/
def Hinted (v : Vigil) : Prop :=
  ∃ before m rest, v.moments = before ++ m :: rest ∧ .hint ∈ m.announced
    ∧ ∀ r ∈ rest, r.seen = none

/-- **There is a cause to hold a hint back**: the turn is known already. -/
def HasCause (v : Vigil) : Prop := v.ShowsTurn ∨ v.Hinted

/-- A cause comes with a moment, or lasts until the next look. -/
theorem hasCause_concat : HasCause ⟨seat, moments ++ [m]⟩
    ↔ shows ⟨seat, moments⟩ moments m = some true ∨ .hint ∈ m.announced
      ∨ m.seen = none ∧ HasCause ⟨seat, moments⟩ := by
  have hshows := exists_split_concat moments m
    (fun before p => shows ⟨seat, moments⟩ before p = some true) (·.seen = none)
  have hhinted := exists_split_concat moments m (fun _ p => .hint ∈ p.announced) (·.seen = none)
  constructor
  · rintro (h | h)
    · rcases hshows.mp h with h | ⟨hm, h⟩
      · exact .inl h
      · exact .inr (.inr ⟨hm, .inl h⟩)
    · rcases hhinted.mp h with h | ⟨hm, h⟩
      · exact .inr (.inl h)
      · exact .inr (.inr ⟨hm, .inr h⟩)
  · rintro (h | h | ⟨hm, h | h⟩)
    · exact .inl (hshows.mpr (.inl h))
    · exact .inr (hhinted.mpr (.inl h))
    · exact .inl (hshows.mpr (.inr ⟨hm, h⟩))
    · exact .inr (hhinted.mpr (.inr ⟨hm, h⟩))

/-- A look that shows nothing is one by which the seat does not become known. -/
theorem shows_eq_none_iff : v.shows moments m = none
    ↔ m.seen = none ∨ viewer v.seat (moments ++ [m]) = none := by
  unfold shows
  cases m.seen with
  | none => simp
  | some e => simp

/-- The seat stays known, and without a look it does not become known. -/
theorem viewer_concat_of_unseen (hm : m.seen = none) :
    viewer seat (moments ++ [m]) = viewer seat moments := by
  rw [viewer_append, viewer_singleton, hm]
  cases viewer seat moments <;> rfl

/-- **With a known seat, the turn is known for a cause.** -/
theorem isTurn_iff_hasCause (h : (viewer seat moments).isSome = true) :
    (after seat moments).isTurn = some true ↔ HasCause ⟨seat, moments⟩ := by
  induction moments using List.reverseRecOn with
  | nil =>
    refine ⟨nofun, ?_⟩
    rintro (⟨before, m, rest, hsplit, -⟩ | ⟨before, m, rest, hsplit, -⟩) <;>
      exact absurd hsplit.symm (List.append_ne_nil_of_right_ne_nil before (List.cons_ne_nil m rest))
  | append_singleton moments m ih =>
    have hstep := isTurn_after_concat ⟨seat, moments⟩ moments m
    dsimp only at hstep
    rw [hasCause_concat, hstep]
    by_cases hhint : .hint ∈ m.announced
    · simp [hhint]
    · cases hseen : m.seen with
      | none =>
        have hnone : shows ⟨seat, moments⟩ moments m = none := shows_eq_none_iff.mpr (.inl hseen)
        rw [viewer_concat_of_unseen hseen] at h
        simp [hhint, hnone, ih h]
      | some e =>
        -- the look has decided whose turn it is
        cases hshows : shows ⟨seat, moments⟩ moments m with
        | none =>
          rcases shows_eq_none_iff.mp hshows with hnone | hnone
          · exact absurd (hseen.symm.trans hnone) (Option.some_ne_none e)
          · exact absurd h (by rw [hnone]; exact Bool.false_ne_true)
        | some b => simp [hhint]

/-- **Without a seat, the turn is known once a hint was announced**, however
long ago. -/
theorem isTurn_iff_hinted (h : viewer seat moments = none) :
    (after seat moments).isTurn = some true ↔ ∃ m ∈ moments, .hint ∈ m.announced := by
  induction moments using List.reverseRecOn with
  | nil => exact ⟨nofun, nofun⟩
  | append_singleton moments m ih =>
    have hbefore : viewer seat moments = none := by
      rw [viewer_append] at h
      cases hv : viewer seat moments with
      | none => rfl
      | some s => rw [hv] at h; cases h
    have hnone : shows ⟨seat, moments⟩ moments m = none := shows_eq_none_iff.mpr (.inr h)
    have hstep := isTurn_after_concat ⟨seat, moments⟩ moments m
    dsimp only at hstep
    rw [hstep, hnone]
    by_cases hhint : .hint ∈ m.announced
    · simp [hhint]
    · simp [hhint, ih hbefore, or_and_right, exists_or]

end Vigil

namespace Lookout

variable {l : Lookout} {id : EntityId} {v : Vigil}

/-- **Whether a hint would be announced.** -/
def takesHint (l : Lookout) (id : EntityId) : Bool := (l.engine.onTurns (·.hint · id)).result

theorem takesHint_of_unwatched (hp : l.engine.cache.isPending id = false)
    (h : l.Keeps id none) : l.takesHint id = true :=
  congrArg Update.result (Turns.hint_of_unwatched hp h.watch?)

/-- What is not awaited is announced unless it is remembered. -/
theorem takesHint_eq_false_iff (hp : l.engine.cache.isPending id = false)
    (h : l.Keeps id (some v)) : l.takesHint id = false ↔ v.watch.isTurn = some true := by
  by_cases hknown : v.watch.isTurn = some true
  · have hhint : l.takesHint id = false :=
      congrArg Update.result (Turns.hint_of_known h.watch? hknown)
    exact ⟨fun _ => hknown, fun _ => hhint⟩
  · have hhint : l.takesHint id = true :=
      congrArg Update.result (Turns.hint_of_unknown hp h.watch? hknown)
    rw [hhint]
    exact ⟨nofun, fun hn => absurd hn hknown⟩

/-- **When a hint is swallowed** though no command is awaited. Of an entity that
is not watched none is. If the viewer's seat is known one is swallowed exactly
if there is a cause. While the seat is not known one is swallowed exactly if
one was announced before, at any time since the watch was started. -/
theorem hint_swallowed_iff (ops : List Op) (id : EntityId)
    (hp : (run ops).engine.cache.isPending id = false) :
    (vigil? id ops = none → (run ops).takesHint id = true)
    ∧ ∀ v, vigil? id ops = some v →
      ((Vigil.viewer v.seat v.moments).isSome = true →
        ((run ops).takesHint id = false ↔ v.HasCause))
      ∧ (Vigil.viewer v.seat v.moments = none →
        ((run ops).takesHint id = false ↔ ∃ m ∈ v.moments, .hint ∈ m.announced)) := by
  have hkeeps := keeps_run id ops
  refine ⟨fun hv => takesHint_of_unwatched hp (hv ▸ hkeeps), fun v hv => ?_⟩
  have hfalse := takesHint_eq_false_iff hp (hv ▸ hkeeps)
  exact ⟨fun hseat => hfalse.trans (Vigil.isTurn_iff_hasCause hseat),
    fun hseat => hfalse.trans (Vigil.isTurn_iff_hinted hseat)⟩

/-- The state that the watch is started at shows the turn. -/
theorem hint_swallowed_iff_turn_shown :
    let ops : List Op := [.trick 1 2, .subscribe 7 none]
    let v : Vigil := ⟨none, [⟨some (.trick 1 2), []⟩]⟩
    (run ops).engine.cache.isPending 7 = false ∧ vigil? 7 ops = some v
      ∧ ((run ops).takesHint 7 = false ↔ v.HasCause) := by
  intro ops v
  have hp : (run ops).engine.cache.isPending 7 = false := rfl
  have hv : vigil? 7 ops = some v := rfl
  exact ⟨hp, hv, ((hint_swallowed_iff ops 7 hp).2 v hv).1 (by decide)⟩

end Lookout

/-- A trick in which a seat is to act, as somebody without a seat sees it. -/
def Game.trickInPublic (toAct : Seat) : Json :=
  .obj [("game", .obj [("phase", .obj [("phase", .str Phase.trick.name),
      ("data", .obj [("to_act", .int toAct.toNat)])])]),
    ("viewer", .null)]

namespace Lookout

/-- **A hint is swallowed without cause.** The viewer's seat is not known. A
hint is announced, the watch looks at version 2, by which it cannot tell whose
turn it is, and the next hint is held back. -/
theorem hint_swallowed_without_cause :
    let shown (version : Version) : Op :=
      .cache (.background (.push 7 version (Game.trickInPublic 1) ⟨0, 0⟩))
    let ops : List Op := [shown 1, .subscribe 7 none, .hint 7, shown 2, .observe 7]
    (run ops).engine.cache.isPending 7 = false ∧ (run ops).takesHint 7 = false
      ∧ ∃ v, vigil? 7 ops = some v ∧ ¬ v.HasCause := by
  intro shown ops
  let look (version : Version) : Vigil.Moment :=
    ⟨some (.push 7 version (Game.trickInPublic 1) ⟨0, 0⟩), []⟩
  have hv : vigil? 7 ops = some ⟨none, [look 1, ⟨none, [.hint]⟩, ⟨none, []⟩] ++ [look 2]⟩ := rfl
  refine ⟨rfl, by decide, _, hv, fun hcause => ?_⟩
  rcases Vigil.hasCause_concat.mp hcause with h | h | ⟨h, -⟩
  · exact absurd h (by decide)
  · exact absurd h (by decide)
  · nomatch h

end Lookout

end LiveSync
