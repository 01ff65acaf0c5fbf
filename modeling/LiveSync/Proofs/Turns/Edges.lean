import LiveSync.Proofs.Turns.Memory

/-!
# Edges

A turn is announced once. By snapshots it is announced on an **edge**: at a
look that shows the viewer's turn, after one that showed that it was not,
with no hint between the two (`Vigil.Rises`). And whatever announces it,
snapshot or hint, nothing announces it again before a look has shown that it
is over (`Vigil.Alternates`).

Both are about the three-valued memory of whose turn it is. It is `some false`
exactly after a look that showed so (`Vigil.Sound.isTurn_eq_false_iff`), it is
`some true` after every announcement (`TurnWatch.Allows.of_announced`), and it
stops to be so only at a look that shows the opposite (`Vigil.turn_over`).
-/

namespace LiveSync

namespace TurnWatch

variable {w : TurnWatch} {e : Entry} {m : Vigil.Moment}

/-- A look is an edge if it shows the turn and the last one did not. -/
theorem isEdge_iff : w.isEdge e = true
    ↔ (w.seat <|> Game.viewerSeat? e.payload).map (Game.isTurnOf e.payload) = some true
      ∧ w.isTurn = some false := by
  unfold isEdge
  cases w.seat <|> Game.viewerSeat? e.payload with
  | none => simp
  | some s => simp

/-- **What is announced was not known before**, and is known then. -/
theorem Allows.of_announced (h : w.Allows m) (hm : m.announced ≠ []) :
    m.announced.length ≤ 1 ∧ w.isTurn ≠ some true ∧ (w.mark m).isTurn = some true := by
  cases h with
  | nothing => exact absurd rfl hm
  | hint unknown => exact ⟨Nat.le_refl 1, unknown, rfl⟩
  | look e news =>
    cases hedge : w.isEdge e with
    | false => rw [hedge] at hm; exact absurd rfl hm
    | true =>
      obtain ⟨hturn, hnot⟩ := isEdge_iff.mp hedge
      refine ⟨Nat.le_refl 1, by rw [hnot]; decide, ?_⟩
      show (w.after e).isTurn = some true
      rw [after, hturn]
      rfl

end TurnWatch

namespace Vigil

/-! ### Whose turn a vigil has shown -/

/-- **The last look showed that it was not the viewer's turn**, and no hint was
announced since. -/
def Resting (v : Vigil) : Prop :=
  ∃ before p rest, v.moments = before ++ p :: rest ∧ v.shows before p = some false
    ∧ ∀ r ∈ rest, r.seen = none ∧ .hint ∉ r.announced

/-- **A moment is an edge**: it shows the viewer's turn, after a look that did
not. -/
def Rises (v : Vigil) (m : Moment) : Prop :=
  v.shows v.moments m = some true ∧ v.Resting

/-- **No turn is announced twice**: a moment announces one at most, and between
two that do some look showed that it was not the viewer's turn. -/
def Alternates (v : Vigil) : Prop :=
  (∀ m ∈ v.moments, m.announced.length ≤ 1)
    ∧ ∀ before m between m' rest, v.moments = before ++ m :: between ++ m' :: rest →
        m.announced ≠ [] → m'.announced ≠ [] →
        ∃ pre n post, between = pre ++ n :: post
          ∧ v.shows (before ++ m :: pre) n = some false

variable {seat : Option Seat} {moments between : List Moment} {m : Moment} {e : Entry} {v : Vigil}

/-- The viewer is known by the first moment that names a seat. -/
theorem viewer_append (seat : Option Seat) (moments more : List Moment) :
    viewer seat (moments ++ more) = viewer (viewer seat moments) more := by
  simp only [viewer, List.findSome?_append]
  cases seat with
  | none => cases moments.findSome? _ <;> rfl
  | some s => rfl

theorem viewer_singleton (seat : Option Seat) (m : Moment) :
    viewer seat [m] = (seat <|> m.seen.bind fun e => Game.viewerSeat? e.payload) := by
  rw [viewer, List.findSome?_singleton]

/-- **A watch remembers the viewer's seat.** -/
theorem seat_after (seat : Option Seat) (moments : List Moment) :
    (after seat moments).seat = viewer seat moments := by
  induction moments using List.reverseRecOn with
  | nil => cases seat <;> rfl
  | append_singleton moments m ih =>
    have hmark (w : TurnWatch) : (w.mark m).seat = viewer w.seat [m] := by
      rw [viewer_singleton, TurnWatch.mark]
      cases m.seen with
      | none =>
        rw [Option.bind_none, Option.orElse_eq_orElse, Option.orElse_eq_or, Option.or_none]
        split <;> rfl
      | some e => split <;> rfl
    rw [after_concat, hmark, ih, viewer_append]

/-- What a look shows, by what is remembered. -/
theorem shows_eq (v : Vigil) (moments : List Moment) (m : Moment) :
    v.shows moments m = m.seen.bind fun e =>
      ((after v.seat moments).seat <|> Game.viewerSeat? e.payload).map
        (Game.isTurnOf e.payload) := by
  rw [shows, viewer_append, viewer_singleton, ← seat_after]
  cases m.seen <;> rfl

/-- **A watch remembers whose turn it was** at the last look that showed it,
unless a hint came later. -/
theorem isTurn_after_concat (v : Vigil) (moments : List Moment) (m : Moment) :
    (after v.seat (moments ++ [m])).isTurn
      = if .hint ∈ m.announced then some true
        else (v.shows moments m <|> (after v.seat moments).isTurn) := by
  rw [after_concat, TurnWatch.mark, shows_eq]
  split
  · rfl
  · cases m.seen <;> rfl

/-- Once the seat is known every look shows whose turn it is. -/
theorem seen_of_shows_none {before rest : List Moment} {p m : Moment} {b : Bool}
    (hp : v.shows before p = some b) (hm : v.shows (before ++ p :: rest) m = none) :
    m.seen = none := by
  obtain ⟨e, -, hseat⟩ := Option.bind_eq_some_iff.mp hp
  obtain ⟨s, hs, -⟩ := Option.map_eq_some_iff.mp hseat
  have hviewer : viewer v.seat (before ++ p :: rest ++ [m]) = some s := by
    have hsplit : before ++ p :: rest ++ [m] = (before ++ [p]) ++ (rest ++ [m]) := by simp
    rw [hsplit, viewer_append, hs]
    rfl
  rw [shows, hviewer] at hm
  cases hseen : m.seen with
  | none => rfl
  | some e => rw [hseen] at hm; cases hm

/-- A look is an edge if it shows the turn and the last one did not. -/
theorem isEdge_after (v : Vigil) (moments : List Moment) (e : Entry) (announced : List TurnSource) :
    (after v.seat moments).isEdge e = true
      ↔ v.shows moments ⟨some e, announced⟩ = some true
        ∧ (after v.seat moments).isTurn = some false := by
  rw [shows_eq, Option.bind_some, TurnWatch.isEdge_iff]

/-- **A turn is over only when a look has shown so.** -/
theorem turn_over {before : List Moment} (h : (after v.seat before).isTurn = some true)
    (hover : (after v.seat (before ++ between)).isTurn ≠ some true) :
    ∃ pre n post, between = pre ++ n :: post ∧ v.shows (before ++ pre) n = some false := by
  induction between using List.reverseRecOn with
  | nil => exact absurd h (List.append_nil before ▸ hover)
  | append_singleton between m ih =>
    by_cases hknown : (after v.seat (before ++ between)).isTurn = some true
    · refine ⟨between, m, [], rfl, ?_⟩
      rw [← List.append_assoc, isTurn_after_concat, hknown] at hover
      split at hover
      · exact absurd rfl hover
      · cases hshows : v.shows (before ++ between) m with
        | none => rw [hshows] at hover; exact absurd rfl hover
        | some b =>
          cases b with
          | false => rfl
          | true => rw [hshows] at hover; exact absurd rfl hover
    · obtain ⟨pre, n, post, rfl, hn⟩ := ih hknown
      exact ⟨pre, n, post ++ [m], List.append_assoc pre (n :: post) [m], hn⟩

theorem resting_concat : Resting ⟨seat, moments ++ [m]⟩
    ↔ shows ⟨seat, moments⟩ moments m = some false
      ∨ (m.seen = none ∧ .hint ∉ m.announced) ∧ Resting ⟨seat, moments⟩ :=
  exists_split_concat moments m (fun before p => shows ⟨seat, moments⟩ before p = some false)
    fun r => r.seen = none ∧ TurnSource.hint ∉ r.announced

/-- **It is known not to be the viewer's turn** exactly when the last look
showed so. -/
theorem Sound.isTurn_eq_false_iff (h : v.Sound) : v.watch.isTurn = some false ↔ v.Resting := by
  obtain ⟨seat, moments⟩ := v
  induction moments using List.reverseRecOn with
  | nil =>
    refine ⟨nofun, fun hresting => ?_⟩
    obtain ⟨before, p, rest, hsplit, -⟩ := hresting
    exact absurd hsplit.symm (List.append_ne_nil_of_right_ne_nil before (List.cons_ne_nil p rest))
  | append_singleton moments m ih =>
    obtain ⟨hbefore, hm⟩ := h.of_concat
    have ih : (after seat moments).isTurn = some false ↔ _ := ih hbefore
    have hstep := isTurn_after_concat ⟨seat, moments⟩ moments m
    rw [resting_concat, ← ih, watch]
    dsimp only at hstep ⊢
    rw [hstep]
    cases hm with
    | nothing => simp [shows]
    | hint unknown => simp [shows]
    | look e news =>
      have hsilent :
          .hint ∉ if (after seat moments).isEdge e then [TurnSource.snapshot] else [] := by
        split <;> simp
      rw [if_neg hsilent]
      cases hshows : shows ⟨seat, moments⟩ moments
          ⟨some e, if (after seat moments).isEdge e then [.snapshot] else []⟩ with
      | some b => simp
      | none =>
        -- the seat is not known, so nothing was shown before either
        have hunknown : (after seat moments).isTurn ≠ some false := by
          intro hfalse
          obtain ⟨before, p, rest, rfl, hp, -⟩ := ih.mp hfalse
          cases seen_of_shows_none hp hshows
        simp [hunknown]

/-- **Nothing is announced twice.** -/
theorem Sound.alternates (h : v.Sound) : v.Alternates := by
  refine ⟨fun m hm => ?_, fun before m between m' rest hsplit hann hann' => ?_⟩
  · obtain ⟨before, rest, hsplit⟩ := List.append_of_mem hm
    by_cases hann : m.announced = []
    · rw [hann]
      exact Nat.zero_le 1
    · exact ((h before m rest hsplit).of_announced hann).1
  · have hallowed := h before m (between ++ m' :: rest) (by simpa using hsplit)
    obtain ⟨-, -, hknown⟩ := hallowed.of_announced hann
    obtain ⟨-, hnot, -⟩ := (h (before ++ m :: between) m' rest hsplit).of_announced hann'
    rw [← after_concat] at hknown
    rw [List.append_cons] at hnot
    obtain ⟨pre, n, post, rfl, hn⟩ := turn_over hknown hnot
    refine ⟨pre, n, post, rfl, ?_⟩
    rwa [List.append_cons]

/-- **A look announces an edge**, and nothing else. -/
theorem Sound.isEdge_iff (h : v.Sound) (e : Entry) (announced : List TurnSource) :
    v.watch.isEdge e = true ↔ v.Rises ⟨some e, announced⟩ := by
  rw [Rises, ← h.isTurn_eq_false_iff]
  exact isEdge_after v v.moments e announced

end Vigil

namespace Lookout

/-- **A turn is announced once.** Between two announcements some look showed
that it was not the viewer's turn. And a look announces a turn exactly if it is
an edge; so the first look that finds a state is silent. -/
theorem turn_announced_once_per_edge {id : EntityId} {ops : List Op} {v : Vigil}
    (hv : vigil? id ops = some v) :
    v.Alternates
      ∧ (v.Rises ((run ops).moment v id (.observe id)) →
          (run ops).announced (.observe id) = [.turnStarted id .snapshot])
      ∧ (¬ v.Rises ((run ops).moment v id (.observe id)) →
          (run ops).announced (.observe id) = [])
      ∧ ((∀ m ∈ v.moments, m.seen = none) → (run ops).announced (.observe id) = []) := by
  have hkeeps : (run ops).Keeps id (some v) := hv ▸ keeps_run id ops
  have hsound := hkeeps.sound v rfl
  have hedge : (run ops).announced (.observe id) = [.turnStarted id .snapshot]
        ∧ v.Rises ((run ops).moment v id (.observe id))
      ∨ (run ops).announced (.observe id) = []
        ∧ ¬ v.Rises ((run ops).moment v id (.observe id)) := by
    cases hseen : (run ops).seen v id (.observe id) with
    | none =>
      refine .inr ⟨(hkeeps.observe_of_no_news hseen).1, fun hrises => ?_⟩
      rw [moment, hseen] at hrises
      cases hrises.1
    | some e =>
      obtain ⟨-, hannounced, hmoment, -⟩ := hkeeps.observe_of_news hseen
      rw [hannounced, hmoment, ← hsound.isEdge_iff]
      cases v.watch.isEdge e with
      | true => exact .inl ⟨rfl, rfl⟩
      | false => exact .inr ⟨rfl, Bool.false_ne_true⟩
  refine ⟨hsound.alternates, fun hrises => ?_, fun hnot => ?_, fun hunseen => ?_⟩
  · exact (hedge.resolve_right fun h => h.2 hrises).1
  · exact (hedge.resolve_left fun h => hnot h.2).1
  · refine (hedge.resolve_left fun hrises => ?_).1
    obtain ⟨-, -, before, p, rest, hsplit, hp, -⟩ := hrises
    rw [Vigil.shows, hunseen p (hsplit ▸ List.mem_append_right _ (List.mem_cons_self ..))] at hp
    cases hp

/-- The turn comes, passes, and comes again. -/
theorem turn_announced_once_per_edge_twice :
    let ops : List Op := [.trick 1 1, .subscribe 7 none, .trick 2 2, .observe 7, .trick 3 1,
      .observe 7, .trick 4 2]
    let v : Vigil := ⟨none, [⟨some (.trick 1 1), []⟩, ⟨none, []⟩, ⟨some (.trick 2 2), [.snapshot]⟩,
      ⟨none, []⟩, ⟨some (.trick 3 1), []⟩, ⟨none, []⟩]⟩
    vigil? 7 ops = some v ∧ v.Alternates
      ∧ (run ops).announced (.observe 7) = [.turnStarted 7 .snapshot] := by
  intro ops v
  have hv : vigil? 7 ops = some v := rfl
  have hrises : v.Rises ((run ops).moment v 7 (.observe 7)) := by
    refine ⟨by decide, v.moments.take 4, ⟨some (.trick 3 1), []⟩, [⟨none, []⟩], rfl, ?_, ?_⟩
    · decide
    · decide
  have honce := turn_announced_once_per_edge hv
  exact ⟨hv, honce.1, honce.2.1 hrises⟩

end Lookout

end LiveSync
