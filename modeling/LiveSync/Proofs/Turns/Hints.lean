import LiveSync.Proofs.Turns.Edges

/-!
# Hints

A hint of the server may come before the state that it speaks of, and that
state must not announce the same turn again. The watch therefore takes the
turn for known, and a look that shows the opposite is needed before anything
is announced again.

How new that look must be is what this module is about. It is never older
than what the server had sent when the hint came. If the watch had looked at
that already, the look is strictly newer, as it should be. But the watch may
lag behind the cache: a state from before the hint that is looked at after it
undoes the hint, and the turn is announced twice.
-/

namespace LiveSync

namespace Vigil

variable {v : Vigil} {a e : Entry}

/-- What is news when something else is not is newer than that. -/
theorem version_lt_of_isNews (ha : v.isNews a = false) (he : v.isNews e = true) :
    a.version < e.version := by
  obtain ⟨m, hm, hseen⟩ := List.all_eq_false.mp ha
  cases hp : m.seen with
  | none => exact absurd (by rw [hp]; rfl) hseen
  | some p =>
    have hpa : ¬ p.version < a.version := fun hlt =>
      hseen (by rw [hp]; exact decide_eq_true hlt)
    have hpe : p.version < e.version := by
      have hall := List.all_eq_true.mp he m hm
      rw [hp] at hall
      exact of_decide_eq_true hall
    exact Int64.lt_of_le_of_lt (Int64.not_lt.mp hpa) hpe

end Vigil

namespace Lookout

variable {l : Lookout} {id : EntityId} {ops more : List Op} {op : Op} {v : Option Vigil}
  {u u' : Vigil} {a e : Entry}

/-! ### A watch that is not started anew -/

/-- Only a subscription starts a watch. -/
theorem vigilAfter_eq_some (hop : ∀ seat, op ≠ .subscribe id seat)
    (h : l.vigilAfter id v op = some u') : ∃ u, v = some u ∧ u' = l.note id op u := by
  have hmap (h : v.map (l.note id op) = some u') : ∃ u, v = some u ∧ u' = l.note id op u := by
    obtain ⟨u, hu, rfl⟩ := Option.map_eq_some_iff.mp h
    exact ⟨u, hu, rfl⟩
  cases op with
  | cache | observe | hint => exact hmap h
  | subscribe j seat =>
    by_cases hj : j = id
    · exact absurd (hj ▸ rfl) (hop seat)
    · exact hmap (by rwa [vigilAfter, if_neg hj] at h)
  | release j =>
    rw [vigilAfter] at h
    split at h
    · cases h
    · exact hmap h

/-- What is looked at is the server's latest entry, and news. -/
theorem seen_eq_some (h : l.seen u id op = some e) :
    l.authoritative? id = some e ∧ u.isNews e = true := by
  cases op with
  | observe j =>
    rw [seen] at h
    split at h
    · exact Option.filter_eq_some_iff.mp h
    · cases h
  | cache | subscribe | release | hint => cases h

/-- Whatever happens, the server's entry is no older than it was. -/
theorem version_le_authoritative? (ha : (run ops).authoritative? id = some a) (more : List Op) :
    ∃ b, (run (ops ++ more)).authoritative? id = some b ∧ a.version ≤ b.version := by
  induction more using List.reverseRecOn with
  | nil => exact ⟨a, (List.append_nil ops).symm ▸ ha, Int64.le_refl _⟩
  | append_singleton more op ih =>
    obtain ⟨b, hb, hab⟩ := ih
    obtain ⟨c, hc, hbc⟩ := authoritative?_step (ops ++ more) op hb
    exact ⟨c, (List.append_assoc ops more [op]) ▸ hc, Int64.le_trans hab hbc.version_le⟩

/-- **A watch goes on** while nobody subscribes anew. What it looks at from
then on is news, and no older than the server's entry was. -/
theorem vigil?_append (hmore : ∀ seat, .subscribe id seat ∉ more)
    (h : vigil? id (ops ++ more) = some u') :
    ∃ u later, vigil? id ops = some u ∧ u' = ⟨u.seat, u.moments ++ later⟩
      ∧ ∀ m ∈ later, ∀ e, m.seen = some e → u.isNews e = true
        ∧ ∀ a, (run ops).authoritative? id = some a → a.version ≤ e.version := by
  induction more using List.reverseRecOn generalizing u' with
  | nil =>
    rw [List.append_nil] at h
    exact ⟨u', [], h, by rw [List.append_nil], nofun⟩
  | append_singleton more op ih =>
    rw [← List.append_assoc, vigil?_concat] at h
    obtain ⟨w, hw, rfl⟩ := vigilAfter_eq_some
      (fun seat hop => hmore seat (List.mem_append_right _ (hop ▸ List.mem_singleton_self _))) h
    obtain ⟨u, later, hu, rfl, hlater⟩ :=
      ih (fun seat hmem => hmore seat (List.mem_append_left _ hmem)) hw
    refine ⟨u, later ++ [_], hu, congrArg _ (List.append_assoc ..), fun m hm e he => ?_⟩
    rcases List.mem_append.mp hm with hm | hm
    · exact hlater m hm e he
    · obtain rfl := List.mem_singleton.mp hm
      obtain ⟨hauth, hnews⟩ := seen_eq_some he
      rw [Vigil.isNews, List.all_append, Bool.and_eq_true] at hnews
      refine ⟨hnews.1, fun a ha => ?_⟩
      obtain ⟨b, hb, hab⟩ := version_le_authoritative? ha more
      obtain rfl := Option.some.inj (hauth.symm.trans hb)
      exact hab

/-! ### The turn that was hinted at -/

/-- **A hinted turn is not announced again** before a look has shown that it is
over, at a state no older than the server's entry was when the hint came – and
newer than that, if the watch had looked at it. -/
theorem hinted_turn_announced_once {id : EntityId} {ops more : List Op} {v v' : Vigil} {a : Entry}
    (hv : vigil? id ops = some v)
    (hhint : (run ops).announced (.hint id) = [.turnStarted id .hint])
    (ha : (run ops).authoritative? id = some a)
    (hmore : ∀ seat, .subscribe id seat ∉ more)
    (hv' : vigil? id (ops ++ .hint id :: more) = some v') :
    ∃ later, v'.moments = v.moments ++ ⟨none, [.hint]⟩ :: later
      ∧ ∀ before m rest, later = before ++ m :: rest → m.announced ≠ [] →
          ∃ pre n post e, before = pre ++ n :: post ∧ n.seen = some e
            ∧ v'.shows (v.moments ++ ⟨none, [.hint]⟩ :: pre) n = some false
            ∧ a.version ≤ e.version ∧ (v.isNews a = false → a.version < e.version) := by
  have hsound' := (keeps_run id (ops ++ .hint id :: more)).sound v' hv'
  have hhinted : vigil? id (ops ++ [.hint id])
      = some ⟨v.seat, v.moments ++ [⟨none, [.hint]⟩]⟩ := by
    rw [vigil?_concat, hv, vigilAfter, Option.map_some, note, moment, hhint, Event.turnsOf_self]
    rfl
  rw [List.append_cons] at hv'
  obtain ⟨u, later, hu, rfl, hlater⟩ := vigil?_append hmore hv'
  obtain rfl := Option.some.inj (hhinted.symm.trans hu)
  refine ⟨later, (List.append_cons ..).symm, fun before m rest hsplit hm => ?_⟩
  subst hsplit
  -- what is announced was not known, and the hint made it known
  obtain ⟨-, hnot, -⟩ := (hsound' _ m rest (List.append_assoc ..).symm).of_announced hm
  have hknown : (Vigil.after v.seat (v.moments ++ [⟨none, [.hint]⟩])).isTurn = some true := by
    rw [Vigil.after_concat, TurnWatch.mark_hint]
  obtain ⟨pre, n, post, rfl, hn⟩ := Vigil.turn_over hknown hnot
  obtain ⟨e, he, -⟩ := Option.bind_eq_some_iff.mp hn
  obtain ⟨hnews, hversion⟩ := hlater n (by simp) e he
  rw [Vigil.isNews_concat, Option.all_none, Bool.and_true] at hnews
  rw [← List.append_cons] at hn
  refine ⟨pre, n, post, e, rfl, he, hn, hversion a ?_, fun hlooked => ?_⟩
  · rw [run_concat]
    exact ha
  · exact Vigil.version_lt_of_isNews hlooked hnews

/-- The turn comes with a hint, passes, and comes again. -/
theorem hinted_turn_announced_once_looked_at :
    let ops : List Op := [.trick 1 1, .subscribe 7 none]
    let more : List Op := [.trick 2 2, .observe 7, .trick 3 1, .observe 7, .trick 4 2, .observe 7]
    let v : Vigil := ⟨none, [⟨some (.trick 1 1), []⟩]⟩
    let later : List Vigil.Moment := [⟨none, []⟩, ⟨some (.trick 2 2), []⟩, ⟨none, []⟩,
      ⟨some (.trick 3 1), []⟩, ⟨none, []⟩, ⟨some (.trick 4 2), [.snapshot]⟩]
    vigil? 7 ops = some v ∧ v.isNews (.trick 1 1) = false
      ∧ vigil? 7 (ops ++ .hint 7 :: more) = some ⟨none, v.moments ++ ⟨none, [.hint]⟩ :: later⟩
      ∧ ∃ pre n post e, later.take 5 = pre ++ n :: post ∧ n.seen = some e ∧ 1 < e.version := by
  intro ops more v later
  have hmore : ∀ seat, .subscribe 7 seat ∉ more := fun seat h => by simp [more, Op.trick] at h
  have hlooked : v.isNews (.trick 1 1) = false := by decide
  have hv : vigil? 7 ops = some v := rfl
  have hhint : (run ops).announced (.hint 7) = [.turnStarted 7 .hint] := by decide
  have ha : (run ops).authoritative? 7 = some (.trick 1 1) := rfl
  have hv' : vigil? 7 (ops ++ .hint 7 :: more)
      = some ⟨none, v.moments ++ ⟨none, [.hint]⟩ :: later⟩ := rfl
  obtain ⟨later', hmoments, honce⟩ := hinted_turn_announced_once hv hhint ha hmore hv'
  obtain rfl : later = later' := (List.cons.inj (List.append_cancel_left hmoments)).2
  obtain ⟨pre, n, post, e, hsplit, he, -, -, hversion⟩ :=
    honce (later.take 5) ⟨some (.trick 4 2), [.snapshot]⟩ [] rfl (by decide)
  exact ⟨hv, hlooked, hv', pre, n, post, e, hsplit, he, hversion hlooked⟩

/-- The hint comes before the watch has looked at version 2. That look undoes
the hint, and version 3 announces the turn a second time. -/
theorem lagging_look_repeats_hinted_turn :
    let ops : List Op := [.trick 1 1, .subscribe 7 none, .trick 2 1]
    let more : List Op := [.observe 7, .trick 3 2]
    (run ops).announced (.hint 7) = [.turnStarted 7 .hint]
      ∧ (run ops).authoritative? 7 = some (.trick 2 1)
      ∧ vigil? 7 (ops ++ .hint 7 :: more) = some ⟨none, [⟨some (.trick 1 1), []⟩, ⟨none, []⟩,
          ⟨none, [.hint]⟩, ⟨some (.trick 2 1), []⟩, ⟨none, []⟩]⟩
      ∧ (run (ops ++ .hint 7 :: more)).announced (.observe 7) = [.turnStarted 7 .snapshot] := by
  intro ops more
  exact ⟨by decide, rfl, rfl, by decide⟩

end Lookout

end LiveSync
