import LiveSync.Proofs.Turns.Run

/-!
# What a watch remembers

A watch remembers three things: a seat, whether it was the viewer's turn, and a
version. This is little, and yet all that matters of its vigil: the memory is
what the vigil leads to (`Vigil.watch`), and each moment of a vigil is one of
three that the memory allows (`TurnWatch.Allows`) – nothing, a look that
announces an edge or none, or a hint that is announced because the turn was
not.

Both are kept by every operation, also by those for other entities and those
that start a watch anew (`Lookout.Keeps`). Whatever is said of vigils can
therefore be said of runs.
-/

namespace LiveSync

/-! ### What a vigil leads to -/

attribute [ext] TurnWatch

namespace TurnWatch

variable {w : TurnWatch} {e : Entry}

/-- A watch after a moment. -/
def mark (w : TurnWatch) (m : Vigil.Moment) : TurnWatch :=
  if .hint ∈ m.announced then { m.seen.elim w w.after with isTurn := some true }
  else m.seen.elim w w.after

/-- **The moments that a watch allows next**: nothing happens, it looks at
something new, or a hint is announced. -/
inductive Allows (w : TurnWatch) : Vigil.Moment → Prop
  | nothing : Allows w ⟨none, []⟩
  | look (e : Entry) (news : w.isNews e = true) :
    Allows w ⟨some e, if w.isEdge e then [.snapshot] else []⟩
  | hint (unknown : w.isTurn ≠ some true) : Allows w ⟨none, [.hint]⟩

@[simp] theorem mark_nothing (w : TurnWatch) : w.mark ⟨none, []⟩ = w := rfl

@[simp] theorem mark_look (w : TurnWatch) (e : Entry) (edge : Bool) :
    w.mark ⟨some e, if edge then [.snapshot] else []⟩ = w.after e := by
  cases edge <;> rfl

@[simp] theorem mark_hint (w : TurnWatch) :
    w.mark ⟨none, [.hint]⟩ = { w with isTurn := some true } := rfl

/-- What is newer than news is news. -/
theorem isNews_of_lt {p : Entry} (h : w.isNews p = true) (hlt : p.version < e.version) :
    w.isNews e = true := by
  unfold isNews at h ⊢
  split
  · rfl
  · rename_i v hv
    rw [hv] at h
    exact decide_eq_true (Int64.lt_trans (of_decide_eq_true h) hlt)

/-- What is looked at first is never an edge. -/
theorem isEdge_of_unknown (h : w.isTurn = none) (e : Entry) : w.isEdge e = false := by
  unfold isEdge
  split
  · rfl
  · rw [h]
    exact Bool.and_false _

/-- A watch that was started knows what it has looked at first. -/
theorem seeded_eq (seat : Option Seat) (e : Option Entry) :
    seeded seat e = mark ⟨seat, none, none⟩ ⟨e, []⟩ := by
  cases e with
  | none => rfl
  | some e =>
    refine Eq.trans ?_ (mark_look _ e false).symm
    simp [seeded, after]

end TurnWatch

namespace Vigil

/-- What a watch that was started with a seat remembers after some moments. -/
def after (seat : Option Seat) (moments : List Moment) : TurnWatch :=
  moments.foldl TurnWatch.mark ⟨seat, none, none⟩

/-- **What a watch remembers.** -/
def watch (v : Vigil) : TurnWatch := after v.seat v.moments

@[simp] theorem after_concat (seat : Option Seat) (moments : List Moment) (m : Moment) :
    after seat (moments ++ [m]) = (after seat moments).mark m := by
  rw [after, List.foldl_append]
  rfl

/-- **Each moment of a vigil is one that the watch allowed.** -/
def Sound (v : Vigil) : Prop :=
  ∀ before m rest, v.moments = before ++ m :: rest → (after v.seat before).Allows m

variable {seat : Option Seat} {moments : List Moment} {m : Moment} {v : Vigil}

theorem sound_nil (seat : Option Seat) : Sound ⟨seat, []⟩ := by
  intro before m rest hsplit
  exact absurd hsplit.symm (List.append_ne_nil_of_right_ne_nil before (List.cons_ne_nil m rest))

/-- A moment of a vigil that has gone on is the last one or an earlier one. -/
theorem split_concat {before rest : List Moment} {n : Moment}
    (h : moments ++ [m] = before ++ n :: rest) :
    (moments = before ∧ m = n ∧ rest = [])
      ∨ ∃ more, moments = before ++ n :: more ∧ rest = more ++ [m] := by
  rcases rest.eq_nil_or_concat with rfl | ⟨more, k, rfl⟩
  · obtain ⟨rfl, hm⟩ := List.append_inj' h rfl
    exact .inl ⟨rfl, (List.cons.inj hm).1, rfl⟩
  · rw [List.concat_eq_append, ← List.cons_append, ← List.append_assoc] at h
    obtain ⟨rfl, hm⟩ := List.append_inj' h rfl
    exact .inr ⟨more, rfl, hm ▸ List.concat_eq_append⟩

/-- What some moment was, and no later one has undone, in a vigil that has gone
on: the last moment is it, or an earlier one that the last has not undone. -/
theorem exists_split_concat (moments : List Moment) (m : Moment) (P : List Moment → Moment → Prop)
    (Q : Moment → Prop) :
    (∃ before p rest, moments ++ [m] = before ++ p :: rest ∧ P before p ∧ ∀ r ∈ rest, Q r)
      ↔ P moments m ∨ Q m ∧ ∃ before p rest, moments = before ++ p :: rest ∧ P before p
          ∧ ∀ r ∈ rest, Q r := by
  constructor
  · rintro ⟨before, p, rest, hsplit, hp, hrest⟩
    rcases split_concat hsplit with ⟨rfl, rfl, -⟩ | ⟨more, rfl, rfl⟩
    · exact .inl hp
    · refine .inr ⟨hrest m (List.mem_append_right _ (List.mem_singleton_self m)), ?_⟩
      exact ⟨before, p, more, rfl, hp, fun r hr => hrest r (List.mem_append_left _ hr)⟩
  · rintro (hp | ⟨hm, before, p, rest, rfl, hp, hrest⟩)
    · exact ⟨moments, m, [], rfl, hp, nofun⟩
    · refine ⟨before, p, rest ++ [m], List.append_assoc before (p :: rest) [m], hp, fun r hr => ?_⟩
      rcases List.mem_append.mp hr with hr | hr
      · exact hrest r hr
      · exact List.mem_singleton.mp hr ▸ hm

theorem Sound.concat (h : Sound ⟨seat, moments⟩) (hm : (after seat moments).Allows m) :
    Sound ⟨seat, moments ++ [m]⟩ := by
  intro before n rest hsplit
  rcases split_concat hsplit with ⟨rfl, rfl, -⟩ | ⟨more, hmore, -⟩
  · exact hm
  · exact h before n more hmore

theorem Sound.of_concat (h : Sound ⟨seat, moments ++ [m]⟩) :
    Sound ⟨seat, moments⟩ ∧ (after seat moments).Allows m := by
  refine ⟨fun before n rest hsplit => ?_, h moments m [] rfl⟩
  obtain rfl : moments = before ++ n :: rest := hsplit
  exact h before n (rest ++ [m]) (List.append_assoc before (n :: rest) [m])

theorem isNews_concat (e : Entry) :
    isNews ⟨seat, moments ++ [m]⟩ e
      = (isNews ⟨seat, moments⟩ e && m.seen.all fun p => p.version < e.version) := by
  simp only [isNews, List.all_append, List.all_cons, List.all_nil, Bool.and_true]

/-- **The last version that a watch has looked at** is the greatest. -/
theorem Sound.isNews_eq (h : v.Sound) (e : Entry) : v.isNews e = v.watch.isNews e := by
  obtain ⟨seat, moments⟩ := v
  induction moments using List.reverseRecOn generalizing e with
  | nil => rfl
  | append_singleton moments m ih =>
    obtain ⟨hbefore, hm⟩ := h.of_concat
    rw [isNews_concat, ih e hbefore, watch, watch, after_concat]
    dsimp only
    cases hm with
    | nothing => rw [TurnWatch.mark_nothing, Option.all_none, Bool.and_true]
    | hint =>
      rw [TurnWatch.mark_hint, Option.all_none, Bool.and_true]
      rfl
    | look p news =>
      rw [TurnWatch.mark_look, Option.all_some]
      -- what was looked at before is older than `p`
      show ((after seat moments).isNews e && _) = decide (p.version < e.version)
      by_cases hlt : p.version < e.version
      · rw [decide_eq_true hlt, Bool.and_true]
        exact TurnWatch.isNews_of_lt news hlt
      · rw [decide_eq_false hlt, Bool.and_false]

end Vigil

/-! ### The watches of an engine -/

namespace Turns

variable {t : Turns} {cache : Cache} {id : EntityId} {w : TurnWatch} {e : Entry}

theorem observe_of_news (he : cache.authoritative? id = some e) (hw : t.watches.get? id = some w)
    (hn : w.isNews e = true) :
    t.observe cache id = ⟨⟨t.watches.insert id (w.after e)⟩, w.isEdge e,
      if w.isEdge e then [.turnStarted id .snapshot] else []⟩ := by
  rw [observe, he, hw]
  exact if_pos hn

theorem observe_of_no_news (hw : t.watches.get? id = some w)
    (hn : (cache.authoritative? id).filter w.isNews = none) :
    t.observe cache id = .silent t false := by
  rw [observe, hw]
  cases he : cache.authoritative? id with
  | none => rfl
  | some e =>
    rw [he, Option.filter_eq_none_iff] at hn
    exact if_neg (hn e rfl)

theorem observe_of_unwatched (hw : t.watches.get? id = none) :
    t.observe cache id = .silent t false := by
  rw [observe, hw]
  cases cache.authoritative? id <;> rfl

theorem hint_of_pending (hp : cache.isPending id = true) : t.hint cache id = .silent t false :=
  if_pos hp

theorem hint_of_known (hw : t.watches.get? id = some w) (hn : w.isTurn = some true) :
    t.hint cache id = .silent t false := by
  unfold hint
  split
  · rfl
  · rw [hw]
    exact if_pos hn

theorem hint_of_unknown (hp : cache.isPending id = false) (hw : t.watches.get? id = some w)
    (hn : w.isTurn ≠ some true) :
    t.hint cache id = ⟨⟨t.watches.insert id { w with isTurn := some true }⟩, true,
      [.turnStarted id .hint]⟩ := by
  rw [hint, hp, if_neg Bool.false_ne_true, hw]
  exact if_neg hn

theorem hint_of_unwatched (hp : cache.isPending id = false) (hw : t.watches.get? id = none) :
    t.hint cache id = ⟨t, true, [.turnStarted id .hint]⟩ := by
  rw [hint, hp, if_neg Bool.false_ne_true, hw]

end Turns

/-- The holder who lets go last is the one who is told to unsubscribe. -/
theorem Interests.isSome_release (i : Interests) (topic : Topic) :
    (i.release topic).2.isSome = decide (i.interest topic = 1) := by
  unfold release
  split <;> rename_i hn <;> rw [hn]
  · rfl
  · rfl
  · exact (decide_eq_false (by omega)).symm

theorem Interests.interest_acquire (i : Interests) (topic t : Topic) :
    (i.acquire topic).1.interest t = i.interest t + if topic = t then 1 else 0 := by
  simp only [acquire, interest, Table.get?_insert]
  split
  · rename_i h
    rw [h]
    rfl
  · rfl

theorem Interests.interest_release (i : Interests) (topic t : Topic) :
    (i.release topic).1.interest t = i.interest t - if topic = t then 1 else 0 := by
  by_cases ht : topic = t
  · subst ht
    rw [if_pos rfl]
    unfold release
    split <;> rename_i hn
    · rw [hn]
    · rw [hn, interest, Table.get?_erase_self]
      rfl
    · rw [hn, interest, Table.get?_insert_self]
      rfl
  · rw [if_neg ht]
    unfold release
    split
    · rfl
    · exact congrArg (·.getD 0) (Table.get?_erase_of_ne _ ht)
    · exact congrArg (·.getD 0) (Table.get?_insert_of_ne _ _ ht)

/-- An engine stops to watch with the last subscription. -/
theorem Engine.turns_unsubscribe (e : Engine) (id : EntityId) :
    (e.unsubscribe ⟨.game id, true⟩).1.turns
      = if e.interests.interest (.game id) = 1 then e.turns.unwatch id else e.turns := by
  have hsome := e.interests.isSome_release (.game id)
  unfold unsubscribe
  dsimp only
  rw [hsome]
  by_cases hone : e.interests.interest (.game id) = 1
  · rw [if_pos hone, if_pos ⟨decide_eq_true hone, rfl⟩]
    rfl
  · rw [if_neg hone, if_neg fun h => hone (of_decide_eq_true h.1)]

namespace Lookout

/-- **A vigil is that of an entity** if the watch remembers what it leads to. -/
structure Keeps (l : Lookout) (id : EntityId) (v : Option Vigil) : Prop where
  watch? : l.watch? id = v.map Vigil.watch
  sound : ∀ u, v = some u → u.Sound

variable {l : Lookout} {id j : EntityId} {v : Option Vigil} {op : Op}

theorem keeps_start (id : EntityId) : start.Keeps id none := ⟨rfl, nofun⟩

/-- A moment that the watch allowed and has taken note of. -/
theorem Keeps.allowed {u : Vigil} (h : l.Keeps id (some u)) (hm : u.watch.Allows (l.moment u id op))
    (hw : (l.step op).watch? id = some (u.watch.mark (l.moment u id op))) :
    (l.step op).Keeps id (some (l.note id op u)) := by
  refine ⟨?_, ?_⟩
  · rw [hw, Option.map_some, note, Vigil.watch, Vigil.watch, Vigil.after_concat]
  · rintro _ ⟨⟩
    exact (h.sound u rfl).concat hm

/-- **A moment at which nothing happens.** -/
theorem Keeps.aside (h : l.Keeps id v) (hw : (l.step op).watch? id = l.watch? id)
    (hm : ∀ u, v = some u → l.moment u id op = ⟨none, []⟩) :
    (l.step op).Keeps id (v.map (l.note id op)) := by
  cases v with
  | none => exact ⟨hw.trans h.watch?, nofun⟩
  | some u =>
    refine h.allowed (hm u rfl ▸ .nothing) ?_
    rw [hw, hm u rfl, TurnWatch.mark_nothing]
    exact h.watch?

theorem keeps_subscribe (l : Lookout) (id : EntityId) (seat : Option Seat) :
    (l.step (.subscribe id seat)).Keeps id (some ⟨seat, [⟨l.authoritative? id, []⟩]⟩) := by
  refine ⟨?_, ?_⟩
  · refine (Table.get?_insert_self _ _ _).trans ?_
    rw [TurnWatch.seeded_eq]
    rfl
  · rintro _ ⟨⟩
    refine (Vigil.sound_nil seat).concat ?_
    cases l.authoritative? id with
    | none => exact .nothing
    | some e =>
      have hedge : (Vigil.after seat []).isEdge e = false := TurnWatch.isEdge_of_unknown rfl e
      have hlook := TurnWatch.Allows.look (w := Vigil.after seat []) e rfl
      rwa [hedge, if_neg Bool.false_ne_true] at hlook

/-! What is done for the entity. -/

theorem observe_silent (l : Lookout)
    (h : l.engine.turns.observe l.engine.cache id = .silent l.engine.turns false) :
    l.announced (.observe id) = [] ∧ (l.step (.observe id)).watch? id = l.watch? id := by
  refine ⟨?_, ?_⟩
  · rw [announced, Engine.onTurns, h]
    rfl
  · show (l.engine.turns.observe l.engine.cache id).state.watches.get? id = _
    rw [h]
    rfl

theorem hint_silent (l : Lookout)
    (h : l.engine.turns.hint l.engine.cache id = .silent l.engine.turns false) :
    l.announced (.hint id) = [] ∧ (l.step (.hint id)).watch? id = l.watch? id := by
  refine ⟨?_, ?_⟩
  · rw [announced, Engine.onTurns, h]
    rfl
  · show (l.engine.turns.hint l.engine.cache id).state.watches.get? id = _
    rw [h]
    rfl

/-- What is new to a vigil is new to its watch. -/
theorem Keeps.seen_observe {u : Vigil} (h : l.Keeps id (some u)) :
    l.seen u id (.observe id) = (l.authoritative? id).filter u.watch.isNews := by
  rw [seen, if_pos rfl]
  exact congrArg (Option.filter · _) (funext fun e => (h.sound u rfl).isNews_eq e)

/-- **A look at something new**: what is announced, what the moment is, and
what the watch remembers of it. -/
theorem Keeps.observe_of_news {u : Vigil} (h : l.Keeps id (some u)) {e : Entry}
    (he : l.seen u id (.observe id) = some e) :
    u.watch.isNews e = true
      ∧ l.announced (.observe id)
          = (if u.watch.isEdge e then [.turnStarted id .snapshot] else [])
      ∧ l.moment u id (.observe id) = ⟨some e, if u.watch.isEdge e then [.snapshot] else []⟩
      ∧ (l.step (.observe id)).watch? id = some (u.watch.after e) := by
  have hseen := he
  rw [h.seen_observe, Option.filter_eq_some_iff] at he
  obtain ⟨hauth, hnews⟩ := he
  have hobserve := Turns.observe_of_news hauth h.watch? hnews
  have hannounced : l.announced (.observe id)
      = if u.watch.isEdge e then [.turnStarted id .snapshot] else [] := by
    rw [announced, Engine.onTurns, hobserve]
    rfl
  refine ⟨hnews, hannounced, ?_, ?_⟩
  · rw [moment, hseen, hannounced]
    cases u.watch.isEdge e with
    | true => exact congrArg _ (Event.turnsOf_self id .snapshot)
    | false => rfl
  · show (l.engine.turns.observe l.engine.cache id).state.watches.get? id = _
    rw [hobserve]
    exact Table.get?_insert_self _ _ _

/-- A look at nothing new. -/
theorem Keeps.observe_of_no_news {u : Vigil} (h : l.Keeps id (some u))
    (he : l.seen u id (.observe id) = none) :
    l.announced (.observe id) = [] ∧ (l.step (.observe id)).watch? id = l.watch? id := by
  rw [h.seen_observe] at he
  exact l.observe_silent (Turns.observe_of_no_news h.watch? he)

theorem Keeps.observe (h : l.Keeps id v) :
    (l.step (.observe id)).Keeps id (v.map (l.note id (.observe id))) := by
  cases v with
  | none => exact h.aside (l.observe_silent (Turns.observe_of_unwatched h.watch?)).2 nofun
  | some u =>
    cases he : l.seen u id (.observe id) with
    | some e =>
      obtain ⟨hnews, -, hmoment, hwatch⟩ := h.observe_of_news he
      refine h.allowed (hmoment ▸ .look e hnews) ?_
      rw [hwatch, hmoment, TurnWatch.mark_look]
    | none =>
      obtain ⟨hannounced, hwatch⟩ := h.observe_of_no_news he
      refine h.aside hwatch fun w hw => ?_
      cases hw
      rw [moment, he, hannounced]
      rfl

/-- **A hint is announced** unless a command is awaited or the turn is known. -/
theorem Keeps.hint_cases {u : Vigil} (h : l.Keeps id (some u)) :
    (l.announced (.hint id) = [] ∧ (l.step (.hint id)).watch? id = l.watch? id)
      ∨ l.engine.cache.isPending id = false ∧ u.watch.isTurn ≠ some true
        ∧ l.announced (.hint id) = [.turnStarted id .hint]
        ∧ (l.step (.hint id)).watch? id = some { u.watch with isTurn := some true } := by
  cases hp : l.engine.cache.isPending id with
  | true => exact .inl (l.hint_silent (Turns.hint_of_pending hp))
  | false =>
    by_cases hknown : u.watch.isTurn = some true
    · exact .inl (l.hint_silent (Turns.hint_of_known h.watch? hknown))
    · have hhint := Turns.hint_of_unknown hp h.watch? hknown
      refine .inr ⟨rfl, hknown, ?_, ?_⟩
      · rw [announced, Engine.onTurns, hhint]
        rfl
      · show (l.engine.turns.hint l.engine.cache id).state.watches.get? id = _
        rw [hhint]
        exact Table.get?_insert_self _ _ _

theorem Keeps.hint (h : l.Keeps id v) :
    (l.step (.hint id)).Keeps id (v.map (l.note id (.hint id))) := by
  cases v with
  | none =>
    refine h.aside ?_ nofun
    show (l.engine.turns.hint l.engine.cache id).state.watches.get? id = l.watch? id
    cases hp : l.engine.cache.isPending id with
    | true =>
      rw [Turns.hint_of_pending hp]
      rfl
    | false =>
      rw [Turns.hint_of_unwatched hp h.watch?]
      rfl
  | some u =>
    rcases h.hint_cases with ⟨hannounced, hwatch⟩ | ⟨-, hunknown, hannounced, hwatch⟩
    · refine h.aside hwatch fun w hw => ?_
      cases hw
      rw [moment, hannounced]
      rfl
    · have hmoment : l.moment u id (.hint id) = ⟨none, [.hint]⟩ := by
        rw [moment, hannounced, Event.turnsOf_self]
        rfl
      refine h.allowed (hmoment ▸ .hint hunknown) ?_
      rw [hwatch, hmoment, TurnWatch.mark_hint]

/-! What is done for another entity. -/

theorem watch?_observe_of_ne (l : Lookout) (hne : j ≠ id) :
    (l.step (.observe j)).watch? id = l.watch? id
      ∧ Event.turnsOf id (l.announced (.observe j)) = [] := by
  show (l.engine.turns.observe l.engine.cache j).state.watches.get? id = _
    ∧ Event.turnsOf id (l.engine.turns.observe l.engine.cache j).events = []
  unfold Turns.observe
  split
  · split
    · refine ⟨Table.get?_insert_of_ne _ _ hne, ?_⟩
      dsimp only
      split
      · exact Event.turnsOf_of_ne hne .snapshot
      · rfl
    · exact ⟨rfl, rfl⟩
  · exact ⟨rfl, rfl⟩

theorem watch?_hint_of_ne (l : Lookout) (hne : j ≠ id) :
    (l.step (.hint j)).watch? id = l.watch? id
      ∧ Event.turnsOf id (l.announced (.hint j)) = [] := by
  show (l.engine.turns.hint l.engine.cache j).state.watches.get? id = _
    ∧ Event.turnsOf id (l.engine.turns.hint l.engine.cache j).events = []
  unfold Turns.hint
  split
  · exact ⟨rfl, rfl⟩
  · split
    · exact ⟨rfl, Event.turnsOf_of_ne hne .hint⟩
    · split
      · exact ⟨rfl, rfl⟩
      · exact ⟨Table.get?_insert_of_ne _ _ hne, Event.turnsOf_of_ne hne .hint⟩

/-- **Every operation is noted as what it is to the watch.** -/
theorem Keeps.step (h : l.Keeps id v) (op : Op) : (l.step op).Keeps id (l.vigilAfter id v op) := by
  cases op with
  | cache op => exact h.aside rfl fun _ _ => rfl
  | subscribe j seat =>
    by_cases hj : j = id
    · subst hj
      rw [vigilAfter, if_pos rfl]
      exact keeps_subscribe l j seat
    · rw [vigilAfter, if_neg hj]
      exact h.aside (Table.get?_insert_of_ne _ _ hj) fun _ _ => rfl
  | release j =>
    have hwatches : (l.step (.release j)).watch? id
        = (if l.interest j = 1 then l.engine.turns.unwatch j else l.engine.turns).watches.get? id :=
      congrArg (fun t : Turns => t.watches.get? id) (l.engine.turns_unsubscribe j)
    by_cases hlast : j = id ∧ l.interest id = 1
    · rw [vigilAfter, if_pos hlast]
      obtain ⟨rfl, hone⟩ := hlast
      refine ⟨?_, nofun⟩
      rw [hwatches, if_pos hone]
      exact Table.get?_erase_self _ _
    · rw [vigilAfter, if_neg hlast]
      refine h.aside ?_ fun _ _ => rfl
      rw [hwatches]
      split
      · rename_i hone
        refine Table.get?_erase_of_ne _ fun hj => hlast ⟨hj, ?_⟩
        exact hj ▸ hone
      · rfl
  | observe j =>
    by_cases hj : j = id
    · subst hj
      exact h.observe
    · obtain ⟨hwatch, hsilent⟩ := l.watch?_observe_of_ne hj
      refine h.aside hwatch fun u _ => ?_
      rw [moment, hsilent, seen, if_neg hj]
  | hint j =>
    by_cases hj : j = id
    · subst hj
      exact h.hint
    · obtain ⟨hwatch, hsilent⟩ := l.watch?_hint_of_ne hj
      refine h.aside hwatch fun u _ => ?_
      rw [moment, hsilent, seen]

/-- **A watch remembers what its vigil leads to**, at any time of any run. -/
theorem keeps_run (id : EntityId) (ops : List Op) : (run ops).Keeps id (vigil? id ops) := by
  induction ops using List.reverseRecOn with
  | nil => exact keeps_start id
  | append_singleton ops op ih =>
    rw [run_concat, vigil?_concat]
    exact ih.step op

end Lookout

end LiveSync
