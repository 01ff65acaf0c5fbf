import LiveSync.Proofs.Turns.Hints

/-!
# Newcomers

Whoever subscribes to an entity that is watched already starts its watch anew,
for everybody. What the watch has learned is forgotten, and it goes on from
what the server's latest entry shows.

Nobody notices if that is what the watch knew anyhow (`Vigil.UpToDate`): it has
looked at that entry, its viewer is the one that the entry names, and no hint
has come since a look that showed whose turn it is. The new watch is then the
old one, the two runs differ only in how many hold the topic
(`Lookout.Beside`), and as long as the newcomer is not the last to stay, that is
never asked for. Otherwise something is lost: a hint, and the turn is
announced twice; a seat, or a state that was still to be looked at, and it is
not announced at all.
-/

namespace LiveSync

/-! ### A watch that knows what the entry shows -/

namespace Vigil

/-- **After every hint** a look has shown whose turn it is. -/
def OutlivesHints (v : Vigil) : Prop :=
  ∀ before m rest, v.moments = before ++ m :: rest → .hint ∈ m.announced →
    ∃ pre n post, rest = pre ++ n :: post ∧ v.shows (before ++ m :: pre) n ≠ none

/-- **A vigil is up to date** with the server's entry: all that it has led to
can be read off that entry. -/
structure UpToDate (v : Vigil) (a : Option Entry) : Prop where
  /-- The entry was looked at. -/
  looked : ∀ e, a = some e → v.isNews e = false
  /-- The viewer is the one that the entry names. -/
  seat : viewer v.seat v.moments = a.bind fun e => Game.viewerSeat? e.payload
  /-- After every hint a look has shown whose turn it is. -/
  hints : v.OutlivesHints

variable {v : Vigil} {seat : Option Seat} {moments : List Moment} {a : Entry}

theorem viewer_of_append {more : List Moment} (h : viewer seat (moments ++ more) = none) :
    viewer seat moments = none := by
  rw [viewer_append] at h
  cases hs : viewer seat moments with
  | none => rfl
  | some s => rw [hs] at h; cases h

/-- Without a seat no look shows whose turn it is. -/
theorem shows_of_viewer_none {m : Moment} {rest : List Moment}
    (h : viewer v.seat (moments ++ m :: rest) = none) : v.shows moments m = none := by
  rw [List.append_cons] at h
  rw [shows, viewer_of_append h]
  cases m.seen <;> rfl

/-- Without a seat and a hint, it is not known whose turn it is. -/
theorem isTurn_of_viewer_none (hseat : viewer v.seat moments = none)
    (hhint : ∀ m ∈ moments, .hint ∉ m.announced) : (after v.seat moments).isTurn = none := by
  induction moments using List.reverseRecOn with
  | nil => rfl
  | append_singleton moments m ih =>
    rw [isTurn_after_concat, if_neg (hhint m (by simp)), shows_of_viewer_none hseat]
    exact ih (viewer_of_append hseat) fun n hn => hhint n (List.mem_append_left _ hn)

/-- Nothing was looked at since. -/
theorem OutlivesHints.of_concat {m : Moment} (h : OutlivesHints ⟨seat, moments ++ [m]⟩)
    (hm : m.seen = none) : .hint ∉ m.announced ∧ OutlivesHints ⟨seat, moments⟩ := by
  refine ⟨fun hhint => ?_, fun before n rest hsplit hhint => ?_⟩
  · obtain ⟨pre, n, post, hnil, -⟩ := h moments m [] rfl hhint
    exact List.append_ne_nil_of_right_ne_nil pre (List.cons_ne_nil n post) hnil.symm
  · obtain rfl : moments = before ++ n :: rest := hsplit
    obtain ⟨pre, k, post, hrest, hk⟩ :=
      h before n (rest ++ [m]) (List.append_assoc before (n :: rest) [m]) hhint
    rcases split_concat hrest with ⟨rfl, rfl, -⟩ | ⟨more, rfl, -⟩
    · exact absurd (by rw [shows, hm]; rfl) hk
    · exact ⟨pre, k, more, rfl, hk⟩

/-- **What a watch remembers is read off the entry** that was looked at last. -/
theorem Sound.watch_of_looked (hsound : Sound ⟨seat, moments⟩)
    (hints : OutlivesHints ⟨seat, moments⟩)
    (hknown : ∀ m ∈ moments, ∀ p, m.seen = some p → p.Advances a)
    (hlooked : isNews ⟨seat, moments⟩ a = false) :
    (after seat moments).version = some a.version
      ∧ ∀ s, (after seat moments).seat = some s →
          (after seat moments).isTurn = some (Game.isTurnOf a.payload s) := by
  induction moments using List.reverseRecOn with
  | nil => cases hlooked
  | append_singleton moments m ih =>
    obtain ⟨hbefore, hm⟩ := hsound.of_concat
    rw [after_concat]
    cases hm with
    | nothing =>
      rw [isNews_concat, Option.all_none, Bool.and_true] at hlooked
      obtain ⟨-, hints⟩ := hints.of_concat rfl
      exact ih hbefore hints (fun n hn => hknown n (List.mem_append_left _ hn)) hlooked
    | hint unknown => exact absurd (List.mem_singleton_self _) (hints.of_concat rfl).1
    | look p news =>
      -- the entry is the one that was looked at now, since that was news
      have hadv : p.Advances a :=
        hknown _ (List.mem_append_right _ (List.mem_singleton_self _)) p rfl
      have hsame : p.Same a := by
        refine hadv.resolve_right fun hlt => ?_
        rw [isNews_concat, Option.all_some, decide_eq_true hlt, Bool.and_true] at hlooked
        have hlater := version_lt_of_isNews hlooked ((hbefore.isNews_eq p).trans news)
        exact Int64.lt_asymm hlt hlater
      obtain ⟨now, rfl⟩ := Entry.same_iff.mp hsame
      rw [TurnWatch.mark_look]
      refine ⟨rfl, fun s hs => ?_⟩
      show (((after seat moments).after p).seat.map (Game.isTurnOf p.payload) <|> _) = _
      rw [hs]
      rfl

/-- A watch that has looked at nothing knows no version. -/
theorem version_of_unseen (h : ∀ m ∈ moments, m.seen = none) :
    (after seat moments).version = none := by
  induction moments using List.reverseRecOn with
  | nil => rfl
  | append_singleton moments m ih =>
    have hversion := ih fun n hn => h n (List.mem_append_left _ hn)
    rw [after_concat, TurnWatch.mark, h m (by simp)]
    split <;> exact hversion

/-- **A watch that is started anew remembers the same** as one that is up to
date. -/
theorem UpToDate.watch_eq {a : Option Entry} (h : v.UpToDate a) (hsound : v.Sound)
    (hknown : ∀ m ∈ v.moments, ∀ p, m.seen = some p → ∃ b, a = some b ∧ p.Advances b) :
    v.watch = .seeded none a := by
  have hseat : v.watch.seat = a.bind fun e => Game.viewerSeat? e.payload :=
    (seat_after v.seat v.moments).trans h.seat
  have hunknown (hnone : v.watch.seat = none) : v.watch.isTurn = none := by
    have hviewer : viewer v.seat v.moments = none := (seat_after v.seat v.moments).symm.trans hnone
    refine isTurn_of_viewer_none hviewer fun m hm hhint => ?_
    -- without a seat no look has outlived the hint
    obtain ⟨before, rest, hsplit⟩ := List.append_of_mem hm
    obtain ⟨pre, n, post, rfl, hn⟩ := h.hints before m rest hsplit hhint
    have hsplit' : v.moments = (before ++ m :: pre) ++ n :: post := by simpa using hsplit
    exact hn (shows_of_viewer_none (hsplit' ▸ hviewer))
  cases a with
  | none =>
    refine TurnWatch.ext hseat (hunknown hseat) (version_of_unseen fun m hm => ?_)
    cases hseen : m.seen with
    | none => rfl
    | some p =>
      obtain ⟨b, hb, -⟩ := hknown m hm p hseen
      cases hb
  | some a =>
    have hadvances : ∀ m ∈ v.moments, ∀ p, m.seen = some p → p.Advances a := by
      intro m hm p hp
      obtain ⟨b, hb, hadv⟩ := hknown m hm p hp
      exact Option.some.inj hb ▸ hadv
    obtain ⟨hversion, hturn⟩ := hsound.watch_of_looked h.hints hadvances (h.looked a rfl)
    have hseat : v.watch.seat = Game.viewerSeat? a.payload := hseat
    refine TurnWatch.ext hseat ?_ hversion
    show v.watch.isTurn = (Game.viewerSeat? a.payload).map (Game.isTurnOf a.payload)
    rw [← hseat]
    cases hs : v.watch.seat with
    | none => exact hunknown hs
    | some s => exact hturn s hs

end Vigil

namespace Lookout

variable {l l' : Lookout} {id : EntityId} {op : Op} {ops : List Op} {v : Vigil}

/-- **What was looked at is what the server's entry has advanced from.** -/
theorem seen_advances (hv : vigil? id ops = some v) : ∀ m ∈ v.moments, ∀ p, m.seen = some p →
    ∃ a, (run ops).authoritative? id = some a ∧ p.Advances a := by
  induction ops using List.reverseRecOn generalizing v with
  | nil => cases hv
  | append_singleton ops op ih =>
    intro m hm p hp
    have hearlier (h : ∃ a, (run ops).authoritative? id = some a ∧ p.Advances a) :
        ∃ a, (run (ops ++ [op])).authoritative? id = some a ∧ p.Advances a := by
      obtain ⟨a, ha, hadv⟩ := h
      obtain ⟨b, hb, hab⟩ := authoritative?_step ops op ha
      exact ⟨b, hb, hadv.trans hab⟩
    rw [vigil?_concat] at hv
    by_cases hop : ∃ seat, op = .subscribe id seat
    · obtain ⟨seat, rfl⟩ := hop
      rw [vigilAfter, if_pos rfl] at hv
      obtain rfl := Option.some.inj hv
      obtain rfl := List.mem_singleton.mp hm
      exact hearlier ⟨p, hp, .inl (.refl p)⟩
    · obtain ⟨u, hu, rfl⟩ := vigilAfter_eq_some (fun seat h => hop ⟨seat, h⟩) hv
      rcases List.mem_append.mp hm with hm | hm
      · exact hearlier (ih hu m hm p hp)
      · obtain rfl := List.mem_singleton.mp hm
        exact hearlier ⟨p, (seen_eq_some hp).1, .inl (.refl p)⟩

/-! ### One more holder -/

/-- **Two lookouts of which the second has one more holder** of an entity. -/
structure Beside (id : EntityId) (l l' : Lookout) : Prop where
  cache : l'.engine.cache = l.engine.cache
  turns : l'.engine.turns = l.engine.turns
  handedOut : l'.handedOut = l.handedOut
  interest : ∀ j, l'.interest j = l.interest j + if id = j then 1 else 0

theorem interest_step (l : Lookout) (op : Op) (j : EntityId) :
    (l.step op).interest j = match op with
      | .subscribe i _ => l.interest j + if i = j then 1 else 0
      | .release i => l.interest j - if i = j then 1 else 0
      | .cache _ | .observe _ | .hint _ => l.interest j := by
  cases op with
  | cache | observe | hint => rfl
  | subscribe i seat =>
    refine (l.engine.interests.interest_acquire (.game i) (.game j)).trans ?_
    simp only [Topic.game.injEq]
    rfl
  | release i =>
    have hinterests : (l.step (.release i)).engine.interests
        = (l.engine.interests.release (.game i)).1 := by
      show (l.engine.unsubscribe ⟨.game i, true⟩).1.interests = _
      unfold Engine.unsubscribe
      dsimp only
      split <;> rfl
    rw [interest, hinterests, Interests.interest_release]
    simp only [Topic.game.injEq]
    rfl

theorem Beside.announced (h : Beside id l l') (op : Op) : l'.announced op = l.announced op := by
  cases op with
  | cache | subscribe | release => rfl
  | observe j =>
    show (l'.engine.turns.observe l'.engine.cache j).events = _
    rw [h.cache, h.turns]
    rfl
  | hint j =>
    show (l'.engine.turns.hint l'.engine.cache j).events = _
    rw [h.cache, h.turns]
    rfl

/-- **One operation keeps two lookouts beside each other**, unless it ends the
watch of the first one. -/
theorem Beside.step (h : Beside id l l') (op : Op) (hop : op = .release id → 1 < l.interest id) :
    Beside id (l.step op) (l'.step op) := by
  have hledger : (l'.step op).ledger = (l.step op).ledger := by
    have hl : l'.ledger = l.ledger := by rw [ledger, ledger, h.cache, h.handedOut]
    rw [ledger_step, ledger_step, hl]
  refine ⟨congrArg Ledger.cache hledger, ?_, congrArg Ledger.handedOut hledger, fun j => ?_⟩
  · cases op with
    | cache => exact h.turns
    | subscribe j seat =>
      show l'.engine.turns.watch l'.engine.cache j seat = _
      rw [h.cache, h.turns]
      rfl
    | observe j =>
      show (l'.engine.turns.observe l'.engine.cache j).state = _
      rw [h.cache, h.turns]
      rfl
    | hint j =>
      show (l'.engine.turns.hint l'.engine.cache j).state = _
      rw [h.cache, h.turns]
      rfl
    | release j =>
      show (l'.engine.unsubscribe ⟨.game j, true⟩).1.turns
        = (l.engine.unsubscribe ⟨.game j, true⟩).1.turns
      rw [Engine.turns_unsubscribe, Engine.turns_unsubscribe, h.turns]
      have hlast : l'.interest j = 1 ↔ l.interest j = 1 := by
        rw [h.interest j]
        by_cases hj : id = j
        · have hmore : 1 < l.interest j := hj ▸ hop (hj ▸ rfl)
          rw [if_pos hj]
          omega
        · rw [if_neg hj]
          omega
      exact if_congr hlast rfl rfl
  · have hinterest := h.interest j
    rw [interest_step, interest_step]
    cases op with
    | cache | observe | hint => exact hinterest
    | subscribe i seat =>
      dsimp only
      omega
    | release i =>
      dsimp only
      by_cases hid : id = j
      · subst hid
        rw [if_pos rfl] at hinterest ⊢
        split
        · rename_i hi
          have hmore : 1 < l.interest id := hop (hi ▸ rfl)
          omega
        · omega
      · rw [if_neg hid] at hinterest ⊢
        rw [hinterest]
        rfl

/-- What is announced is the same, as long as the watch of the first one does
not end. -/
theorem Beside.announcedBy {more : List Op} (h : Beside id l l')
    (hmore : ∀ before rest, more = before ++ .release id :: rest →
      1 < (l.runFrom before).interest id) :
    l'.announcedBy more = l.announcedBy more := by
  induction more generalizing l l' with
  | nil => rfl
  | cons op more ih =>
    have hstep := h.step op fun hop => hmore [] more (hop ▸ rfl)
    have hlater := ih hstep fun before rest hsplit => hmore (op :: before) rest (hsplit ▸ rfl)
    show l'.announced op ++ (l'.step op).announcedBy more = _
    rw [h.announced op, hlater]
    rfl

/-- **One more subscription is not noticed while the watch is up to date.**
Whatever happens after it, the same turns are announced, as long as the
subscriptions that were there before are not all given up. -/
theorem additional_subscription_unnoticed {id : EntityId} {ops more : List Op} {v : Vigil}
    (hv : vigil? id ops = some v) (hcurrent : v.UpToDate ((run ops).authoritative? id))
    (hmore : ∀ before rest, more = before ++ .release id :: rest →
      1 < ((run ops).runFrom before).interest id) :
    (run (ops ++ [.subscribe id none])).announcedBy more = (run ops).announcedBy more := by
  have hkeeps : (run ops).Keeps id (some v) := hv ▸ keeps_run id ops
  have hwatch : v.watch = .seeded none ((run ops).authoritative? id) :=
    hcurrent.watch_eq (hkeeps.sound v rfl) (seen_advances hv)
  have hbeside : Beside id (run ops) (run (ops ++ [.subscribe id none])) := by
    rw [run_concat]
    refine ⟨rfl, ?_, rfl, fun j => interest_step _ _ j⟩
    refine congrArg Turns.mk (Table.insert_of_get? (hkeeps.watch?.trans ?_))
    exact congrArg some hwatch
  exact hbeside.announcedBy hmore

/-- The watch has looked at version 2, and somebody else comes before the turn
does. -/
theorem additional_subscription_unnoticed_looked_at :
    let ops : List Op := [.trick 1 2, .subscribe 7 (some 2), .trick 2 1, .observe 7]
    let more : List Op := [.trick 3 2, .observe 7, .hint 7]
    let v : Vigil := ⟨some 2, [⟨some (.trick 1 2), []⟩, ⟨none, []⟩, ⟨some (.trick 2 1), []⟩]⟩
    vigil? 7 ops = some v ∧ v.UpToDate (some (.trick 2 1))
      ∧ (run ops).announcedBy more = [.turnStarted 7 .snapshot]
      ∧ (run (ops ++ [.subscribe 7 none])).announcedBy more = (run ops).announcedBy more := by
  intro ops more v
  have hv : vigil? 7 ops = some v := rfl
  have hcurrent : v.UpToDate (some (.trick 2 1)) := by
    refine ⟨fun e he => ?_, by decide, fun before m rest hsplit hhint => ?_⟩
    · cases he
      decide
    · have hnone : ∀ m ∈ v.moments, .hint ∉ m.announced := by decide
      exact absurd hhint (hnone m (hsplit ▸ List.mem_append_right _ (List.mem_cons_self ..)))
  have hmore : ∀ before rest, more = before ++ .release 7 :: rest →
      1 < ((run ops).runFrom before).interest 7 := by
    intro before rest hsplit
    have hmem : .release 7 ∈ more := hsplit ▸ List.mem_append_right _ (List.mem_cons_self ..)
    simp [more, Op.trick] at hmem
  exact ⟨hv, hcurrent, by decide, additional_subscription_unnoticed hv hcurrent hmore⟩

/-- Three subscriptions that are noticed: after a hint, while a state is still to
be looked at, and where the seat is known from the first subscription only. -/
theorem additional_subscription_noticed :
    let hinted : List Op := [.trick 1 1, .subscribe 7 none, .hint 7]
    let waiting : List Op := [.trick 1 1, .subscribe 7 none, .trick 2 2]
    let seated : List Op := [.trick 1 1, .subscribe 7 (some 3)]
    let announced (ops : List Op) (more : List Op) := (run ops).announcedBy more
    announced hinted [.trick 2 2, .observe 7] = []
      ∧ announced (hinted ++ [.subscribe 7 none]) [.trick 2 2, .observe 7]
          = [.turnStarted 7 .snapshot]
      ∧ announced waiting [.observe 7] = [.turnStarted 7 .snapshot]
      ∧ announced (waiting ++ [.subscribe 7 none]) [.observe 7] = []
      ∧ announced seated [.trick 2 3, .observe 7] = [.turnStarted 7 .snapshot]
      ∧ announced (seated ++ [.subscribe 7 none]) [.trick 2 3, .observe 7] = [] := by
  intro hinted waiting seated announced
  exact ⟨by decide, by decide, by decide, by decide, by decide, by decide⟩

end Lookout

end LiveSync
