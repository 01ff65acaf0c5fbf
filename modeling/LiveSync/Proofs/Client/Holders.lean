import LiveSync.Proofs.Client.Changes
import LiveSync.Proofs.Client.Moments
import LiveSync.Proofs.Turns.Memory
import Mathlib.Data.List.Pairwise

/-!
# Who holds what

Subscriptions are taken and given up in any order, and four things have to stay
in step with them: how many hold a topic, the order in which topics are told to
a new connection, what the connection was told since, and whether the entity is
watched for turns. None of the four is computed from the handles that are still
held. Each is changed a little with every handle, and a handle that is given up
does not know whether another one of its topic was taken before it or after it.

What a handle does to the counts comes to one of three things (`Interests.Turn`):
interest in a topic **begins**, it **ends**, or it goes on as it was. The frames
and the order follow the beginnings and ends and nothing else, so everything is
proved of these three.

Other moves leave all of it alone, which is what is known of the changes that
moves are made of (`Course.holdings`).
-/

namespace LiveSync

open LiveSync.Connection LiveSync.Wire

/-! ### Interest begins and ends -/

namespace Interests

variable {i i' : Interests} {topic : Topic} {frame : Option ClientFrame}

/-- **What can become of interest** when a subscription is taken or given up, and
the frame that tells it. -/
inductive Turn (i : Interests) : Interests → Option ClientFrame → Prop
  /-- Whatever was held is still held, and nothing else. -/
  | keeps {i' : Interests} (topics : i'.topics = i.topics)
      (interest : ∀ t, i'.interest t = 0 ↔ i.interest t = 0) : Turn i i' none
  /-- The first holder comes. -/
  | begins {i' : Interests} (topic : Topic) (topics : i'.topics = i.topics ++ [topic])
      (before : i.interest topic = 0) (after : i'.interest topic = 1)
      (others : ∀ t, t ≠ topic → i'.interest t = i.interest t) :
    Turn i i' (some (.subscribe topic))
  /-- The last holder goes. -/
  | ends {i' : Interests} (topic : Topic) (topics : i'.topics = i.topics.filter (· ≠ topic))
      (before : i.interest topic = 1) (after : i'.interest topic = 0)
      (others : ∀ t, t ≠ topic → i'.interest t = i.interest t) :
    Turn i i' (some (.unsubscribe topic))

theorem turn_refl (i : Interests) : i.Turn i none := .keeps rfl fun _ => .rfl

/-- Whether a frame is about a topic. -/
def isAbout (topic : Topic) : ClientFrame → Bool
  | .subscribe t | .unsubscribe t => t = topic
  | .hello _ | .command _ _ _ _ => false

/-- **What is told of a topic** when interest turns: nothing, that it is held, or
that it is held no more. -/
theorem Turn.about (h : i.Turn i' frame) (topic : Topic) :
    frame.toList.filter (isAbout topic) = [] ∧ (i'.interest topic = 0 ↔ i.interest topic = 0)
      ∨ frame.toList.filter (isAbout topic) = [.subscribe topic]
        ∧ i.interest topic = 0 ∧ i'.interest topic ≠ 0
      ∨ frame.toList.filter (isAbout topic) = [.unsubscribe topic]
        ∧ i.interest topic ≠ 0 ∧ i'.interest topic = 0 := by
  cases h with
  | keeps topics interest => exact .inl ⟨rfl, interest topic⟩
  | begins t topics before after others =>
    by_cases ht : t = topic
    · subst ht
      exact .inr (.inl ⟨by simp [isAbout], before, after ▸ Nat.one_ne_zero⟩)
    · exact .inl ⟨by simp [isAbout, ht], by rw [others topic (Ne.symm ht)]⟩
  | ends t topics before after others =>
    by_cases ht : t = topic
    · subst ht
      exact .inr (.inr ⟨by simp [isAbout], before ▸ Nat.one_ne_zero, after⟩)
    · exact .inl ⟨by simp [isAbout, ht], by rw [others topic (Ne.symm ht)]⟩

theorem Tidy.turn_acquire (h : i.Tidy) (topic : Topic) :
    i.Turn (i.acquire topic).1 (i.acquire topic).2 := by
  have hkeys : (i.acquire topic).1.topics
      = if topic ∈ i.topics then i.topics else i.topics ++ [topic] :=
    i.counts.keys_insert topic _
  have hothers (t : Topic) (hne : t ≠ topic) :
      (i.acquire topic).1.interest t = i.interest t := by
    rw [interest_acquire, if_neg hne.symm, Nat.add_zero]
  by_cases hn : i.interest topic = 0
  · have hframe : (i.acquire topic).2 = some (.subscribe topic) := by
      rw [acquire, hn]
      rfl
    rw [hframe]
    refine .begins topic ?_ hn ?_ hothers
    · rw [hkeys, if_neg fun hmem => (h.mem_topics topic).mp hmem hn]
    · rw [interest_acquire, if_pos rfl, hn]
  · have hframe : (i.acquire topic).2 = none := if_neg fun heq => hn (Nat.succ.inj heq)
    rw [hframe]
    refine .keeps ?_ fun t => ?_
    · rw [hkeys, if_pos ((h.mem_topics topic).mpr hn)]
    · rw [interest_acquire]
      split
      · rename_i heq
        exact iff_of_false (Nat.succ_ne_zero _) (heq ▸ hn)
      · exact .rfl

theorem turn_release (i : Interests) (topic : Topic) :
    i.Turn (i.release topic).1 (i.release topic).2 := by
  have hothers (t : Topic) (hne : t ≠ topic) :
      (i.release topic).1.interest t = i.interest t := by
    rw [interest_release, if_neg hne.symm, Nat.sub_zero]
  have hself : (i.release topic).1.interest topic = i.interest topic - 1 := by
    rw [interest_release, if_pos rfl]
  rcases hn : i.interest topic with _ | _ | n
  · have heq : i.release topic = (i, none) := by rw [release, hn]
    rw [heq]
    exact i.turn_refl
  · have heq : i.release topic = (⟨i.counts.erase topic⟩, some (.unsubscribe topic)) := by
      rw [release, hn]
    rw [hn] at hself
    rw [heq] at hothers hself ⊢
    exact .ends topic (i.counts.keys_erase topic) hn hself hothers
  · have heq : i.release topic = (⟨i.counts.insert topic (n + 1)⟩, none) := by rw [release, hn]
    have hmem : topic ∈ i.topics :=
      List.mem_toFinset.mp (mem_held (by rw [hn]; exact Nat.succ_ne_zero _))
    rw [hn] at hself
    rw [heq] at hothers hself ⊢
    refine .keeps ((i.counts.keys_insert topic _).trans (if_pos hmem)) fun t => ?_
    by_cases ht : t = topic
    · subst ht
      rw [hself, hn]
      exact iff_of_false (Nat.succ_ne_zero _) (Nat.succ_ne_zero _)
    · rw [hothers t ht]

end Interests

namespace Client

variable {c c' : Client} {m : Move} {s : Step} {moves : List Move} {topic : Topic}

/-! ### The moves that take and give up subscriptions -/

/-- **How many live handles a topic has.** -/
def live (c : Client) (topic : Topic) : Nat :=
  c.subscriptions.countP fun handle => handle.any fun sub => sub.topic = topic

/-- The interests, the handles, and what is watched. -/
def holdings (c : Client) : Interests × List (Option Subscription) × List EntityId :=
  (c.core.interests, c.core.subscriptions, c.core.watched)

/-- **Whoever takes and gives up nothing** leaves alone what is held. -/
theorem Course.holdings (h : Course m c s) (htake : ∀ id seat, m ≠ .subscribe id seat)
    (hgiveUp : ∀ handle, m ≠ .unsubscribe handle) : s.1.holdings = c.holdings := by
  induction h with
  | still => rfl
  | go _ change ih =>
    refine Eq.trans ?_ ih
    cases change with
    | aside h => exact congrArg (fun k : Core => (k.interests, k.subscriptions, k.watched)) h.core
    | hold id seat hm => exact absurd hm (htake id seat)
    | letGo handle sub hm => exact absurd hm (hgiveUp handle)
    | tick | world | perform | accept | fetch | drop => rfl

/-- The connection is told something, which concerns nothing that is held. -/
theorem holdings_enqueue (c : Client) (command : Command) :
    (c.enqueue command).1.holdings = c.holdings :=
  (course_enqueue (m := .connect) command).holdings nofun nofun

/-- **The frame that a move has the connection send** for a topic. -/
def frameAt (c : Client) : Move → Option ClientFrame
  | .subscribe id _ => (c.engine.interests.acquire (.game id)).2
  | .unsubscribe handle =>
    c.subscriptions[handle]?.join.bind fun sub => (c.engine.interests.release sub.topic).2
  | _ => none

/-- **The frames that a run has the connection send** for topics. -/
def frames (c : Client) : List Move → List ClientFrame
  | [] => []
  | m :: later => (c.frameAt m).toList ++ (c.step m).1.frames later

theorem frames_append (c : Client) (past later : List Move) :
    c.frames (past ++ later) = c.frames past ++ (c.run past).1.frames later := by
  induction past generalizing c with
  | nil => rfl
  | cons m past ih => rw [List.cons_append, frames, ih, frames, run_cons, List.append_assoc]

theorem frames_concat (c : Client) (moves : List Move) (m : Move) :
    c.frames (moves ++ [m]) = c.frames moves ++ ((c.run moves).1.frameAt m).toList := by
  rw [frames_append, frames, frames, List.append_nil]

/-- The frame of a subscription that is given up. -/
theorem frame_giveUp (e : Engine) (sub : Subscription) :
    (e.unsubscribe sub).2 = (e.interests.release sub.topic).2 := by
  unfold Engine.unsubscribe
  rfl

/-- **What a move does to what is held.** -/
theorem holdings_step (h : c.InTurn) (m : Move) :
    (c.step m).1.holdings = c.holdings ∧ c.frameAt m = none
      ∨ (∃ id seat, m = .subscribe id seat ∧ (c.step m).1.holdings = (c.take id seat).holdings)
      ∨ ∃ handle sub, m = .unsubscribe handle ∧ c.subscriptions[handle]? = some (some sub)
        ∧ (c.step m).1.holdings = (c.giveUp handle sub).holdings := by
  cases m with
  | subscribe id seat =>
    refine .inr (.inl ⟨id, seat, rfl, ?_⟩)
    simp only [step, subscribe]
    split
    · exact holdings_enqueue ..
    · rfl
  | unsubscribe handle =>
    simp only [step, unsubscribe, frameAt]
    split
    · rename_i sub hsub
      refine .inr (.inr ⟨handle, sub, rfl, hsub, ?_⟩)
      split
      · exact holdings_enqueue ..
      · rfl
    · rename_i hnone
      refine .inl ⟨rfl, ?_⟩
      cases hget : c.subscriptions[handle]? with
      | none => rfl
      | some handle? =>
        cases handle? with
        | none => rfl
        | some sub => exact absurd hget (hnone sub)
  | _ =>
    refine .inl ⟨(h.course _).holdings (fun _ _ heq => ?_) (fun _ heq => ?_), rfl⟩
    all_goals cases heq

/-- **What is told the connection** when a subscription is taken or given up is
that frame. -/
theorem link_subscribe (c : Client) (id : EntityId) (seat : Option Seat) :
    (c.step (.subscribe id seat)).1.link
      = (c.frameAt (.subscribe id seat)).elim c.link fun f => (c.link.enqueue (.send f)).1 := by
  have hframe : ((c.engine.watch id seat).subscribe (.game id)).2
      = c.frameAt (.subscribe id seat) := rfl
  simp only [step, subscribe, hframe]
  cases c.frameAt (.subscribe id seat) with
  | none => rfl
  | some f => exact link_onLink ..

theorem link_unsubscribe (c : Client) (handle : Nat) :
    (c.step (.unsubscribe handle)).1.link
      = (c.frameAt (.unsubscribe handle)).elim c.link fun f => (c.link.enqueue (.send f)).1 := by
  simp only [step, unsubscribe, frameAt]
  split
  · rename_i sub hsub
    rw [hsub, Option.join_some, Option.bind_some, frame_giveUp]
    cases (c.engine.interests.release sub.topic).2 with
    | none => rfl
    | some f => exact link_onLink ..
  · rename_i hnone
    cases hget : c.subscriptions[handle]? with
    | none => rfl
    | some handle? =>
      cases handle? with
      | none => rfl
      | some sub => exact absurd hget (hnone sub)

/-! ### Counts and watches -/

/-- **Counts and watches are those of the live handles.** -/
structure Counted (c : Client) : Prop where
  tidy : c.engine.interests.Tidy
  counted : ∀ topic, c.engine.interests.interest topic = c.live topic
  watched : ∀ id, id ∈ c.engine.turns.watches.keys ↔ 0 < c.live (.game id)
  /-- Whichever handle is given up last ends the watch. -/
  endsWatch : ∀ sub, some sub ∈ c.subscriptions → sub.endsWatch = true

theorem counted_start (config : Config) (host : Host.Condition) : (start config host).Counted where
  tidy := ⟨Table.distinct_empty, nofun⟩
  counted _ := rfl
  watched _ := iff_of_false List.not_mem_nil (Nat.lt_irrefl 0)
  endsWatch _ := fun h => absurd h List.not_mem_nil

theorem Counted.of_holdings (h : c.Counted) (heq : c'.holdings = c.holdings) : c'.Counted := by
  obtain ⟨hinterests, hrest⟩ := Prod.mk.inj heq
  obtain ⟨hhandles, hwatched⟩ := Prod.mk.inj hrest
  have hinterests : c'.engine.interests = c.engine.interests := hinterests
  have hhandles : c'.subscriptions = c.subscriptions := hhandles
  have hwatched : c'.engine.turns.watches.keys = c.engine.turns.watches.keys := hwatched
  refine ⟨hinterests ▸ h.tidy, fun topic => ?_, fun id => ?_, hhandles ▸ h.endsWatch⟩
  · rw [live, hinterests, hhandles]
    exact h.counted topic
  · rw [live, hwatched, hhandles]
    exact h.watched id

theorem live_take (c : Client) (id : EntityId) (seat : Option Seat) (topic : Topic) :
    (c.take id seat).live topic = if .game id = topic then c.live topic + 1 else c.live topic := by
  simp only [live, take, List.countP_append, List.countP_singleton, Option.any_some,
    decide_eq_true_eq]
  split <;> rfl

/-- **A subscription is taken.** -/
theorem Counted.take (h : c.Counted) (id : EntityId) (seat : Option Seat) :
    (c.take id seat).Counted where
  tidy := h.tidy.change (.hold (.game id))
  counted topic := by
    rw [live_take, ← h.counted]
    refine (c.engine.interests.interest_acquire (.game id) topic).trans ?_
    split <;> rfl
  watched j := by
    have hkeys : (c.take id seat).engine.turns.watches.keys
        = if id ∈ c.engine.turns.watches.keys then c.engine.turns.watches.keys
          else c.engine.turns.watches.keys ++ [id] :=
      c.engine.turns.watches.keys_insert id _
    have hmem : j ∈ (c.take id seat).engine.turns.watches.keys
        ↔ j ∈ c.engine.turns.watches.keys ∨ j = id := by
      rw [hkeys]
      split
      · rename_i hid
        exact ⟨.inl, fun hj => hj.elim (fun hj => hj) fun hj => hj ▸ hid⟩
      · rw [List.mem_append, List.mem_singleton]
    rw [hmem, h.watched, live_take]
    by_cases hj : j = id
    · rw [hj, if_pos rfl]
      exact iff_of_true (.inr rfl) (Nat.succ_pos _)
    · rw [if_neg fun heq => hj (Topic.game.inj heq).symm]
      exact or_iff_left hj
  endsWatch sub hsub := by
    rcases List.mem_append.mp hsub with hsub | hsub
    · exact h.endsWatch sub hsub
    · cases List.mem_singleton.mp hsub
      rfl

/-- A handle that is live counts. -/
theorem live_pos {handle : Nat} {sub : Subscription}
    (hsub : c.subscriptions[handle]? = some (some sub)) : 0 < c.live sub.topic :=
  List.countP_pos_iff.mpr ⟨some sub, List.mem_of_getElem? hsub, by simp⟩

theorem live_giveUp {handle : Nat} {sub : Subscription}
    (hsub : c.subscriptions[handle]? = some (some sub)) (topic : Topic) :
    (c.giveUp handle sub).live topic
      = if sub.topic = topic then c.live topic - 1 else c.live topic := by
  obtain ⟨hlt, hget⟩ := List.getElem?_eq_some_iff.mp hsub
  simp only [live, giveUp]
  rw [List.countP_set hlt, hget]
  simp only [Option.any_some, Option.any_none, decide_eq_true_eq]
  split <;> rfl

theorem interests_giveUp (c : Client) (handle : Nat) (sub : Subscription) :
    (c.giveUp handle sub).engine.interests = (c.engine.interests.release sub.topic).1 := by
  simp only [giveUp, Engine.unsubscribe]
  split <;> rfl

/-- A handle of the right kind ends the watch if it is the last one. -/
theorem watched_giveUp (c : Client) (handle : Nat) {sub : Subscription}
    (hends : sub.endsWatch = true) :
    (c.giveUp handle sub).engine.turns.watches.keys
      = if c.engine.interests.interest sub.topic = 1 then
          c.engine.turns.watches.keys.filter (· ≠ sub.topic.entityId)
        else c.engine.turns.watches.keys := by
  simp only [giveUp, Engine.unsubscribe, hends, and_true, Interests.isSome_release,
    decide_eq_true_eq]
  split
  · exact c.engine.turns.watches.keys_erase sub.topic.entityId
  · rfl

/-- **A subscription is given up.** The watch ends exactly if no other handle of
the topic is live. -/
theorem Counted.giveUp (h : c.Counted) {handle : Nat} {sub : Subscription}
    (hsub : c.subscriptions[handle]? = some (some sub)) : (c.giveUp handle sub).Counted where
  tidy := by
    rw [interests_giveUp]
    exact h.tidy.change (.letGo sub.topic)
  counted topic := by
    rw [live_giveUp hsub, ← h.counted, interests_giveUp]
    refine (c.engine.interests.interest_release sub.topic topic).trans ?_
    split <;> rfl
  watched j := by
    have hpos := live_pos hsub
    rw [watched_giveUp c handle (h.endsWatch sub (List.mem_of_getElem? hsub)), h.counted,
      live_giveUp hsub]
    obtain ⟨⟨id⟩, endsWatch⟩ := sub
    dsimp only [Topic.entityId] at hpos ⊢
    by_cases hj : j = id
    · subst hj
      rw [if_pos rfl]
      split
      · rename_i hone
        simp [hone]
      · rw [h.watched]
        omega
    · rw [if_neg fun heq => hj (Topic.game.inj heq).symm]
      split
      · rw [List.mem_filter, h.watched]
        exact and_iff_left (decide_eq_true hj)
      · exact h.watched j
  endsWatch sub' hsub' := by
    rcases List.mem_or_eq_of_mem_set hsub' with hmem | heq
    · exact h.endsWatch sub' hmem
    · cases heq

theorem Counted.step (h : c.Counted) (hturn : c.InTurn) (m : Move) : (c.step m).1.Counted := by
  rcases c.holdings_step hturn m with ⟨heq, -⟩ | ⟨id, seat, -, heq⟩ | ⟨handle, sub, -, hsub, heq⟩
  · exact h.of_holdings heq
  · exact (h.take id seat).of_holdings heq
  · exact (h.giveUp hsub).of_holdings heq

theorem counted_run (config : Config) (host : Host.Condition) (moves : List Move) :
    ((start config host).run moves).1.Counted := by
  induction moves using List.reverseRecOn with
  | nil => exact counted_start config host
  | append_singleton moves m ih =>
    rw [run_concat]
    exact ih.step (inTurn_run (inTurn_start config host) moves) m

/-- **What a move does to interest**, and the frame that tells it. -/
theorem Counted.turn_step (h : c.Counted) (hturn : c.InTurn) (m : Move) :
    c.engine.interests.Turn (c.step m).1.engine.interests (c.frameAt m) := by
  have hinterests {d : Client} (heq : (c.step m).1.holdings = d.holdings) :
      (c.step m).1.engine.interests = d.engine.interests := congrArg Prod.fst heq
  rcases c.holdings_step hturn m with
    ⟨heq, hnone⟩ | ⟨id, seat, rfl, heq⟩ | ⟨handle, sub, rfl, hsub, heq⟩
  · rw [hinterests heq, hnone]
    exact c.engine.interests.turn_refl
  · rw [hinterests heq]
    exact h.tidy.turn_acquire (.game id)
  · rw [hinterests heq, interests_giveUp, frameAt, hsub]
    exact c.engine.interests.turn_release sub.topic

/-! ### Order -/

/-- How many hold a topic after the first moves. -/
def interestAfter (c : Client) (moves : List Move) (topic : Topic) : Nat :=
  (c.run moves).1.engine.interests.interest topic

/-- **A topic is held since a move**: with that move the count went from zero to
one, and it has not been zero since. -/
structure HeldSince (c : Client) (moves : List Move) (topic : Topic) (n : Nat) : Prop where
  lt : n < moves.length
  before : c.interestAfter (moves.take n) topic = 0
  begun : c.interestAfter (moves.take (n + 1)) topic = 1
  since : ∀ k, n < k → k ≤ moves.length → c.interestAfter (moves.take k) topic ≠ 0

/-- A topic that is still held after another move is held since then. -/
theorem HeldSince.concat {n : Nat} (h : c.HeldSince moves topic n)
    (hheld : c.interestAfter (moves ++ [m]) topic ≠ 0) : c.HeldSince (moves ++ [m]) topic n where
  lt := by
    rw [List.length_append]
    exact Nat.lt_add_right _ h.lt
  before := by
    rw [List.take_append_of_le_length h.lt.le]
    exact h.before
  begun := by
    rw [List.take_append_of_le_length h.lt]
    exact h.begun
  since k hlt hle := by
    rcases Nat.lt_or_ge moves.length k with hk | hk
    · rwa [List.take_of_length_le (by rwa [List.length_append])]
    · rw [List.take_append_of_le_length hk]
      exact h.since k hlt hk

/-- A topic is held since the last move if interest in it begins with that. -/
theorem heldSince_concat (hbefore : c.interestAfter moves topic = 0)
    (hafter : c.interestAfter (moves ++ [m]) topic = 1) :
    c.HeldSince (moves ++ [m]) topic moves.length where
  lt := by simp
  before := by rwa [List.take_left]
  begun := by rwa [List.take_of_length_le (by simp)]
  since k hlt hle := by
    rw [List.take_of_length_le (by rwa [List.length_append]), hafter]
    exact Nat.one_ne_zero

/-- **The topics are in the order in which they were begun to be held.** -/
structure InOrder (c : Client) (moves : List Move) (since : Topic → Nat) : Prop where
  held : ∀ topic ∈ (c.run moves).1.engine.interests.topics, c.HeldSince moves topic (since topic)
  ordered : (c.run moves).1.engine.interests.topics.Pairwise fun t t' => since t < since t'

/-- A move with which no interest begins keeps the order. -/
theorem InOrder.concat {since : Topic → Nat} (h : c.InOrder moves since)
    (htidy : (c.run (moves ++ [m])).1.engine.interests.Tidy)
    (hsub : (c.run (moves ++ [m])).1.engine.interests.topics.Sublist
      (c.run moves).1.engine.interests.topics) : c.InOrder (moves ++ [m]) since where
  held topic hmem := (h.held topic (hsub.subset hmem)).concat ((htidy.mem_topics topic).mp hmem)
  ordered := h.ordered.sublist hsub

/-- A topic that interest begins in comes last. -/
theorem InOrder.begin {since : Topic → Nat} (h : c.InOrder moves since)
    (htidy : (c.run (moves ++ [m])).1.engine.interests.Tidy)
    (htopics : (c.run (moves ++ [m])).1.engine.interests.topics
      = (c.run moves).1.engine.interests.topics ++ [topic])
    (hnew : topic ∉ (c.run moves).1.engine.interests.topics)
    (hbefore : c.interestAfter moves topic = 0)
    (hafter : c.interestAfter (moves ++ [m]) topic = 1) :
    c.InOrder (moves ++ [m]) (Function.update since topic moves.length) := by
  have hold {t : Topic} (ht : t ∈ (c.run moves).1.engine.interests.topics) :
      Function.update since topic moves.length t = since t :=
    Function.update_of_ne (fun heq : t = topic => hnew (heq ▸ ht)) _ _
  refine ⟨fun t ht => ?_, ?_⟩
  · have hheld : c.interestAfter (moves ++ [m]) t ≠ 0 := (htidy.mem_topics t).mp ht
    rw [htopics, List.mem_append, List.mem_singleton] at ht
    rcases ht with ht | rfl
    · rw [hold ht]
      exact (h.held t ht).concat hheld
    · rw [Function.update_self]
      exact heldSince_concat hbefore hafter
  · rw [htopics, List.pairwise_append]
    refine ⟨h.ordered.imp_of_mem fun ht ht' hlt => ?_, List.pairwise_singleton _ _,
      fun t ht t' ht' => ?_⟩
    · rwa [hold ht, hold ht']
    · rw [List.mem_singleton.mp ht', hold ht, Function.update_self]
      exact (h.held t ht).lt

theorem exists_inOrder_run (config : Config) (host : Host.Condition) (moves : List Move) :
    ∃ since, (start config host).InOrder moves since := by
  induction moves using List.reverseRecOn with
  | nil => exact ⟨fun _ => 0, fun _ hmem => absurd hmem List.not_mem_nil, List.Pairwise.nil⟩
  | append_singleton moves m ih =>
    obtain ⟨since, hsince⟩ := ih
    have hcounted := counted_run config host moves
    have htidy := (counted_run config host (moves ++ [m])).tidy
    have hturn := hcounted.turn_step (inTurn_run (inTurn_start config host) moves) m
    have hrun : ((start config host).run (moves ++ [m])).1
        = (((start config host).run moves).1.step m).1 := by
      rw [run_concat]
      rfl
    rw [← hrun] at hturn
    generalize hframe : ((start config host).run moves).1.frameAt m = frame at hturn
    cases hturn with
    | keeps topics => exact ⟨since, hsince.concat htidy (topics ▸ List.Sublist.refl _)⟩
    | begins topic topics before after =>
      have hnew : topic ∉ ((start config host).run moves).1.engine.interests.topics :=
        fun hmem => (hcounted.tidy.mem_topics topic).mp hmem before
      exact ⟨_, hsince.begin htidy topics hnew before after⟩
    | ends topic topics => exact ⟨since, hsince.concat htidy (topics ▸ List.filter_sublist)⟩

/-! ### Frames -/

/-- **Subscribing and unsubscribing in turn**, beginning with the former. -/
def Alternate (topic : Topic) (frames : List ClientFrame) : Prop :=
  ∀ i f, frames[i]? = some f → f = if i % 2 = 0 then .subscribe topic else .unsubscribe topic

theorem Alternate.concat {frames : List ClientFrame} (h : Alternate topic frames)
    {f : ClientFrame}
    (hf : f = if frames.length % 2 = 0 then .subscribe topic else .unsubscribe topic) :
    Alternate topic (frames ++ [f]) := by
  intro i g hg
  rcases Nat.lt_trichotomy i frames.length with hi | rfl | hi
  · rw [List.getElem?_append_left hi] at hg
    exact h i g hg
  · rw [List.getElem?_concat_length] at hg
    exact Option.some.inj hg ▸ hf
  · rw [List.getElem?_eq_none (by rwa [List.length_append])] at hg
    cases hg

/-- The frames about a topic. -/
def framesAbout (c : Client) (topic : Topic) (moves : List Move) : List ClientFrame :=
  (c.frames moves).filter (Interests.isAbout topic)

/-- **The frames about a topic alternate**, and the last one says whether the
topic is held. -/
theorem alternate_run (config : Config) (host : Host.Condition) (topic : Topic)
    (moves : List Move) :
    Alternate topic ((start config host).framesAbout topic moves)
      ∧ (((start config host).framesAbout topic moves).length % 2 = 1
        ↔ (start config host).interestAfter moves topic ≠ 0) := by
  induction moves using List.reverseRecOn with
  | nil => exact ⟨nofun, iff_of_false nofun fun hne => hne rfl⟩
  | append_singleton moves m ih =>
    obtain ⟨halternate, hlast⟩ := ih
    have hturn := (counted_run config host moves).turn_step
      (inTurn_run (inTurn_start config host) moves) m
    have hrun : (start config host).interestAfter (moves ++ [m]) topic
        = (((start config host).run moves).1.step m).1.engine.interests.interest topic := by
      rw [interestAfter, run_concat]
      rfl
    have hframes : (start config host).framesAbout topic (moves ++ [m])
        = (start config host).framesAbout topic moves
          ++ (((start config host).run moves).1.frameAt m).toList.filter
            (Interests.isAbout topic) := by
      rw [framesAbout, frames_concat, List.filter_append]
      rfl
    rw [hframes, hrun]
    rcases hturn.about topic with ⟨hnone, hsame⟩ | ⟨hfirst, hbefore, hafter⟩ |
      ⟨hlatest, hbefore, hafter⟩
    · rw [hnone, List.append_nil]
      exact ⟨halternate, hlast.trans (not_congr hsame.symm)⟩
    · have heven : ((start config host).framesAbout topic moves).length % 2 = 0 :=
        (Nat.mod_two_eq_zero_or_one _).resolve_right fun hodd => hlast.mp hodd hbefore
      rw [hfirst]
      refine ⟨halternate.concat (by rw [if_pos heven]), iff_of_true ?_ hafter⟩
      rw [List.length_append, List.length_singleton]
      omega
    · have hodd : ((start config host).framesAbout topic moves).length % 2 = 1 := hlast.mpr hbefore
      rw [hlatest]
      refine ⟨halternate.concat (by rw [if_neg (hodd ▸ Nat.one_ne_zero)]),
        iff_of_false ?_ (not_not_intro hafter)⟩
      rw [List.length_append, List.length_singleton]
      omega

/-! ### All of it -/

/-- **What a run has to do with the handles that are live after it.** -/
structure InStep (c : Client) (moves : List Move) : Prop where
  /-- The interest of a topic is the number of its live handles. -/
  counted : ∀ topic, c.interestAfter moves topic = (c.run moves).1.live topic
  /-- Whichever handle is given up next, its topic counts at least one. -/
  positive : ∀ (handle : Nat) (sub : Subscription),
    (c.run moves).1.subscriptions[handle]? = some (some sub) →
      0 < c.interestAfter moves sub.topic
  /-- A count is never left at zero. -/
  ne_zero : ∀ topic, (c.run moves).1.engine.interests.counts.get? topic ≠ some 0
  /-- The topics are those with a live handle. -/
  topics : ∀ topic, topic ∈ (c.run moves).1.engine.interests.topics
    ↔ 0 < (c.run moves).1.live topic
  /-- Each topic is there once. -/
  nodup : (c.run moves).1.engine.interests.topics.Nodup
  /-- The topics are in the order in which their counts last went from zero to one. -/
  order : ∃ since, c.InOrder moves since
  /-- The frames about a topic alternate, beginning with a subscription. -/
  alternate : ∀ topic, Alternate topic (c.framesAbout topic moves)
  /-- The last frame about a topic is a subscription exactly if a handle is live. -/
  last : ∀ topic, (c.framesAbout topic moves).length % 2 = 1 ↔ 0 < (c.run moves).1.live topic
  /-- An entity is watched exactly while one of its handles is live. -/
  watched : ∀ id, (c.run moves).1.engine.turns.isWatching id = true
    ↔ 0 < (c.run moves).1.live (.game id)
  /-- The frames are what taking and giving up subscriptions has the connection
  send. -/
  sent : ∀ m, (∃ id seat, m = .subscribe id seat) ∨ (∃ handle, m = .unsubscribe handle) →
    ((c.run moves).1.step m).1.link = ((c.run moves).1.frameAt m).elim (c.run moves).1.link
      fun f => ((c.run moves).1.link.enqueue (.send f)).1

/-- **Counts, order, frames and watches keep step with the handles**, in whichever
order subscriptions to whichever entities are taken and given up, and whatever
else the client does. -/
theorem holders_keep_step (config : Config) (host : Host.Condition) (moves : List Move) :
    (start config host).InStep moves := by
  have hcounted := counted_run config host moves
  have hne (topic : Topic) : (start config host).interestAfter moves topic ≠ 0
      ↔ 0 < ((start config host).run moves).1.live topic := by
    rw [interestAfter, hcounted.counted]
    exact Nat.pos_iff_ne_zero.symm
  refine ⟨hcounted.counted,
    fun handle sub hsub => Nat.pos_of_ne_zero ((hne sub.topic).mpr (live_pos hsub)),
    hcounted.tidy.ne_zero, fun topic => (hcounted.tidy.mem_topics topic).trans (hne topic),
    hcounted.tidy.distinct, exists_inOrder_run config host moves,
    fun topic => (alternate_run config host topic moves).1,
    fun topic => (alternate_run config host topic moves).2.trans (hne topic), fun id => ?_, ?_⟩
  · rw [← hcounted.watched, Table.mem_keys_iff]
    rfl
  · rintro m (⟨id, seat, rfl⟩ | ⟨handle, rfl⟩)
    · exact link_subscribe ..
    · exact link_unsubscribe ..

end Client

end LiveSync
