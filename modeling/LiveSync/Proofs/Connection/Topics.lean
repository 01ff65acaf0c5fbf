import LiveSync.Engine.Interests
import Mathlib.Data.Finset.Basic
import Mathlib.Data.Finset.Lattice.Lemmas

/-!
# Frames about topics

What a server is subscribed to is what the frames make of it, one after
another. For a topic that some frame is about, the last such frame says
whether it is subscribed to; any other topic they leave alone
(`applyFrames_decides`).

So it is one question whether frames lead from the topics that are held to
the topics that are held (`Settled`). They still do when the first ones are
left out (`settled_tail`), and when a change of what is held is followed by
the frame that tells it (`settled_concat`). Holding and letting go of topics
are such changes (`Interests.Tells`).

A new connection knows nothing of all this and is told from the start. For
that the counts must not have leftovers (`Interests.Tidy`): a topic that nobody
holds any more would be subscribed to again on every connection.
-/

namespace LiveSync

open LiveSync.Wire

namespace Connection

/-! ### What a server makes of frames -/

/-- **The topics that are subscribed to** after a frame. -/
def applyFrame (topics : Finset Topic) : ClientFrame → Finset Topic
  | .subscribe topic => insert topic topics
  | .unsubscribe topic => topics.erase topic
  | .hello _ | .command _ _ _ _ => topics

/-- The topics that are subscribed to after frames. -/
def applyFrames (frames : List ClientFrame) (topics : Finset Topic) : Finset Topic :=
  frames.foldl applyFrame topics

variable {frames : List ClientFrame} {frame : ClientFrame} {topics topics' : Finset Topic}
  {topic : Topic}

@[simp] theorem applyFrames_nil (topics : Finset Topic) : applyFrames [] topics = topics := rfl

@[simp] theorem applyFrames_cons (frame : ClientFrame) (frames : List ClientFrame)
    (topics : Finset Topic) :
    applyFrames (frame :: frames) topics = applyFrames frames (applyFrame topics frame) := rfl

theorem applyFrames_append (frames frames' : List ClientFrame) (topics : Finset Topic) :
    applyFrames (frames ++ frames') topics = applyFrames frames' (applyFrames frames topics) :=
  List.foldl_append

/-- A frame decides about its own topic and leaves every other alone. -/
theorem applyFrame_decides (frame : ClientFrame) (topic : Topic) :
    (∀ topics, topic ∈ applyFrame topics frame) ∨ (∀ topics, topic ∉ applyFrame topics frame)
      ∨ ∀ topics, topic ∈ applyFrame topics frame ↔ topic ∈ topics := by
  cases frame with
  | subscribe t =>
    by_cases h : topic = t
    · exact .inl fun topics => h ▸ Finset.mem_insert_self t topics
    · exact .inr (.inr fun topics => Finset.mem_insert.trans (or_iff_right h))
  | unsubscribe t =>
    by_cases h : topic = t
    · exact .inr (.inl fun topics => h ▸ Finset.notMem_erase t topics)
    · exact .inr (.inr fun topics => Finset.mem_erase.trans (and_iff_right h))
  | hello protocol => exact .inr (.inr fun _ => .rfl)
  | command request id version action => exact .inr (.inr fun _ => .rfl)

/-- **The last frame about a topic decides**, and frames about others leave
it alone. -/
theorem applyFrames_decides (frames : List ClientFrame) (topic : Topic) :
    (∀ topics, topic ∈ applyFrames frames topics) ∨ (∀ topics, topic ∉ applyFrames frames topics)
      ∨ ∀ topics, topic ∈ applyFrames frames topics ↔ topic ∈ topics := by
  induction frames with
  | nil => exact .inr (.inr fun _ => .rfl)
  | cons frame frames ih =>
    simp only [applyFrames_cons]
    rcases ih with h | h | h
    · exact .inl fun _ => h _
    · exact .inr (.inl fun _ => h _)
    · simp only [h]
      exact applyFrame_decides frame topic

/-- **Frames that lead from the topics that are held to themselves.** -/
def Settled (frames : List ClientFrame) (topics : Finset Topic) : Prop :=
  applyFrames frames topics = topics

theorem settled_nil (topics : Finset Topic) : Settled [] topics := rfl

/-- The first frame may be left out. -/
theorem settled_tail (h : Settled (frame :: frames) topics) : Settled frames topics := by
  ext topic
  have hmem : topic ∈ applyFrames frames (applyFrame topics frame) ↔ topic ∈ topics :=
    Finset.ext_iff.mp h topic
  rcases applyFrames_decides frames topic with hd | hd | hd
  · exact iff_of_true (hd _) (hmem.mp (hd _))
  · exact iff_of_false (hd _) (mt hmem.mpr (hd _))
  · exact hd _

/-- Any first frames may be left out. -/
theorem settled_of_append {frames' : List ClientFrame} (h : Settled (frames' ++ frames) topics) :
    Settled frames topics := by
  induction frames' with
  | nil => exact h
  | cons frame frames' ih => exact ih (settled_tail h)

/-- A frame may be added together with the change it reports. -/
theorem settled_concat (h : Settled frames topics) (frame : ClientFrame) :
    Settled (frames ++ [frame]) (applyFrame topics frame) := by
  ext topic
  rw [applyFrames_append, applyFrames_cons, applyFrames_nil]
  have hmem : topic ∈ applyFrames frames topics ↔ topic ∈ topics := Finset.ext_iff.mp h topic
  rcases applyFrame_decides frame topic with hf | hf | hf
  · exact iff_of_true (hf _) (hf _)
  · exact iff_of_false (hf _) (hf _)
  · -- the new frame is about another topic, which the change leaves alone too
    rw [hf, hf, ← hmem]
    rcases applyFrames_decides frames topic with hd | hd | hd
    · exact iff_of_true (hd _) (hd _)
    · exact iff_of_false (hd _) (hd _)
    · rw [hd, hd, hf]

/-- Subscribing to topics, one after another. -/
theorem applyFrames_subscribe (held : List Topic) (topics : Finset Topic) :
    applyFrames (held.map .subscribe) topics = topics ∪ held.toFinset := by
  induction held generalizing topics with
  | nil => simp
  | cons topic held ih =>
    rw [List.map_cons, applyFrames_cons, ih, List.toFinset_cons, applyFrame,
      Finset.insert_union, Finset.union_insert]

end Connection

/-! ### What is held -/

namespace Interests

open Connection

/-- The topics that somebody holds, as a set. -/
def held (i : Interests) : Finset Topic := i.topics.toFinset

theorem held_insert (i : Interests) (topic : Topic) (n : Nat) :
    held ⟨i.counts.insert topic n⟩ = insert topic i.held := by
  simp only [held, topics, Table.keys_insert]
  split
  · rename_i hmem
    exact (Finset.insert_eq_of_mem (List.mem_toFinset.mpr hmem)).symm
  · rw [List.toFinset_append, Finset.union_comm]
    rfl

theorem held_erase (i : Interests) (topic : Topic) :
    held ⟨i.counts.erase topic⟩ = i.held.erase topic := by
  ext t
  simp [held, topics, Table.keys_erase, and_comm]

theorem mem_held {i : Interests} {topic : Topic} (h : i.interest topic ≠ 0) : topic ∈ i.held := by
  refine List.mem_toFinset.mpr ((i.counts.mem_keys_iff topic).mpr ?_)
  rw [interest] at h
  cases hget : i.counts.get? topic with
  | none => exact absurd (by rw [hget]; rfl) h
  | some n => rfl

/-- **A change of who holds what is told by its frame**: what is held
afterwards is what the frame, if there is one, makes of what was held. -/
def Tells (i : Interests) (u : Interests × Option ClientFrame) : Prop :=
  u.1.held = applyFrames u.2.toList i.held

theorem tells_acquire (i : Interests) (topic : Topic) : i.Tells (i.acquire topic) := by
  simp only [Tells, acquire, held_insert]
  split
  · rfl
  · rename_i hne
    exact Finset.insert_eq_of_mem (mem_held fun h => hne (by rw [h]))

theorem tells_release (i : Interests) (topic : Topic) : i.Tells (i.release topic) := by
  unfold Tells release
  split
  · rfl
  · exact held_erase i topic
  · rename_i hn
    rw [held_insert]
    exact Finset.insert_eq_of_mem (mem_held (by rw [hn]; exact Nat.succ_ne_zero _))

/-- **A change of who holds what.** -/
inductive Change where
  /-- Somebody holds a topic. -/
  | hold (topic : Topic)
  /-- Somebody lets go of a topic. -/
  | letGo (topic : Topic)
deriving DecidableEq, Repr, Inhabited

/-- What is held after a change. The frame that tells it is left aside. -/
def change (i : Interests) : Change → Interests
  | .hold topic => (i.acquire topic).1
  | .letGo topic => (i.release topic).1

/-- **What is held after changes**, when nothing was held before. -/
def after (changes : List Change) : Interests := changes.foldl change empty

/-- **Counts without leftovers**: no topic has two of them, and none of them
is zero. -/
structure Tidy (i : Interests) : Prop where
  distinct : i.counts.Distinct
  ne_zero : ∀ topic, i.counts.get? topic ≠ some 0

variable {i : Interests}

theorem Tidy.insert (h : i.Tidy) (topic : Topic) (n : Nat) :
    Tidy ⟨i.counts.insert topic (n + 1)⟩ where
  distinct := h.distinct.insert topic (n + 1)
  ne_zero t := by
    rw [Table.get?_insert]
    split
    · exact fun heq => Nat.succ_ne_zero n (Option.some.inj heq)
    · exact h.ne_zero t

theorem Tidy.erase (h : i.Tidy) (topic : Topic) : Tidy ⟨i.counts.erase topic⟩ where
  distinct := h.distinct.erase topic
  ne_zero t := by
    rw [Table.get?_erase]
    split
    · rintro ⟨⟩
    · exact h.ne_zero t

theorem Tidy.change (h : i.Tidy) (c : Change) : (i.change c).Tidy := by
  cases c with
  | hold topic => exact h.insert topic _
  | letGo topic =>
    dsimp only [Interests.change, release]
    split
    · exact h
    · exact h.erase topic
    · exact h.insert topic _

theorem tidy_after (changes : List Change) : (after changes).Tidy := by
  induction changes using List.reverseRecOn with
  | nil => exact ⟨Table.distinct_empty, fun topic => by rintro ⟨⟩⟩
  | append_singleton changes c ih =>
    rw [after, List.foldl_append]
    exact ih.change c

theorem Tidy.mem_topics (h : i.Tidy) (topic : Topic) : topic ∈ i.topics ↔ i.interest topic ≠ 0 := by
  rw [topics, Table.mem_keys_iff, interest]
  cases hget : i.counts.get? topic with
  | none => simp
  | some n =>
    have hn : n ≠ 0 := fun hzero => h.ne_zero topic (hzero ▸ hget)
    simp [hn]

/-- **A new connection subscribes once to each topic that is held**, and to no
other. -/
theorem Tidy.count_resubscribeFrames (h : i.Tidy) (topic : Topic) :
    i.resubscribeFrames.count (.subscribe topic) = if i.interest topic = 0 then 0 else 1 := by
  have hinjective : Function.Injective ClientFrame.subscribe := fun _ _ => ClientFrame.subscribe.inj
  rw [resubscribeFrames, List.count_map_of_injective _ _ hinjective]
  split
  · rename_i hzero
    exact List.count_eq_zero_of_not_mem fun hmem => (h.mem_topics topic).mp hmem hzero
  · rename_i hne
    exact List.count_eq_one_of_mem h.distinct ((h.mem_topics topic).mpr hne)

end Interests

end LiveSync
