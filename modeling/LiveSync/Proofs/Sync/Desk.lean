import LiveSync.Proofs.Sync.FailedCommand
import LiveSync.Proofs.Sync.Gates

/-!
# The coordinator and its cache

A coordinator keeps the entries that the guesses of its commands replaced, and
puts them back into a cache that has moved on. That does no harm, because the
cache still knows each of them (`Cache.Knows`) – provided that the cache
changes by what happens to caches, and by nothing else (`Honest`).

Operations that are allowed only in some states make up the runs of this
module: an inductive relation (`Coordinator.Runs`) with a condition on each
operation and the state it is performed in.
-/

namespace LiveSync

namespace Coordinator

open Cache

variable {d d' : WithCache}

/-! ### Runs of allowed operations -/

/-- **One state is reached from another** by operations each of which is
allowed where it is performed. -/
inductive Runs (allowed : WithCache → Op → Prop) (d : WithCache) : WithCache → Prop
  | refl : Runs allowed d d
  | step {d' : WithCache} {op : Op} (h : Runs allowed d d') (ho : allowed d' op) :
    Runs allowed d (perform d' op)

/-- **What each allowed operation keeps, a run keeps.** -/
theorem Runs.induction {allowed : WithCache → Op → Prop} {P : WithCache → Prop}
    (h : Runs allowed d d') (start : P d) (step : ∀ d op, allowed d op → P d → P (perform d op)) :
    P d' := by
  induction h with
  | refl => exact start
  | step _ ho ih => exact step _ _ ho ih

/-- The cache changes by something that happens in the background. -/
def Honest (d : WithCache) (op : Op) : Prop :=
  ∀ cache, op = .world cache → ∃ b : Background, cache = d.2.meet b

/-! ### Sound desks -/

/-- **What holds of a coordinator and its cache at any time**: the cache is
sound, the coordinator is orderly, and what the guess of a command replaced is
an entry of its entity that the cache still knows. -/
structure Sound (d : WithCache) : Prop where
  cache : d.2.Sound
  orderly : d.1.Orderly
  replaced : ∀ s ∈ d.1.submissions, ∀ route previous deadline,
    s.stage = .dispatched route previous deadline →
      previous.entityId = s.mutation.entityId ∧ d.2.Knows previous

theorem sound_start : Sound (empty, .empty) where
  cache := sound_empty
  orderly := orderly_empty
  replaced := nofun

/-- What was replaced stays known while the server's entries advance. -/
theorem Sound.replaced_of_grows (h : Sound d) {cache : Cache} (hg : d.2.Grows cache)
    {s : Submission} (hs : s ∈ d.1.submissions) {route : Route} {previous : Entry}
    {deadline : Clock} (hst : s.stage = .dispatched route previous deadline) :
    previous.entityId = s.mutation.entityId ∧ cache.Knows previous :=
  (h.replaced s hs route previous deadline hst).imp_right fun hk => hk.grows h.cache hg

/-- An operation by which no command is dispatched. -/
theorem Sound.of_leaves (h : Sound d) {op : Op} (hop : op.leaves = true)
    (hcache : (perform d op).2.Sound ∧ d.2.Grows (perform d op).2) : Sound (perform d op) where
  cache := hcache.1
  orderly := h.orderly.perform op
  replaced := fun _ hs _ _ _ hst =>
    h.replaced_of_grows hcache.2 (mem_of_mem_perform hop hs) hst

/-! A command's turn, step by step: what it shows is what `beginOptimistic`
shows, and what it replaced was shown. -/

theorem enter_of_some (k : Coordinator) {c : Cache} {s : Submission} {slot : Slot}
    (hslot : c.slot? s.mutation.entityId = some slot) (route : Route) (now : Instant)
    (deadline : Clock) :
    (k.enter c s route now deadline).state
      = (k.setStage s.caller (.dispatched route slot.current deadline),
          (c.beginOptimistic s.mutation.entityId
            (Mutation.speculate s.mutation.action) now).state) := by
  have hres : (c.beginOptimistic s.mutation.entityId
      (Mutation.speculate s.mutation.action) now).result = .ok slot.current := by
    rw [result_beginOptimistic, current?, hslot]
    rfl
  simp only [enter, hres]
  rfl

theorem enter_of_none (k : Coordinator) {c : Cache} {s : Submission}
    (hslot : c.slot? s.mutation.entityId = none) (route : Route) (now : Instant)
    (deadline : Clock) :
    (k.enter c s route now deadline).state = (k.forget s.caller, c) := by
  have hbegin : c.beginOptimistic s.mutation.entityId (Mutation.speculate s.mutation.action) now
      = .silent c (.error (.notLoaded s.mutation.entityId)) := by
    rw [beginOptimistic, hslot]
  simp only [enter, hbegin]
  rfl

/-- A command that comes has replaced nothing yet. -/
theorem Sound.join (h : Sound d) {caller : CallId} (hnew : d.1.find? caller = none)
    (m : Mutation) : Sound (d.1.join caller m, d.2) where
  cache := h.cache
  orderly := h.orderly.join hnew m
  replaced := fun s hs route previous deadline hst => by
    rw [submissions_join, List.mem_append, List.mem_singleton] at hs
    rcases hs with hs | rfl
    · exact h.replaced s hs route previous deadline hst
    · cases hst

theorem Sound.enter (h : Sound d) {s : Submission} (hs : s ∈ d.1.submissions)
    (hfree : d.1.isFree s.gate = true) (route : Route) (now : Instant) (deadline : Clock) :
    Sound (d.1.enter d.2 s route now deadline).state := by
  cases hslot : d.2.slot? s.mutation.entityId with
  | none =>
    rw [enter_of_none d.1 hslot]
    exact ⟨h.cache, h.orderly.forget s.caller, fun t ht _ _ _ hst =>
      h.replaced t (mem_forget.mp ht).1 _ _ _ hst⟩
  | some slot =>
    have hcache := h.cache.beginOptimistic s.mutation.entityId
      (Mutation.speculate s.mutation.action) now
    rw [enter_of_some d.1 hslot]
    refine ⟨hcache.1, h.orderly.setStage hs hfree _, fun t ht r p dl hst => ?_⟩
    obtain ⟨hcases, u, hu, hcu, hmu, -⟩ := of_mem_setStage ht
    rcases hcases with ⟨hc, hst'⟩ | ⟨hmem, -⟩
    · -- the command itself: what it replaced was shown just now
      obtain ⟨-, rfl, -⟩ := Submission.Stage.dispatched.inj (hst.symm.trans hst')
      obtain rfl := h.orderly.eq_of_caller hu hs (hcu.trans hc)
      rw [← hmu]
      exact ⟨(h.cache _ slot hslot).current_entityId,
        (h.cache.knows_current hslot).grows h.cache hcache.2.grows⟩
    · exact h.replaced_of_grows hcache.2.grows hmem hst

/-- **Every honest operation keeps a desk sound.** -/
theorem Sound.perform (h : Sound d) {op : Op} (ho : Honest d op) :
    Sound (Coordinator.perform d op) := by
  have hsame : d.2.Sound ∧ d.2.Grows d.2 := ⟨h.cache, (Quiet.refl _).grows⟩
  cases op with
  | world cache =>
    obtain ⟨b, rfl⟩ := ho cache rfl
    exact h.of_leaves rfl (h.cache.meet b)
  | join caller m =>
    rcases perform_join_cases d caller m with heq | ⟨hnew, heq⟩ <;> rw [heq]
    · exact h
    · exact h.join hnew m
  | enter caller route now deadline =>
    rcases perform_enter_cases d caller route now deadline with heq | ⟨s, hfind, hfree, heq⟩ <;>
      rw [heq]
    · exact h
    · exact h.enter (mem_of_find? hfind).1 hfree route now deadline
  | resolve caller result deadline =>
    refine h.of_leaves rfl ?_
    rcases perform_resolve_cases d caller result deadline with
      heq | ⟨s, route, previous, _, hfind, hst, heq⟩ <;> rw [heq]
    · exact hsame
    · cases result with
      | ok receipt => exact hsame
      | error failure =>
        have hknown := (h.replaced s (mem_of_find? hfind).1 route previous _ hst).2
        exact (h.cache.rollback hknown).imp_right Quiet.grows
  | forget caller => exact h.of_leaves rfl hsame
  | wake id now => exact h.of_leaves rfl hsame
  | confirm id failed =>
    refine h.of_leaves rfl ?_
    simp only [Coordinator.perform, confirm]
    split
    · split
      · exact (h.cache.revert id _).imp_right Quiet.grows
      · exact hsame
    · exact hsame
  | shutdown => exact h.of_leaves rfl hsame

theorem Runs.sound (hd : Runs Honest d d') (h : Sound d) : Sound d' :=
  hd.induction h fun _ _ ho hs => hs.perform ho

end Coordinator

end LiveSync
