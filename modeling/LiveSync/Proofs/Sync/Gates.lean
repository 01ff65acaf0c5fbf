import LiveSync.Sync.Coordinator
import Mathlib.Data.List.Find
import Mathlib.Data.List.Induction
import Mathlib.Data.List.Nodup

/-!
# Commands take turns

A gate is found anew by every command that comes, and with every command the
gates that nobody refers to are discarded. Commands come, get their turn, are
resolved or given up in any order, so what has to be shown is that none of
this ever splits a gate in two, and never lets two entities share one.

A run is a list of operations on a coordinator and its cache
(`Coordinator.Op`). A command may get its turn whenever its gate is free
(`Coordinator.isFree`), whoever came first, so the runs include those of every
order in which a gate may be handed on. Between two operations the cache may
become any other cache.

What carries the induction is that the coordinator is **orderly**: the gate of
each command on its way is the one that the table has for its entity, each gate
is that of one entity only, gates to come are new, and at each gate at most one
command was dispatched (`Coordinator.Orderly`).
-/

namespace LiveSync

namespace Coordinator

variable {k : Coordinator}

/-! ### Runs -/

/-- Whether no command at a gate was dispatched. -/
def isFree (k : Coordinator) (gate : GateId) : Bool :=
  !k.submissions.any fun s => s.gate = gate && s.isDispatched

/-- **What can happen to commands.** -/
inductive Op where
  /-- The cache has changed for other reasons. -/
  | world (cache : Cache)
  /-- A command comes. -/
  | join (caller : CallId) (m : Mutation)
  /-- A command's turn comes. -/
  | enter (caller : CallId) (route : Route) (now : Instant) (deadline : Clock)
  /-- A command is resolved: it was answered, or not in time. -/
  | resolve (caller : CallId) (result : Except Failure.Command Receipt) (watchdogDeadline : Clock)
  /-- A command is given up. -/
  | forget (caller : CallId)
  /-- A watchdog wakes up. -/
  | wake (id : EntityId) (now : Clock)
  /-- The fetch of a watchdog has ended. -/
  | confirm (id : EntityId) (failed : Bool)
  /-- All watchdogs are called off. -/
  | shutdown

/-- **One operation.** A caller has one command at a time, which can get its
turn while its gate is free and can be resolved once it was dispatched; an
operation that is not possible changes nothing. -/
def perform (d : WithCache) : Op → WithCache
  | .world cache => (d.1, cache)
  | .join caller m => if (d.1.find? caller).isSome then d else (d.1.join caller m, d.2)
  | .enter caller route now deadline =>
    match d.1.find? caller with
    | some s =>
      if s.stage = .waiting ∧ d.1.isFree s.gate then (d.1.enter d.2 s route now deadline).state
      else d
    | none => d
  | .resolve caller result watchdogDeadline =>
    match d.1.find? caller with
    | some ⟨_, _, _, .dispatched _ previous _⟩ =>
      (d.1.resolve d.2 caller previous result watchdogDeadline).state
    | _ => d
  | .forget caller => (d.1.forget caller, d.2)
  | .wake id now => ((d.1.wake d.2 id now).1, d.2)
  | .confirm id failed => (d.1.confirm d.2 id failed).state
  | .shutdown => (d.1.shutdown, d.2)

/-- One operation after another. -/
def performAll (d : WithCache) (ops : List Op) : WithCache := ops.foldl perform d

/-- **A run**: one operation after another, from the start. -/
def run (ops : List Op) : WithCache := performAll (empty, .empty) ops

theorem performAll_append (d : WithCache) (ops ops' : List Op) :
    performAll d (ops ++ ops') = performAll (performAll d ops) ops' :=
  List.foldl_append

@[simp] theorem run_concat (ops : List Op) (op : Op) :
    run (ops ++ [op]) = perform (run ops) op :=
  performAll_append _ ops [op]

/-! Each operation on a command is performed if it is possible, and changes
nothing otherwise. -/

section Perform

variable {d : WithCache} {caller : CallId} {s : Submission}

theorem perform_join (hfind : d.1.find? caller = none) (m : Mutation) :
    perform d (.join caller m) = (d.1.join caller m, d.2) := by
  rw [perform, hfind]
  rfl

theorem perform_enter (hfind : d.1.find? caller = some s) (hwaiting : s.stage = .waiting)
    (hfree : d.1.isFree s.gate = true) (route : Route) (now : Instant) (deadline : Clock) :
    perform d (.enter caller route now deadline) = (d.1.enter d.2 s route now deadline).state := by
  rw [perform, hfind]
  exact if_pos ⟨hwaiting, hfree⟩

theorem perform_resolve {route : Route} {previous : Entry} {commandDeadline : Clock}
    (hfind : d.1.find? caller = some s) (hst : s.stage = .dispatched route previous commandDeadline)
    (result : Except Failure.Command Receipt) (deadline : Clock) :
    perform d (.resolve caller result deadline)
      = (d.1.resolve d.2 caller previous result deadline).state := by
  obtain ⟨_, _, _, stage⟩ := s
  obtain rfl := hst
  rw [perform, hfind]

theorem perform_join_cases (d : WithCache) (caller : CallId) (m : Mutation) :
    perform d (.join caller m) = d ∨
      d.1.find? caller = none ∧ perform d (.join caller m) = (d.1.join caller m, d.2) := by
  cases hfind : d.1.find? caller with
  | none => exact .inr ⟨rfl, perform_join hfind m⟩
  | some s =>
    rw [perform, hfind]
    exact .inl rfl

theorem perform_enter_cases (d : WithCache) (caller : CallId) (route : Route) (now : Instant)
    (deadline : Clock) :
    perform d (.enter caller route now deadline) = d ∨
      ∃ s, d.1.find? caller = some s ∧ d.1.isFree s.gate = true
        ∧ perform d (.enter caller route now deadline)
          = (d.1.enter d.2 s route now deadline).state := by
  cases hfind : d.1.find? caller with
  | none =>
    rw [perform, hfind]
    exact .inl rfl
  | some s =>
    by_cases hturn : s.stage = .waiting ∧ d.1.isFree s.gate = true
    · exact .inr ⟨s, rfl, hturn.2, perform_enter hfind hturn.1 hturn.2 route now deadline⟩
    · rw [perform, hfind]
      exact .inl (if_neg hturn)

theorem perform_resolve_cases (d : WithCache) (caller : CallId)
    (result : Except Failure.Command Receipt) (deadline : Clock) :
    perform d (.resolve caller result deadline) = d ∨
      ∃ s route previous commandDeadline, d.1.find? caller = some s
        ∧ s.stage = .dispatched route previous commandDeadline
        ∧ perform d (.resolve caller result deadline)
          = (d.1.resolve d.2 caller previous result deadline).state := by
  cases hfind : d.1.find? caller with
  | none =>
    rw [perform, hfind]
    exact .inl rfl
  | some s =>
    cases hst : s.stage with
    | waiting =>
      obtain ⟨_, _, _, stage⟩ := s
      obtain rfl := hst
      rw [perform, hfind]
      exact .inl rfl
    | dispatched route previous commandDeadline =>
      exact .inr ⟨s, route, previous, commandDeadline, rfl, hst,
        perform_resolve hfind hst result deadline⟩

end Perform

/-! ### Finding commands and gates -/

theorem mem_of_find? {caller : CallId} {s : Submission} (h : k.find? caller = some s) :
    s ∈ k.submissions ∧ s.caller = caller :=
  ⟨List.mem_of_find?_eq_some h, by simpa using List.find?_some h⟩

theorem caller_ne_of_find? {caller : CallId} (h : k.find? caller = none) :
    ∀ s ∈ k.submissions, s.caller ≠ caller :=
  fun s hs heq => List.find?_eq_none.mp h s hs (decide_eq_true heq)

theorem isFree_iff {gate : GateId} :
    k.isFree gate = true ↔ ∀ s ∈ k.submissions, s.isDispatched = true → s.gate ≠ gate := by
  rw [isFree, Bool.not_eq_true', List.any_eq_false]
  refine forall₂_congr fun s _ => ?_
  rw [Bool.and_eq_true, decide_eq_true_iff, not_and']

theorem refersTo_of_mem {s : Submission} (hs : s ∈ k.submissions) : k.refersTo s.gate = true :=
  List.any_eq_true.mpr ⟨s, hs, decide_eq_true rfl⟩

@[simp] theorem gate_submissions (k : Coordinator) (id : EntityId) :
    (k.gate id).1.submissions = k.submissions := by
  unfold gate
  dsimp only
  split <;> rfl

/-- A command that comes is the last one. -/
theorem submissions_join (k : Coordinator) (caller : CallId) (m : Mutation) :
    (k.join caller m).submissions
      = k.submissions ++ [⟨caller, m, (k.gate m.entityId).2, .waiting⟩] :=
  congrArg (· ++ _) (gate_submissions k m.entityId)

theorem watchdogs_join (k : Coordinator) (caller : CallId) (m : Mutation) :
    (k.join caller m).watchdogs = k.watchdogs := by
  unfold join gate
  dsimp only
  split <;> rfl

/-! ### Orderly coordinators -/

/-- **What holds of a coordinator at any time.** -/
structure Orderly (k : Coordinator) : Prop where
  distinct : k.gates.Distinct
  /-- Gates to come are new. -/
  made : ∀ id g, k.gates.get? id = some g → g < k.nextGate
  /-- A gate belongs to one entity. -/
  apart : ∀ id id' g, k.gates.get? id = some g → k.gates.get? id' = some g → id = id'
  /-- A command's gate is that of its entity. -/
  held : ∀ s ∈ k.submissions, k.gates.get? s.mutation.entityId = some s.gate
  callers : (k.submissions.map Submission.caller).Nodup
  /-- At most one command at a gate was dispatched. -/
  alone : ∀ s ∈ k.submissions, ∀ t ∈ k.submissions, s.isDispatched = true →
    t.isDispatched = true → s.gate = t.gate → s = t

theorem orderly_empty : empty.Orderly where
  distinct := Table.distinct_empty
  made := nofun
  apart := nofun
  held := nofun
  callers := List.nodup_nil
  alone := nofun

/-- Watchdogs do not matter. -/
theorem Orderly.of_eq {k' : Coordinator} (h : k.Orderly) (hg : k'.gates = k.gates)
    (hn : k'.nextGate = k.nextGate) (hs : k'.submissions = k.submissions) : k'.Orderly where
  distinct := hg ▸ h.distinct
  made := by rw [hg, hn]; exact h.made
  apart := hg ▸ h.apart
  held := by rw [hg, hs]; exact h.held
  callers := hs ▸ h.callers
  alone := hs ▸ h.alone

/-- A caller has one command. -/
theorem Orderly.eq_of_caller {s t : Submission} (h : k.Orderly) (hs : s ∈ k.submissions)
    (ht : t ∈ k.submissions) (hc : s.caller = t.caller) : s = t :=
  List.inj_on_of_nodup_map h.callers hs ht hc

theorem Orderly.find?_of_mem {s : Submission} (h : k.Orderly) (hs : s ∈ k.submissions) :
    k.find? s.caller = some s := by
  cases hf : k.find? s.caller with
  | none => exact absurd rfl (caller_ne_of_find? hf s hs)
  | some t =>
    obtain ⟨ht, hc⟩ := mem_of_find? hf
    rw [h.eq_of_caller ht hs hc]

/-- **Two commands have the same gate** if they are about the same entity, and
only then. -/
theorem Orderly.gate_eq_iff {s t : Submission} (h : k.Orderly) (hs : s ∈ k.submissions)
    (ht : t ∈ k.submissions) : s.gate = t.gate ↔ s.mutation.entityId = t.mutation.entityId := by
  refine ⟨fun hg => h.apart _ _ _ (h.held s hs) (hg ▸ h.held t ht), fun he => ?_⟩
  have hread := h.held s hs
  rw [he] at hread
  exact Option.some.inj (hread.symm.trans (h.held t ht))

/-! ### The gate of an entity -/

/-- What is left of the gates when the gate of an entity is asked for. -/
def keptGates (k : Coordinator) (id : EntityId) : Table EntityId GateId :=
  k.gates.filter fun j g => j = id || k.refersTo g

theorem Orderly.get?_keptGates (h : k.Orderly) (id j : EntityId) :
    (k.keptGates id).get? j = (k.gates.get? j).filter fun g => j = id || k.refersTo g :=
  h.distinct.get?_filter _ j

theorem Orderly.of_keptGates (h : k.Orderly) {id j : EntityId} {g : GateId}
    (hg : (k.keptGates id).get? j = some g) : k.gates.get? j = some g := by
  rw [h.get?_keptGates, Option.filter_eq_some_iff] at hg
  exact hg.1

/-- **A gate that a command refers to is never discarded.** -/
theorem Orderly.held_keptGates (h : k.Orderly) (id : EntityId) {s : Submission}
    (hs : s ∈ k.submissions) : (k.keptGates id).get? s.mutation.entityId = some s.gate := by
  rw [h.get?_keptGates, Option.filter_eq_some_iff]
  exact ⟨h.held s hs, by rw [refersTo_of_mem hs, Bool.or_true]⟩

/-- The gate that an entity has is kept. -/
theorem gate_of_some {id : EntityId} {g : GateId} (hg : (k.keptGates id).get? id = some g) :
    k.gate id = ({ k with gates := k.keptGates id }, g) := by
  unfold keptGates at hg
  rw [gate, hg]
  rfl

/-- A gate is made for an entity that has none. -/
theorem gate_of_none {id : EntityId} (hg : (k.keptGates id).get? id = none) :
    k.gate id
      = ({ k with
          gates := (k.keptGates id).insert id k.nextGate
          nextGate := k.nextGate + 1 }, k.nextGate) := by
  unfold keptGates at hg
  rw [gate, hg]
  rfl

/-- **To ask for a gate keeps order**, and what is found is in the table. -/
theorem Orderly.gate (h : k.Orderly) (id : EntityId) :
    (k.gate id).1.Orderly ∧ (k.gate id).1.gates.get? id = some (k.gate id).2 := by
  cases hg : (k.keptGates id).get? id with
  | some g =>
    rw [gate_of_some hg]
    refine ⟨⟨h.distinct.filter _, ?_, ?_, ?_, h.callers, h.alone⟩, hg⟩
    · exact fun j g hj => h.made j g (h.of_keptGates hj)
    · exact fun i j g hi hj => h.apart i j g (h.of_keptGates hi) (h.of_keptGates hj)
    · exact fun s hs => h.held_keptGates id hs
  | none =>
    rw [gate_of_none hg]
    have hold {j : EntityId} {g : GateId} (hne : id ≠ j)
        (hj : ((k.keptGates id).insert id k.nextGate).get? j = some g) :
        k.gates.get? j = some g :=
      h.of_keptGates ((Table.get?_insert_of_ne _ _ hne).symm.trans hj)
    refine ⟨⟨(h.distinct.filter _).insert id k.nextGate, ?_, ?_, ?_, h.callers, h.alone⟩,
      Table.get?_insert_self _ _ _⟩
    · intro j g hj
      by_cases hid : id = j
      · subst hid
        rw [Table.get?_insert_self] at hj
        exact Option.some.inj hj ▸ Nat.lt_succ_self _
      · exact Nat.lt_succ_of_lt (h.made j g (hold hid hj))
    · -- the gate that was made is that of no other entity
      have hnew {j : EntityId} (hne : id ≠ j) :
          ((k.keptGates id).insert id k.nextGate).get? j ≠ some k.nextGate :=
        fun hj => Nat.lt_irrefl _ (h.made j _ (hold hne hj))
      intro i j g hi hj
      by_cases hii : id = i
      · subst hii
        rw [Table.get?_insert_self] at hi
        by_contra hne
        exact hnew hne (Option.some.inj hi ▸ hj)
      · by_cases hjj : id = j
        · subst hjj
          rw [Table.get?_insert_self] at hj
          exact absurd (Option.some.inj hj ▸ hi) (hnew hii)
        · exact h.apart i j g (hold hii hi) (hold hjj hj)
    · intro s hs
      have hread := h.held_keptGates id hs
      by_cases hid : id = s.mutation.entityId
      · rw [← hid, hg] at hread
        cases hread
      · rw [Table.get?_insert_of_ne _ _ hid, hread]

/-! ### Operations keep order -/

theorem Orderly.join (h : k.Orderly) {caller : CallId} (hnew : k.find? caller = none)
    (m : Mutation) : (k.join caller m).Orderly := by
  obtain ⟨hgate, hget⟩ := h.gate m.entityId
  refine ⟨hgate.distinct, hgate.made, hgate.apart, ?_, ?_, ?_⟩
  · intro s hs
    rw [submissions_join, List.mem_append, List.mem_singleton] at hs
    rcases hs with hs | rfl
    · exact hgate.held s ((gate_submissions k m.entityId).symm ▸ hs)
    · exact hget
  · rw [submissions_join, List.map_append, List.map_singleton]
    refine h.callers.append (List.nodup_singleton caller) (List.disjoint_singleton.mpr ?_)
    rintro hmem
    obtain ⟨s, hs, hc⟩ := List.mem_map.mp hmem
    exact caller_ne_of_find? hnew s hs hc
  · intro s hs t ht hsd htd hst
    rw [submissions_join, List.mem_append, List.mem_singleton] at hs ht
    rcases hs with hs | rfl
    · rcases ht with ht | rfl
      · exact h.alone s hs t ht hsd htd hst
      · cases htd
    · cases hsd

theorem mem_forget {caller : CallId} {s : Submission} :
    s ∈ (k.forget caller).submissions ↔ s ∈ k.submissions ∧ s.caller ≠ caller := by
  rw [forget, List.mem_filter, decide_eq_true_iff]

theorem Orderly.forget (h : k.Orderly) (caller : CallId) : (k.forget caller).Orderly where
  distinct := h.distinct
  made := h.made
  apart := h.apart
  held := fun s hs => h.held s (mem_forget.mp hs).1
  callers := h.callers.sublist (List.filter_sublist.map _)
  alone := fun s hs t ht => h.alone s (mem_forget.mp hs).1 t (mem_forget.mp ht).1

theorem mem_setStage {caller : CallId} {stage : Submission.Stage} {s : Submission} :
    s ∈ (k.setStage caller stage).submissions ↔
      ∃ t ∈ k.submissions, (if t.caller = caller then { t with stage := stage } else t) = s :=
  List.mem_map

/-- A stage that is written changes neither the caller of a command nor what
it is about nor its gate. -/
theorem of_mem_setStage {caller : CallId} {stage : Submission.Stage} {s : Submission}
    (hs : s ∈ (k.setStage caller stage).submissions) :
    (s.caller = caller ∧ s.stage = stage ∨ s ∈ k.submissions ∧ s.caller ≠ caller)
      ∧ ∃ t ∈ k.submissions, t.caller = s.caller ∧ t.mutation = s.mutation ∧ t.gate = s.gate := by
  obtain ⟨t, ht, rfl⟩ := mem_setStage.mp hs
  split
  · rename_i hc
    exact ⟨.inl ⟨hc, rfl⟩, t, ht, rfl, rfl, rfl⟩
  · rename_i hc
    exact ⟨.inr ⟨ht, hc⟩, t, ht, rfl, rfl, rfl⟩

/-- **A command whose gate is free can be dispatched.** -/
theorem Orderly.setStage (h : k.Orderly) {s : Submission} (hs : s ∈ k.submissions)
    (hfree : k.isFree s.gate = true) (stage : Submission.Stage) :
    (k.setStage s.caller stage).Orderly := by
  have hcallers : (k.setStage s.caller stage).submissions.map Submission.caller
      = k.submissions.map Submission.caller := by
    rw [Coordinator.setStage, List.map_map]
    refine List.map_congr_left fun t _ => ?_
    rw [Function.comp_apply]
    split <;> rfl
  have hnodup : ((k.setStage s.caller stage).submissions.map Submission.caller).Nodup :=
    hcallers ▸ h.callers
  -- beside the command itself, whoever was dispatched at its gate would not leave it free
  have hother {t : Submission} (ht : t ∈ (k.setStage s.caller stage).submissions)
      (htd : t.isDispatched = true) (hgate : t.gate = s.gate) : t.caller = s.caller := by
    rcases (of_mem_setStage ht).1 with ⟨hc, -⟩ | ⟨hmem, -⟩
    · exact hc
    · exact absurd hgate (isFree_iff.mp hfree t hmem htd)
  have hgate {t : Submission} (ht : t ∈ (k.setStage s.caller stage).submissions)
      (hc : t.caller = s.caller) : t.gate = s.gate := by
    obtain ⟨-, t', ht', hc', -, hg⟩ := of_mem_setStage ht
    rw [← hg, h.eq_of_caller ht' hs (hc'.trans hc)]
  refine ⟨h.distinct, h.made, h.apart, ?_, hnodup, ?_⟩
  · intro t ht
    obtain ⟨-, t', ht', -, hm, hg⟩ := of_mem_setStage ht
    rw [← hm, ← hg]
    exact h.held t' ht'
  · intro t ht u hu htd hud htu
    rcases (of_mem_setStage ht).1 with ⟨hc, -⟩ | ⟨hmem, hc⟩
    · exact List.inj_on_of_nodup_map hnodup ht hu
        (hc.trans (hother hu hud (htu.symm.trans (hgate ht hc))).symm)
    · rcases (of_mem_setStage hu).1 with ⟨hc', -⟩ | ⟨hmem', -⟩
      · exact absurd (hother ht htd (htu.trans (hgate hu hc'))) hc
      · exact h.alone t hmem u hmem' htd hud htu

/-- A command that gets its turn is dispatched, unless there is nothing to
guess on. -/
theorem enter_cases (k : Coordinator) (cache : Cache) (s : Submission) (route : Route)
    (now : Instant) (deadline : Clock) :
    (k.enter cache s route now deadline).state.1 = k.forget s.caller
      ∨ ∃ previous, (k.enter cache s route now deadline).state.1
          = k.setStage s.caller (.dispatched route previous deadline) := by
  unfold enter
  dsimp only
  split
  · exact .inr ⟨_, rfl⟩
  · exact .inl rfl

/-- A command that is resolved is gone, and maybe a watchdog is set. -/
theorem resolve_cases (k : Coordinator) (cache : Cache) (caller : CallId) (previous : Entry)
    (result : Except Failure.Command Receipt) (deadline : Clock) :
    (k.resolve cache caller previous result deadline).state.1 = k.forget caller
      ∨ (k.resolve cache caller previous result deadline).state.1
          = (k.forget caller).arm previous deadline := by
  cases result with
  | ok receipt => exact .inr rfl
  | error failure => exact .inl rfl

/-- What watchdogs do leaves the commands alone. -/
theorem Orderly.wake (h : k.Orderly) (id : EntityId) (cache : Cache) (now : Clock) :
    (k.wake cache id now).1.Orderly := by
  unfold Coordinator.wake
  split
  · split
    · split <;> exact h.of_eq rfl rfl rfl
    · exact h
  · exact h

theorem Orderly.confirm (h : k.Orderly) (id : EntityId) (cache : Cache) (failed : Bool) :
    (k.confirm cache id failed).state.1.Orderly := by
  unfold Coordinator.confirm
  split
  · dsimp only
    split <;> exact h.of_eq rfl rfl rfl
  · exact h

/-- **Every operation keeps order.** -/
theorem Orderly.perform {d : WithCache} (h : d.1.Orderly) (op : Op) :
    (Coordinator.perform d op).1.Orderly := by
  cases op with
  | world cache => exact h
  | join caller m =>
    rcases perform_join_cases d caller m with heq | ⟨hnew, heq⟩ <;> rw [heq]
    · exact h
    · exact h.join hnew m
  | enter caller route now deadline =>
    rcases perform_enter_cases d caller route now deadline with heq | ⟨s, hfind, hfree, heq⟩ <;>
      rw [heq]
    · exact h
    · rcases enter_cases d.1 d.2 s route now deadline with heq | ⟨previous, heq⟩ <;> rw [heq]
      · exact h.forget s.caller
      · exact h.setStage (mem_of_find? hfind).1 hfree _
  | resolve caller result deadline =>
    rcases perform_resolve_cases d caller result deadline with
      heq | ⟨-, -, previous, -, -, -, heq⟩ <;> rw [heq]
    · exact h
    · rcases resolve_cases d.1 d.2 caller previous result deadline with heq | heq <;> rw [heq]
      · exact h.forget caller
      · exact (h.forget caller).of_eq rfl rfl rfl
  | forget caller => exact h.forget caller
  | wake id now => exact h.wake id d.2 now
  | confirm id failed => exact h.confirm id d.2 failed
  | shutdown => exact h.of_eq rfl rfl rfl

theorem orderly_run (ops : List Op) : (run ops).1.Orderly := by
  induction ops using List.reverseRecOn with
  | nil => exact orderly_empty
  | append_singleton ops op ih => exact run_concat ops op ▸ ih.perform op

/-! ### What becomes of the commands on their way -/

/-- Whether an operation neither adds a command nor dispatches one. -/
def Op.leaves : Op → Bool
  | .join _ _ | .enter _ _ _ _ => false
  | .world _ | .resolve _ _ _ | .forget _ | .wake _ _ | .confirm _ _ | .shutdown => true

/-- With such an operation at most one command is gone. -/
theorem submissions_perform {op : Op} (hop : op.leaves = true) (d : WithCache) :
    (perform d op).1.submissions = d.1.submissions
      ∨ ∃ caller, (perform d op).1.submissions = (d.1.forget caller).submissions := by
  cases op with
  | join | enter => cases hop
  | resolve caller result deadline =>
    rcases perform_resolve_cases d caller result deadline with
      heq | ⟨-, -, previous, -, -, -, heq⟩ <;> rw [heq]
    · exact .inl rfl
    · rcases resolve_cases d.1 d.2 caller previous result deadline with heq | heq <;> rw [heq]
      · exact .inr ⟨caller, rfl⟩
      · exact .inr ⟨caller, rfl⟩
  | forget caller => exact .inr ⟨caller, rfl⟩
  | wake id now =>
    refine .inl ?_
    simp only [perform, wake]
    split
    · split
      · split <;> rfl
      · rfl
    · rfl
  | confirm id failed =>
    refine .inl ?_
    simp only [perform, confirm]
    split
    · split <;> rfl
    · rfl
  | world | shutdown => exact .inl rfl

theorem mem_of_mem_perform {op : Op} (hop : op.leaves = true) {d : WithCache} {s : Submission}
    (hs : s ∈ (perform d op).1.submissions) : s ∈ d.1.submissions := by
  rcases submissions_perform hop d with heq | ⟨caller, heq⟩
  · exact heq ▸ hs
  · exact (mem_forget.mp (heq ▸ hs)).1

/-- Who is on the way after an operation was so before, or has just come. -/
theorem of_mem_perform {d : WithCache} {op : Op} {t : Submission}
    (ht : t ∈ (perform d op).1.submissions) :
    (∃ u ∈ d.1.submissions, u.caller = t.caller ∧ u.mutation = t.mutation ∧ u.gate = t.gate)
      ∨ d.1.find? t.caller = none := by
  cases op with
  | join caller m =>
    rcases perform_join_cases d caller m with heq | ⟨hnew, heq⟩ <;> rw [heq] at ht
    · exact .inl ⟨t, ht, rfl, rfl, rfl⟩
    · rw [submissions_join, List.mem_append, List.mem_singleton] at ht
      rcases ht with ht | rfl
      · exact .inl ⟨t, ht, rfl, rfl, rfl⟩
      · exact .inr hnew
  | enter caller route now deadline =>
    refine .inl ?_
    rcases perform_enter_cases d caller route now deadline with heq | ⟨s, -, -, heq⟩ <;>
      rw [heq] at ht
    · exact ⟨t, ht, rfl, rfl, rfl⟩
    · rcases enter_cases d.1 d.2 s route now deadline with heq | ⟨previous, heq⟩ <;> rw [heq] at ht
      · exact ⟨t, (mem_forget.mp ht).1, rfl, rfl, rfl⟩
      · exact (of_mem_setStage ht).2
  | world | resolve | forget | wake | confirm | shutdown =>
    exact .inl ⟨t, mem_of_mem_perform rfl ht, rfl, rfl, rfl⟩

/-- **A command keeps its gate** as long as it is on its way. -/
theorem Orderly.gate_perform {d : WithCache} (h : d.1.Orderly) (op : Op) {s t : Submission}
    (hs : s ∈ d.1.submissions) (ht : t ∈ (Coordinator.perform d op).1.submissions)
    (hc : t.caller = s.caller) : t.gate = s.gate := by
  rcases of_mem_perform ht with ⟨u, hu, hcu, -, hg⟩ | hnone
  · rw [← hg, h.eq_of_caller hu hs (hcu.trans hc)]
  · exact absurd hc.symm (caller_ne_of_find? hnone s hs)

/-! ### Taking turns -/

/-- **Commands for one entity take turns**, and those for different entities
do not wait for each other. -/
structure TakesTurns (k : Coordinator) : Prop where
  /-- At most one command for an entity was dispatched and is not resolved. -/
  one : ∀ id, k.submissions.countP (fun s => s.isDispatched && s.mutation.entityId = id) ≤ 1
  /-- Whichever gate is asked for, the gate of a command on its way is kept. -/
  kept : ∀ s ∈ k.submissions, ∀ id,
    (k.gate id).1.gates.get? s.mutation.entityId = some s.gate
  /-- A command that comes finds the gate of those for its entity. -/
  found : ∀ s ∈ k.submissions, (k.gate s.mutation.entityId).2 = s.gate
  /-- Commands on their way have one gate if they are for one entity, and
  only then. -/
  shared : ∀ s ∈ k.submissions, ∀ t ∈ k.submissions,
    s.gate = t.gate ↔ s.mutation.entityId = t.mutation.entityId
  /-- The first command at a gate is the first one for its entity. -/
  line : ∀ s ∈ k.submissions, k.first? s.gate
    = k.submissions.find? fun t => t.mutation.entityId = s.mutation.entityId
  /-- Whatever happens, a command on its way keeps its gate. -/
  stays : ∀ cache op, ∀ s ∈ k.submissions, ∀ t ∈ (perform (k, cache) op).1.submissions,
    t.caller = s.caller → t.gate = s.gate
  /-- A command gets its turn when no other for its entity was dispatched. -/
  turn : ∀ s ∈ k.submissions,
    (∀ t ∈ k.submissions, t.isDispatched = true → t.mutation.entityId ≠ s.mutation.entityId) →
    ∀ cache route now deadline,
      ∀ t ∈ (perform (k, cache) (.enter s.caller route now deadline)).1.submissions,
        t.caller = s.caller → t.isDispatched = true

/-- Of commands no two of which differ there is at most one. -/
theorem countP_le_one {l : List Submission} (hl : (l.map Submission.caller).Nodup)
    {p : Submission → Bool} (hp : ∀ s ∈ l, ∀ t ∈ l, p s = true → p t = true → s = t) :
    l.countP p ≤ 1 := by
  rw [List.countP_eq_length_filter]
  have hnodup : (l.filter p).Nodup := (List.Nodup.of_map _ hl).filter p
  match hf : l.filter p with
  | [] => exact Nat.zero_le 1
  | [_] => exact Nat.le_refl 1
  | s :: t :: rest =>
    have hmem {u : Submission} (hu : u ∈ s :: t :: rest) : u ∈ l ∧ p u = true :=
      List.mem_filter.mp (hf ▸ hu)
    obtain ⟨hs, hps⟩ := hmem List.mem_cons_self
    obtain ⟨ht, hpt⟩ := hmem (List.mem_cons_of_mem s List.mem_cons_self)
    rw [hf, hp s hs t ht hps hpt] at hnodup
    exact absurd List.mem_cons_self (List.nodup_cons.mp hnodup).1

theorem Orderly.takesTurns (h : k.Orderly) : k.TakesTurns where
  one id := by
    refine countP_le_one h.callers fun s hs t ht hps hpt => ?_
    rw [Bool.and_eq_true, decide_eq_true_iff] at hps hpt
    exact h.alone s hs t ht hps.1 hpt.1 ((h.gate_eq_iff hs ht).mpr (hps.2.trans hpt.2.symm))
  kept s hs id := (h.gate id).1.held s ((gate_submissions k id).symm ▸ hs)
  found s hs := by
    obtain ⟨hgate, hget⟩ := h.gate s.mutation.entityId
    have hread := hgate.held s ((gate_submissions k s.mutation.entityId).symm ▸ hs)
    exact Option.some.inj (hget.symm.trans hread)
  shared s hs t ht := h.gate_eq_iff hs ht
  line s hs := List.find?_congr fun t ht => decide_eq_decide.mpr (h.gate_eq_iff ht hs)
  stays cache op s hs t ht hc := Orderly.gate_perform (d := (k, cache)) h op hs ht hc
  turn s hs hno cache route now deadline := by
    have hfree : k.isFree s.gate = true :=
      isFree_iff.mpr fun t ht htd hg => hno t ht htd ((h.gate_eq_iff ht hs).mp hg)
    have hwaiting : s.stage = .waiting := by
      cases hst : s.stage with
      | waiting => rfl
      | dispatched route previous deadline =>
        exact absurd rfl (hno s hs (by rw [Submission.isDispatched, hst]))
    intro t ht hc
    rw [perform_enter (d := (k, cache)) (h.find?_of_mem hs) hwaiting hfree] at ht
    rcases enter_cases k cache s route now deadline with heq | ⟨previous, heq⟩
    · exact absurd hc (mem_forget.mp (heq ▸ ht)).2
    · rcases (of_mem_setStage (heq ▸ ht)).1 with ⟨-, hst⟩ | ⟨-, hne⟩
      · rw [Submission.isDispatched, hst]
      · exact absurd hc hne

end Coordinator

end LiveSync
