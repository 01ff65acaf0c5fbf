import LiveSync.Proofs.Client.Fetches
import LiveSync.Proofs.Sync.Desk

/-!
# Commands that are accepted

When a command is accepted, a watchdog is set on its entity, and the one that was set
before is called off together with its fetch. Nothing else sets a watchdog. So the
watchdogs of a client can be told from what its callers are told (`Client.Accepts`):
each was set when a command was last accepted for its entity.

That a caller is told so happens in the middle of a move. What leaves the link at once can
be the answers to many commands, for one entity and for others, with failures among them.
Along the chain of changes that such a move is, every entity's watchdog has been set just
now or is what it was (`Client.Answered`). Moves that bring no answers accept nothing and
set nothing.
-/

namespace LiveSync

open LiveSync.Connection

/-! ### What becomes of watchdogs -/

namespace Coordinator

open Cache

variable {d : WithCache} {op : Op} {id : EntityId} {w : Watchdog}

/-- Whether an operation accepts a command. -/
def Op.accepts : Op → Bool
  | .resolve _ (.ok _) _ => true
  | _ => false

/-- **What operations do to watchdogs**, other than to accept a command: nothing; one of
them wakes up and has its entity fetched; one is gone; or all are. -/
theorem watchdogs_perform (hop : op.accepts = false) (d : WithCache) :
    (perform d op).1.watchdogs = d.1.watchdogs
      ∨ (∃ id w, d.1.watchdogs.get? id = some w
        ∧ (perform d op).1.watchdogs = d.1.watchdogs.insert id { w with stage := .fetching })
      ∨ (∃ id, (perform d op).1.watchdogs = d.1.watchdogs.erase id)
      ∨ (perform d op).1.watchdogs = .empty := by
  cases op with
  | world | forget => exact .inl rfl
  | join caller m =>
    rcases perform_join_cases d caller m with heq | ⟨-, heq⟩ <;> rw [heq]
    · exact .inl rfl
    · exact .inl (watchdogs_join d.1 caller m)
  | enter caller route now deadline =>
    rcases perform_enter_cases d caller route now deadline with heq | ⟨s, -, -, heq⟩ <;> rw [heq]
    · exact .inl rfl
    · exact .inl (watchdogs_enter d.1 d.2 s route now deadline)
  | resolve caller result deadline =>
    rcases perform_resolve_cases d caller result deadline with
      heq | ⟨s, route, previous, _, -, -, heq⟩ <;> rw [heq]
    · exact .inl rfl
    · cases result with
      | ok receipt => cases hop
      | error f => exact .inl rfl
  | wake id now =>
    show (d.1.wake d.2 id now).1.watchdogs = _ ∨ _
    rcases d.1.wake_cases d.2 id now with heq | ⟨w, hw, -, heq | heq⟩
    · exact .inl (congrArg (·.1.watchdogs) heq)
    · exact .inr (.inl ⟨id, w, hw, congrArg (·.1.watchdogs) heq⟩)
    · exact .inr (.inr (.inl ⟨id, congrArg (·.1.watchdogs) heq⟩))
  | confirm id failed =>
    simp only [perform, confirm]
    split
    · split <;> exact .inr (.inr (.inl ⟨id, rfl⟩))
    · exact .inl rfl
  | shutdown => exact .inr (.inr (.inr rfl))

/-- None is set, and none is reset. -/
theorem get?_watchdogs_perform (hop : op.accepts = false)
    (hw : (perform d op).1.watchdogs.get? id = some w) :
    ∃ w', d.1.watchdogs.get? id = some w' ∧ w'.base = w.base ∧ w'.deadline = w.deadline := by
  rcases watchdogs_perform hop d with heq | ⟨j, u, hu, heq⟩ | ⟨j, heq⟩ | heq <;> rw [heq] at hw
  · exact ⟨w, hw, rfl, rfl⟩
  · rw [Table.get?_insert] at hw
    split at hw
    · rename_i hj
      obtain rfl := Option.some.inj hw
      exact ⟨u, hj ▸ hu, rfl, rfl⟩
    · exact ⟨w, hw, rfl, rfl⟩
  · exact ⟨w, Table.get?_of_erase hw, rfl, rfl⟩
  · cases hw

theorem distinct_perform (h : d.1.watchdogs.Distinct) (op : Op) :
    (perform d op).1.watchdogs.Distinct := by
  cases hop : op.accepts with
  | false =>
    rcases watchdogs_perform hop d with heq | ⟨j, u, -, heq⟩ | ⟨j, heq⟩ | heq <;> rw [heq]
    · exact h
    · exact h.insert j _
    · exact h.erase j
    · exact Table.distinct_empty
  | true =>
    match op, hop with
    | .resolve caller (.ok receipt) deadline, _ =>
      rcases perform_resolve_cases d caller (.ok receipt) deadline with
        heq | ⟨s, route, previous, _, -, -, heq⟩ <;> rw [heq]
      · exact h
      · exact h.insert _ _

end Coordinator

/-- What the world does, and to accept a command, is not among the operations. -/
theorem Move.ne_of_allows {m : Move} {op : Coordinator.Op} (h : m.allows op = true) :
    (∀ cache, op ≠ .world cache) ∧ op.accepts = false := by
  match op with
  | .world _ | .resolve _ (.ok _) _ => cases h
  | .join _ _ | .enter _ _ _ _ | .resolve _ (.error _) _ | .forget _ | .wake _ _
  | .confirm _ _ | .shutdown => exact ⟨nofun, rfl⟩

/-- A command that fails or is forgotten leaves watchdogs alone. -/
theorem Move.of_allows_of_answers {m : Move} {op : Coordinator.Op} (hm : m.answers = true)
    (h : m.allows op = true) :
    op.leaves = true ∧ ∀ d, (Coordinator.perform d op).1.watchdogs = d.1.watchdogs := by
  cases op with
  | world => cases h
  | resolve caller result deadline =>
    cases result with
    | ok receipt => cases h
    | error f =>
      refine ⟨rfl, fun d => ?_⟩
      rcases Coordinator.perform_resolve_cases d caller (.error f) deadline with
        heq | ⟨s, route, previous, _, -, -, heq⟩ <;> rw [heq]
      rfl
  | forget => exact ⟨rfl, fun _ => rfl⟩
  | join | enter | wake | confirm | shutdown =>
    rw [Move.allows, hm] at h
    cases h

namespace Client

variable {c c' : Client} {m : Move} {s : Step} {id : EntityId} {base : Version} {f : Fetch}

/-! ### A client's desk -/

theorem cache_giveUp (c : Client) (handle : Nat) (sub : Subscription) :
    (c.giveUp handle sub).engine.cache = c.engine.cache := by
  simp only [giveUp, Engine.unsubscribe]
  split <;> rfl

theorem desk_accept {caller : CallId} {sub : Submission} {route : Route} {previous : Entry}
    {deadline : Clock} (hfind : c.coordinator.find? caller = some sub)
    (hstage : sub.stage = .dispatched route previous deadline) (receipt : Receipt) :
    (c.resolve caller previous (.ok receipt)).1.desk
      = Coordinator.perform c.desk
        (.resolve caller (.ok receipt) (c.now + c.config.confirmTimeout.nanos)) := by
  rw [Coordinator.perform_resolve (d := c.desk) hfind hstage]
  rfl

/-- **What a change does to the desk**: nothing, or one operation. What it takes up from
the server keeps the cache sound. -/
theorem Change.desk (h : Change m c s) :
    s.1.desk = c.desk
      ∨ (∃ cache, s.1.desk = Coordinator.perform c.desk (.world cache)
        ∧ (m.IsHonest → c.engine.cache.Sound → cache.Sound ∧ c.engine.cache.Grows cache))
      ∨ (∃ op, s.1.desk = Coordinator.perform c.desk op ∧ m.allows op = true)
      ∨ ∃ caller receipt deadline,
        s.1.desk = Coordinator.perform c.desk (.resolve caller (.ok receipt) deadline)
          ∧ m.answers = true := by
  cases h with
  | tick | fetch | drop | hold => exact .inl rfl
  | letGo handle sub hm h =>
    exact .inl (congrArg (Prod.mk c.coordinator) (c.cache_giveUp handle sub))
  | aside h => exact .inl (congrArg Core.desk h.core)
  | world cache h => exact .inr (.inl ⟨cache, rfl, h⟩)
  | perform op h => exact .inr (.inr (.inl ⟨op, rfl, h⟩))
  | accept hm hfind hstage receipt =>
    exact .inr (.inr (.inr ⟨_, receipt, _, desk_accept hfind hstage receipt, hm⟩))

theorem Course.sound (h : Course m c s) (hm : m.IsHonest) (hc : Coordinator.Sound c.desk) :
    Coordinator.Sound s.1.desk := by
  induction h with
  | still => exact hc
  | @go s t _ change ih =>
    rcases change.desk with heq | ⟨cache, heq, hcache⟩ | ⟨op, heq, hop⟩ | ⟨_, _, _, heq, -⟩
    · exact heq ▸ ih
    · have hworld : Coordinator.Sound (Coordinator.perform s.1.desk (.world cache)) :=
        ih.of_leaves rfl (hcache hm ih.cache)
      exact heq ▸ hworld
    · exact heq ▸ ih.perform fun cache hworld => absurd hworld ((Move.ne_of_allows hop).1 cache)
    · exact heq ▸ ih.perform nofun

theorem Course.distinct (h : Course m c s) (hc : c.coordinator.watchdogs.Distinct) :
    s.1.coordinator.watchdogs.Distinct := by
  induction h with
  | still => exact hc
  | @go s t _ change ih =>
    have hdesk : t.1.desk.1.watchdogs.Distinct := by
      rcases change.desk with heq | ⟨cache, heq, -⟩ | ⟨op, heq, -⟩ | ⟨_, _, _, heq, -⟩
      · exact heq ▸ ih
      all_goals exact heq ▸ Coordinator.distinct_perform (d := s.1.desk) ih _
    exact hdesk

/-! ### Commands that are accepted -/

/-- **A command is told to have been accepted**, one for an entity that was issued
against a version. -/
def Told (c : Client) (actions : List ClientAction) (id : EntityId) (base : Version) : Prop :=
  ∃ t ∈ c.coordinator.submissions, ∃ route previous deadline receipt,
    t.stage = .dispatched route previous deadline ∧ t.mutation.entityId = id
      ∧ previous.baseVersion = base ∧ .finish t.caller (.submitted (.ok receipt)) ∈ actions

/-- **A move by which a command is accepted.** -/
def Accepts (c : Client) (m : Move) (id : EntityId) (base : Version) : Prop :=
  c.Told (c.step m).2 id base

theorem Change.calls (h : Change m c s) (k : CallId) (what : Call)
    (hcall : s.1.calls.get? k = some what) : c.calls.get? k = some what ∨ c.fresh ≤ k := by
  cases h with
  | aside h => exact h.calls k what hcall
  | accept => exact .inl (Table.get?_of_erase hcall)
  | letGo | tick | world | perform | fetch | drop | hold => exact .inl hcall

/-- Calls after a move were there before, or have new numbers. -/
theorem Course.calls (h : Course m c s) (k : CallId) (what : Call)
    (hcall : s.1.calls.get? k = some what) : c.calls.get? k = some what ∨ c.fresh ≤ k := by
  induction h with
  | still => exact .inl hcall
  | go h change ih =>
    rcases change.calls k what hcall with hold | hnew
    · exact ih hold
    · exact .inr (h.fetches.1.trans hnew)

theorem told_append {actions actions' : List ClientAction} :
    c.Told (actions ++ actions') id base ↔ c.Told actions id base ∨ c.Told actions' id base := by
  simp only [Told, List.mem_append, and_or_left, exists_or]

theorem not_told_nil : ¬ c.Told [] id base :=
  fun ⟨_, _, _, _, _, _, _, _, _, hmem⟩ => absurd hmem List.not_mem_nil

theorem not_told_fetch (n : FetchId) (entity : EntityId) (validator : Option Validator) :
    ¬ c.Told [.fetch n entity validator] id base :=
  fun ⟨_, _, _, _, _, _, _, _, _, hmem⟩ => absurd (List.mem_singleton.mp hmem) nofun

/-- Beside the changes none is told so: whoever asks for a command with a guess asks for
nothing else. -/
theorem Owned.not_told_beside (hc : c.Owned) (h : Course m c s) {t : Step} (ht : s.1.Beside t) :
    ¬ c.Told t.2 id base := by
  rintro ⟨u, hu, _, _, _, receipt, -, -, -, hmem⟩
  have hsubmit := hc.submissions u hu
  rcases h.calls u.caller .command (ht.told _ _ hmem) with hold | hnew
  · exact absurd (Option.some.inj (hsubmit.symm.trans hold)) nofun
  · exact absurd (hc.calls u.caller .submit hsubmit) (Nat.not_lt.mpr hnew)

/-- **No command is accepted with a move that brings no answer.** -/
theorem Course.not_told (h : Course m c s) (hm : m.answers = false) (hc : c.Owned) :
    ¬ c.Told s.2 id base := by
  induction h with
  | still => exact not_told_nil
  | @go s t h change ih =>
    rw [told_append, not_or]
    refine ⟨ih, ?_⟩
    cases change with
    | aside hbeside => exact hc.not_told_beside h hbeside
    | accept hanswers => exact absurd hanswers (hm ▸ Bool.false_ne_true)
    | fetch => exact not_told_fetch _ _ _
    | tick | world | perform | drop | hold | letGo => exact not_told_nil

/-- No watchdog is set or reset with a move that brings no answer. -/
theorem Course.get?_watchdogs (h : Course m c s) (hm : m.answers = false) {w : Watchdog}
    (hw : s.1.coordinator.watchdogs.get? id = some w) :
    ∃ w', c.coordinator.watchdogs.get? id = some w' ∧ w'.base = w.base
      ∧ w'.deadline = w.deadline := by
  induction h generalizing w with
  | still => exact ⟨w, hw, rfl, rfl⟩
  | @go s t _ change ih =>
    have hw : t.1.desk.1.watchdogs.get? id = some w := hw
    have hbefore : ∃ w', s.1.coordinator.watchdogs.get? id = some w' ∧ w'.base = w.base
        ∧ w'.deadline = w.deadline := by
      rcases change.desk with heq | ⟨cache, heq, -⟩ | ⟨op, heq, hop⟩ | ⟨_, _, _, -, hanswers⟩
      · rw [heq] at hw
        exact ⟨w, hw, rfl, rfl⟩
      · rw [heq] at hw
        exact ⟨w, hw, rfl, rfl⟩
      · exact Coordinator.get?_watchdogs_perform (d := s.1.desk) (Move.ne_of_allows hop).2
          (heq ▸ hw)
      · exact absurd hanswers (hm ▸ Bool.false_ne_true)
    obtain ⟨w', hw', hbase, hdeadline⟩ := hbefore
    obtain ⟨w'', hw'', hbase', hdeadline'⟩ := ih hw'
    exact ⟨w'', hw'', hbase'.trans hbase, hdeadline'.trans hdeadline⟩

/-- **What a move that brings answers has done so far.** An entity's watchdog was set
just now, for a command that was accepted, or it is what it was. -/
structure Answered (c : Client) (s : Step) : Prop where
  now : s.1.now = c.now
  config : s.1.config = c.config
  submissions : ∀ t ∈ s.1.coordinator.submissions, t ∈ c.coordinator.submissions
  watched : ∀ id,
    (∃ base, c.Told s.2 id base
      ∧ s.1.coordinator.watchdogs.get? id
        = some ⟨base, c.now + c.config.confirmTimeout.nanos, .sleeping⟩
      ∧ ∀ f ∈ s.1.fetches, f.purpose = .confirm → f.entity ≠ id)
    ∨ (∀ base, ¬ c.Told s.2 id base)
      ∧ s.1.coordinator.watchdogs.get? id = c.coordinator.watchdogs.get? id

/-- A step that tells no command of its acceptance, and touches no watchdog. -/
theorem Answered.of_silent (h : c.Answered s) {t : Step} (hnow : t.1.now = s.1.now)
    (hconfig : t.1.config = s.1.config)
    (hsubmissions : ∀ u ∈ t.1.coordinator.submissions, u ∈ s.1.coordinator.submissions)
    (hwatchdogs : t.1.coordinator.watchdogs = s.1.coordinator.watchdogs)
    (hfetches : ∀ f ∈ t.1.fetches, f.purpose = .confirm → f ∈ s.1.fetches)
    (htold : ∀ id base, ¬ c.Told t.2 id base) : c.Answered (t.1, s.2 ++ t.2) where
  now := hnow.trans h.now
  config := hconfig.trans h.config
  submissions u hu := h.submissions u (hsubmissions u hu)
  watched id := by
    rw [show (t.1, s.2 ++ t.2).1.coordinator.watchdogs = _ from hwatchdogs]
    refine (h.watched id).imp ?_ fun ⟨hno, hw⟩ => ⟨fun base ht => ?_, hw⟩
    · rintro ⟨base, ht, hw, hf⟩
      exact ⟨base, told_append.mpr (.inl ht), hw, fun f hmem hp => hf f (hfetches f hmem hp) hp⟩
    · exact (told_append.mp ht).elim (hno base) (htold id base)

/-- **A command is accepted.** The watchdog of its entity is set, and no other. -/
theorem Answered.accept (h : c.Answered s) (horderly : c.coordinator.Orderly)
    (hsound : Coordinator.Sound c.desk) {caller : CallId} {sub : Submission} {route : Route}
    {previous : Entry} {deadline : Clock} (hfind : s.1.coordinator.find? caller = some sub)
    (hstage : sub.stage = .dispatched route previous deadline) (receipt : Receipt) :
    c.Answered ((s.1.resolve caller previous (.ok receipt)).1,
      s.2 ++ (s.1.resolve caller previous (.ok receipt)).2) where
  now := h.now
  config := h.config
  submissions u hu := h.submissions u (Coordinator.mem_forget.mp hu).1
  watched id := by
    obtain ⟨hmem, hcaller⟩ := Coordinator.mem_of_find? hfind
    have hsub := h.submissions sub hmem
    have hentity : previous.entityId = sub.mutation.entityId :=
      (hsound.replaced sub hsub route previous deadline hstage).1
    have hwatchdogs : (s.1.resolve caller previous (.ok receipt)).1.coordinator.watchdogs
        = s.1.coordinator.watchdogs.insert previous.entityId
          ⟨previous.baseVersion, c.now + c.config.confirmTimeout.nanos, .sleeping⟩ := by
      rw [← h.now, ← h.config]
      rfl
    have hfetches : (s.1.resolve caller previous (.ok receipt)).1.fetches
        = (s.1.dropConfirmation previous.entityId).fetches := rfl
    dsimp only
    rw [hwatchdogs, hfetches]
    by_cases hid : previous.entityId = id
    · subst hid
      refine .inl ⟨previous.baseVersion, told_append.mpr (.inr ?_), Table.get?_insert_self _ _ _,
        fun f hf hp heq => ?_⟩
      · exact ⟨sub, hsub, route, previous, deadline, receipt, hstage, hentity.symm, rfl,
          hcaller ▸ List.mem_singleton_self _⟩
      · exact absurd (mem_dropFetches.mp hf).2 (by simp [hp, heq])
    · rw [Table.get?_insert_of_ne _ _ hid]
      refine (h.watched id).imp ?_ fun ⟨hno, hw⟩ => ⟨fun base ht => ?_, hw⟩
      · rintro ⟨base, ht, hw, hf⟩
        exact ⟨base, told_append.mpr (.inl ht), hw, fun f hmem => hf f (mem_dropFetches.mp hmem).1⟩
      · refine (told_append.mp ht).elim (hno base) ?_
        -- whoever is told now is the caller of the command for the other entity
        rintro ⟨u, hu, _, _, _, _, -, hother, -, htold⟩
        obtain ⟨heq, -⟩ := ClientAction.finish.inj (List.mem_singleton.mp htold)
        obtain rfl := horderly.eq_of_caller hu hsub (heq.trans hcaller.symm)
        exact hid (hentity.trans hother)

/-- **What a move that brings answers has done.** -/
theorem Course.answered (h : Course m c s) (hm : m.answers = true) (hc : c.Owned)
    (horderly : c.coordinator.Orderly) (hsound : Coordinator.Sound c.desk) : c.Answered s := by
  induction h with
  | still => exact ⟨rfl, rfl, fun _ => id, fun _ => .inr ⟨fun _ => not_told_nil, rfl⟩⟩
  | @go s t h change ih =>
    cases change with
    | tick now htick => exact absurd hm (htick ▸ Bool.false_ne_true)
    | hold id seat htake => exact absurd hm (htake ▸ Bool.false_ne_true)
    | letGo handle sub hgive => exact absurd hm (hgive ▸ Bool.false_ne_true)
    | accept _ hfind hstage receipt => exact ih.accept horderly hsound hfind hstage receipt
    | aside hbeside =>
      have hdesk : t.1.desk = s.1.desk := congrArg Core.desk hbeside.core
      have hcoordinator : t.1.coordinator = s.1.coordinator := congrArg Prod.fst hdesk
      have hfetches : t.1.fetches = s.1.fetches := congrArg Core.fetches hbeside.core
      exact ih.of_silent (congrArg Core.now hbeside.core) (congrArg Core.config hbeside.core)
        (fun u hu => hcoordinator ▸ hu) (congrArg _ hcoordinator) (fun f hf _ => hfetches ▸ hf)
        fun _ _ => hc.not_told_beside h hbeside
    | world cache =>
      exact ih.of_silent (t := Client.still _) rfl rfl (fun _ => id) rfl (fun _ hf _ => hf)
        fun _ _ => not_told_nil
    | perform op hop =>
      obtain ⟨hleaves, hwatchdogs⟩ := Move.of_allows_of_answers hm hop
      exact ih.of_silent (t := Client.still _) rfl rfl
        (fun _ => Coordinator.mem_of_mem_perform (d := s.1.desk) hleaves) (hwatchdogs s.1.desk)
        (fun _ hf _ => hf) fun _ _ => not_told_nil
    | fetch entity force purpose hpurpose =>
      refine ih.of_silent (t := s.1.startFetch entity force purpose) rfl rfl (fun _ hu => hu) rfl
        (fun f hf hconfirm => ?_) fun _ _ => not_told_fetch _ _ _
      rcases List.mem_append.mp hf with hf | hf
      · exact hf
      · obtain rfl := List.mem_singleton.mp hf
        exact absurd hm (hpurpose hconfirm ▸ Bool.false_ne_true)
    | drop p =>
      exact ih.of_silent (t := Client.still _) rfl rfl (fun _ => id) rfl
        (fun _ hf _ => (List.mem_filter.mp hf).1) fun _ _ => not_told_nil

/-! ### Clients in a run -/

/-- The settings never change. -/
theorem Course.config (h : Course m c s) : s.1.config = c.config := by
  induction h with
  | still => rfl
  | go _ change ih =>
    refine Eq.trans ?_ ih
    cases change with
    | aside h => exact congrArg Core.config h.core
    | tick | world | perform | accept | fetch | drop | hold | letGo => rfl

/-- **What holds of a client at any time** of a run in which the server's states come
from the server. -/
structure Regular (c : Client) : Prop where
  owned : c.Owned
  inTurn : c.InTurn
  enumerated : c.Enumerated
  sound : Coordinator.Sound c.desk
  distinct : c.coordinator.watchdogs.Distinct

theorem regular_start (config : Config) (host : Host.Condition) : (start config host).Regular where
  owned := owned_start config host
  inTurn := inTurn_start config host
  enumerated := enumerated_start config host
  sound := Coordinator.sound_start
  distinct := Table.distinct_empty

theorem Regular.step (h : c.Regular) (hm : m.IsHonest) : (c.step m).1.Regular where
  owned := h.owned.step m
  inTurn := h.inTurn.step m
  enumerated := h.enumerated.course (h.inTurn.course m)
  sound := (h.inTurn.course m).sound hm h.sound
  distinct := (h.inTurn.course m).distinct h.distinct

theorem Regular.not_accepts (h : c.Regular) (hm : m.answers = false) : ¬ c.Accepts m id base :=
  (h.inTurn.course m).not_told hm h.owned

theorem Regular.answered (h : c.Regular) (hm : m.answers = true) : c.Answered (c.step m) :=
  (h.inTurn.course m).answered hm h.owned h.inTurn.orderly h.sound

/-- Commands for one entity that are told of in one move were issued against one version. -/
theorem Regular.eq_of_told (h : c.Regular) {actions : List ClientAction} {base' : Version}
    (ht : c.Told actions id base) (ht' : c.Told actions id base') : base = base' := by
  obtain ⟨u, hu, _, _, _, _, hst, hid, rfl, -⟩ := ht
  obtain ⟨u', hu', _, _, _, _, hst', hid', rfl, -⟩ := ht'
  have horderly := h.inTurn.orderly
  obtain rfl : u = u' := horderly.alone u hu u' hu' (by rw [Submission.isDispatched, hst])
    (by rw [Submission.isDispatched, hst'])
    ((horderly.gate_eq_iff hu hu').mpr (hid.trans hid'.symm))
  obtain ⟨-, rfl, -⟩ := Submission.Stage.dispatched.inj (hst.symm.trans hst')
  rfl

/-- **A watchdog was set just now**, for a command that was accepted, or is one that was set
before. -/
theorem Regular.get?_watchdogs_step (h : c.Regular) (m : Move) {w : Watchdog}
    (hw : (c.step m).1.coordinator.watchdogs.get? id = some w) :
    c.Accepts m id w.base ∧ w.deadline = c.now + c.config.confirmTimeout.nanos
      ∨ (∀ base, ¬ c.Accepts m id base)
        ∧ ∃ w', c.coordinator.watchdogs.get? id = some w' ∧ w'.base = w.base
          ∧ w'.deadline = w.deadline := by
  cases hm : m.answers with
  | false =>
    exact .inr ⟨fun _ => h.not_accepts hm, (h.inTurn.course m).get?_watchdogs hm hw⟩
  | true =>
    refine ((h.answered hm).watched id).imp ?_ fun ⟨hno, hsame⟩ => ⟨hno, w, hsame ▸ hw, rfl, rfl⟩
    rintro ⟨base, htold, hset, -⟩
    obtain rfl := Option.some.inj (hset.symm.trans hw)
    exact ⟨htold, rfl⟩

/-- **A command that is accepted sets its entity's watchdog anew**, and the fetch of the one
before is called off. -/
theorem Regular.accepts (h : c.Regular) (haccepts : c.Accepts m id base) :
    (c.step m).1.coordinator.watchdogs.get? id
        = some ⟨base, c.now + c.config.confirmTimeout.nanos, .sleeping⟩
      ∧ ∀ f ∈ (c.step m).1.fetches, f.purpose = .confirm → f.entity ≠ id := by
  cases hm : m.answers with
  | false => exact absurd haccepts (h.not_accepts hm)
  | true =>
    rcases (h.answered hm).watched id with ⟨base', htold, hset, hfetches⟩ | ⟨hno, -⟩
    · exact ⟨h.eq_of_told haccepts htold ▸ hset, hfetches⟩
    · exact absurd haccepts (hno base)

end Client

end LiveSync
