import LiveSync.Connection.Manager
import LiveSync.Proofs.Connection.Openings

/-!
# The manager follows the life of its connection

The manager sees the life of its connection only through the effects it
carries out, one after another. What it holds follows the course of these
effects exactly (`Manager.Attends`): it transmits on the attempt that was
opened last, until that is closed, and commands are pending only on the
attempt whose handshake is done, until that has ended. One effect keeps
this, whatever the manager sees of its surroundings, and so does a message
(`Manager.Sound.handle`).

The other half is about the callers. Carrying out effects **settles**
pending commands (`Manager.Settles`): each answer takes one command off the
table, no command leaves the table without one, and an answer other than
the loss of the connection says what a frame says that carries the
command's own identifier.
-/

namespace LiveSync.Connection

open LiveSync.Wire

/-- **The attempt that can be transmitted on** at a point of a trace. -/
def Course.carrier (c : Course) : Option Epoch :=
  match c.stage with
  | .opened | .greeted | .handshaking | .settling | .established => some c.epoch
  | .over | .closing | .closed => none

/-- The caller of a submission. -/
def Command.caller? : Command → Option CallId
  | .submit _ _ _ _ caller => some caller
  | _ => none

/-- The identifier of a submission. -/
def Command.request? : Command → Option RequestId
  | .submit request _ _ _ _ => some request
  | _ => none

/-- The command that a message holds, if it holds one. -/
def ManagerMessage.command? : ManagerMessage → Option Command
  | .command c => some c
  | .input _ | .host _ => none

theorem exists_submit {message : ManagerMessage} {request : RequestId}
    (h : message.command?.bind Command.request? = some request) :
    ∃ id version action caller,
      message = .command (.submit request id version action caller) := by
  cases message with
  | command c =>
    cases c with
    | submit r id version action caller =>
      cases h
      exact ⟨id, version, action, caller, rfl⟩
    | _ => cases h
  | _ => cases h

namespace Manager

open Course

variable {m : Manager} {c c' : Course} {x : Effect} {effects : List Effect} {env : Surroundings}

/-! ### Carrying out effects -/

/-- **What holds after an effect holds after all of them**, if each keeps
it. -/
theorem executeAll_induction {P : Step → Prop} (start : P (m, []))
    (execute : ∀ s x, x ∈ effects → P s → P (s.andThen (execute env · x))) :
    P (executeAll env m effects) := by
  induction effects using List.reverseRecOn with
  | nil => exact start
  | append_singleton effects x ih =>
    rw [executeAll, List.foldl_append]
    refine execute _ x (List.mem_append_right _ (List.mem_singleton_self x)) (ih ?_)
    exact fun s y hy => execute s y (List.mem_append_left _ hy)

theorem executeAll_concat (env : Surroundings) (m : Manager) (effects : List Effect) (x : Effect) :
    executeAll env m (effects ++ [x]) = (executeAll env m effects).andThen (execute env · x) := by
  rw [executeAll, List.foldl_append]
  rfl

theorem retire_fst (m : Manager) (epoch : Epoch) :
    (m.retire epoch).1
      = { m with attempt := if m.attempt = some epoch then none else m.attempt } := by
  unfold retire
  split <;> rfl

theorem deliver_fst (m : Manager) (frame : ServerFrame) :
    (m.deliver frame).1 = { m with pending := (m.deliver frame).1.pending } := by
  unfold deliver
  split <;> (try split) <;> rfl

/-- The life of the connection is not touched by carrying out what it asks
for, and the manager goes on. -/
theorem execute_frame (env : Surroundings) (m : Manager) (x : Effect) :
    (m.execute env x).1.machine = m.machine ∧ (m.execute env x).1.stopped = m.stopped := by
  cases x with
  | close epoch => rw [execute, retire_fst]; exact ⟨rfl, rfl⟩
  | deliver frame => rw [execute, deliver_fst]; exact ⟨rfl, rfl⟩
  | attemptEnded epoch =>
    rw [execute, Step.andThen, failPending, retire_fst]
    exact ⟨rfl, rfl⟩
  | _ => exact ⟨rfl, rfl⟩

theorem executeAll_frame (env : Surroundings) (m : Manager) (effects : List Effect) :
    (executeAll env m effects).1.machine = m.machine
      ∧ (executeAll env m effects).1.stopped = m.stopped :=
  executeAll_induction (P := fun s => s.1.machine = m.machine ∧ s.1.stopped = m.stopped)
    ⟨rfl, rfl⟩ fun s x _ ih =>
      ⟨(execute_frame env s.1 x).1.trans ih.1, (execute_frame env s.1 x).2.trans ih.2⟩

/-! ### What the manager holds -/

/-- **The manager is where the trace of effects is.** -/
structure Attends (m : Manager) (c : Course) : Prop where
  /-- Frames are transmitted on the attempt that was opened last and is not
  closed. -/
  attempt : m.attempt = c.carrier
  /-- Commands are pending on the attempt whose handshake is done. -/
  pending : ∀ p ∈ m.pending.pairs,
    p.2.epoch = c.epoch ∧ (c.stage = .established ∨ c.stage = .closed)

theorem Attends.pending_eq_nil (h : m.Attends c) (hs : c.stage ≠ .established)
    (hs' : c.stage ≠ .closed) : m.pending.pairs = [] :=
  List.eq_nil_iff_forall_not_mem.mpr fun p hp => (h.pending p hp).2.elim hs hs'

/-- Attending needs nothing but the attempt and what is pending. -/
theorem Attends.of_eq {m' : Manager} (h : m.Attends c) (ha : m'.attempt = m.attempt)
    (hp : m'.pending.pairs ⊆ m.pending.pairs) : m'.Attends c where
  attempt := ha.trans h.attempt
  pending p hmem := h.pending p (hp hmem)

/-- A stage without pending commands. -/
theorem attends_of_nil (ha : m.attempt = c.carrier) (hp : m.pending.pairs = []) :
    m.Attends c where
  attempt := ha
  pending p hmem := by
    rw [hp] at hmem
    cases hmem

theorem deliver_pending_sublist (m : Manager) (frame : ServerFrame) :
    (m.deliver frame).1.pending.pairs.Sublist m.pending.pairs := by
  unfold deliver
  split <;> (try split) <;> first | exact List.filter_sublist | exact .refl _

/-- Nothing is transmitted on an attempt that was let go of. -/
theorem Attends.attempt_retire (h : m.Attends c)
    (hc : c.carrier = some c.epoch ∨ c.carrier = none) : (m.retire c.epoch).1.attempt = none := by
  rw [retire_fst]
  dsimp only
  split
  · rfl
  · rename_i hne
    rw [h.attempt] at hne ⊢
    exact hc.resolve_left hne

theorem Attends.execute_aside (h : m.Attends c) (hx : x.isAside = true) :
    (m.execute env x).1.Attends c := by
  cases x <;> first | exact h.of_eq rfl (List.Subset.refl _) | cases hx

/-- **One effect is followed.** -/
theorem Attends.execute (h : m.Attends c) (hx : Next c x c') (env : Surroundings) :
    (m.execute env x).1.Attends c' := by
  -- until the handshake is done nothing is pending, so only what comes later
  -- has to look at what is
  cases hx with
  | opening hlt => exact attends_of_nil rfl (h.pending_eq_nil nofun nofun)
  | greeting => exact attends_of_nil h.attempt (h.pending_eq_nil nofun nofun)
  | timer => exact attends_of_nil h.attempt (h.pending_eq_nil nofun nofun)
  | settling => exact attends_of_nil h.attempt (h.pending_eq_nil nofun nofun)
  | establishing => exact attends_of_nil h.attempt (h.pending_eq_nil nofun nofun)
  | @delivery e s frame hs =>
    refine h.of_eq ?_ (deliver_pending_sublist m frame).subset
    rw [Manager.execute, deliver_fst]
  | @closing e =>
    refine attends_of_nil (h.attempt_retire (.inl rfl)) ?_
    rw [Manager.execute, retire_fst]
    exact h.pending_eq_nil nofun nofun
  | @closed e s hs =>
    refine ⟨h.attempt_retire (.inl (by rcases hs with rfl | rfl <;> rfl)), fun p hp => ?_⟩
    rw [Manager.execute, retire_fst] at hp
    exact ⟨(h.pending p hp).1, .inr rfl⟩
  | cancelling => exact attends_of_nil h.attempt (h.pending_eq_nil nofun nofun)
  | @ending e s hs =>
    refine attends_of_nil (h.attempt_retire ?_) ?_
    · rcases hs with rfl | rfl | rfl | rfl
      · exact .inl rfl
      · exact .inl rfl
      · exact .inl rfl
      · exact .inr rfl
    · -- what is pending is pending on the attempt that ends, and fails with it
      rw [Manager.execute, Step.andThen, failPending, retire_fst]
      refine List.filter_eq_nil_iff.mpr fun p hp => ?_
      simp [(h.pending p hp).1]
  | aside hx => exact h.execute_aside hx

theorem Attends.executeAll (h : m.Attends c) (hr : Reads c effects c') (env : Surroundings) :
    (m.executeAll env effects).1.Attends c' := by
  induction hr using Reads.induction with
  | start => exact h
  | next hr hx ih =>
    rw [executeAll_concat]
    exact ih.execute hx env

/-! ### What callers are told -/

/-- What a caller is told. -/
abbrev Reply := CallId × Except Failure.Command Receipt

/-- The answer that an order gives, if it gives one. -/
def reply? : Order → Option Reply
  | .reply caller result => some (caller, result)
  | _ => none

/-- **The frames that answer a command**, and what they say of it. -/
inductive Answers (request : RequestId) : ServerFrame → Except Failure.Command Receipt → Prop
  | acknowledged {version : Option Version} :
    Answers request (.commandAck request version) (.ok ⟨version⟩)
  | refused {code message : String} :
    Answers request (.error code message (some request)) (.error (commandFailure code message))

/-- A command that was pending, and its answer. -/
structure Settlement where
  request : RequestId
  command : PendingCommand
  result : Except Failure.Command Receipt

/-- The place on the table of pending commands. -/
def Settlement.entry (x : Settlement) : RequestId × PendingCommand := (x.request, x.command)

/-- What the caller is told. -/
def Settlement.reply (x : Settlement) : Reply := (x.command.caller, x.result)

/-- **A step settles pending commands**: every answer takes a command off
the table, no command leaves it without an answer, and there is a reason for
each answer. -/
def Settles (why : RequestId → Except Failure.Command Receipt → Prop) (m : Manager) (s : Step) :
    Prop :=
  ∃ settled : List Settlement,
    s.2.filterMap reply? = settled.map Settlement.reply
      ∧ m.pending.pairs.Perm (settled.map Settlement.entry ++ s.1.pending.pairs)
      ∧ s.1.pending.pairs.Sublist m.pending.pairs
      ∧ ∀ x ∈ settled, why x.request x.result

variable {why why' : RequestId → Except Failure.Command Receipt → Prop} {s : Step}

theorem settles_of_eq (hp : s.1.pending = m.pending) (hr : ∀ o ∈ s.2, reply? o = none) :
    Settles why m s := by
  have hpairs : s.1.pending.pairs = m.pending.pairs := congrArg Table.pairs hp
  exact ⟨[], List.filterMap_eq_nil_iff.mpr hr, .of_eq hpairs.symm, hpairs ▸ .refl _, nofun⟩

theorem Settles.mono (h : Settles why m s) (hw : ∀ request result, why request result →
    why' request result) : Settles why' m s := by
  obtain ⟨settled, hreply, hperm, hsub, hwhy⟩ := h
  exact ⟨settled, hreply, hperm, hsub, fun x hx => hw _ _ (hwhy x hx)⟩

theorem Settles.sublist (h : Settles why m s) : s.1.pending.pairs.Sublist m.pending.pairs := by
  obtain ⟨-, -, -, hsub, -⟩ := h
  exact hsub

theorem Settles.distinct (h : Settles why m s) (hd : m.pending.Distinct) :
    s.1.pending.Distinct :=
  hd.of_sublist h.sublist

theorem Settles.andThen {f : Manager → Step} (h : Settles why m s) (hf : Settles why s.1 (f s.1)) :
    Settles why m (s.andThen f) := by
  obtain ⟨settled, hreply, hperm, hsub, hwhy⟩ := h
  obtain ⟨settled', hreply', hperm', hsub', hwhy'⟩ := hf
  refine ⟨settled ++ settled', ?_, ?_, hsub'.trans hsub, ?_⟩
  · rw [Step.andThen, List.filterMap_append, hreply, hreply', List.map_append]
  · rw [List.map_append, List.append_assoc]
    exact hperm.trans (hperm'.append_left _)
  · exact List.forall_mem_append.mpr ⟨hwhy, hwhy'⟩

theorem mem_transmit {frame : ClientFrame} {o : Order} (h : o ∈ m.transmit env frame) :
    ∃ epoch, o = .transmit epoch frame := by
  unfold transmit at h
  split at h
  · split at h
    · exact ⟨_, List.mem_singleton.mp h⟩
    · cases h
  · cases h

theorem reply?_of_mem_transmit {frame : ClientFrame} {o : Order} (h : o ∈ m.transmit env frame) :
    reply? o = none := by
  obtain ⟨epoch, rfl⟩ := mem_transmit h
  rfl

theorem settles_retire (m : Manager) (epoch : Epoch) : Settles why m (m.retire epoch) := by
  unfold retire
  split
  · exact settles_of_eq rfl (List.forall_mem_singleton.mpr rfl)
  · exact settles_of_eq rfl nofun

theorem settles_answer (hd : m.pending.Distinct) {request : RequestId} {p : PendingCommand}
    {result : Except Failure.Command Receipt} (hp : m.pending.get? request = some p)
    (hw : why request result) : Settles why m (m.answer request p result) :=
  ⟨[⟨request, p, result⟩], rfl, hd.perm_erase hp, List.filter_sublist,
    List.forall_mem_singleton.mpr hw⟩

/-- **Handing a frame on settles the command it answers**, if that is
pending. -/
theorem settles_deliver (hd : m.pending.Distinct) (frame : ServerFrame) :
    Settles (Answers · frame) m (m.deliver frame) := by
  unfold deliver
  split
  · split
    · rename_i hp
      exact settles_answer hd hp .acknowledged
    · exact settles_of_eq rfl nofun
  · split
    · rename_i hp
      exact settles_answer hd hp .refused
    · exact settles_of_eq rfl (List.forall_mem_singleton.mpr rfl)
  · exact settles_of_eq rfl (List.forall_mem_singleton.mpr rfl)

/-- **The end of an attempt settles what is pending on it.** -/
theorem settles_failPending (m : Manager) (epoch : Epoch) :
    Settles (fun _ result => result = .error lost) m (m.failPending epoch) := by
  refine ⟨(m.pending.pairs.filter fun p => p.2.epoch = epoch).map
    fun p => ⟨p.1, p.2, .error lost⟩, ?_, ?_, List.filter_sublist, ?_⟩
  · simp [failPending, List.filterMap_map, Function.comp_def, reply?, Settlement.reply]
  · simp only [failPending, List.map_map]
    refine .trans (List.filter_append_perm (fun p => decide (p.2.epoch = epoch)) _).symm ?_
    simp [Function.comp_def, Settlement.entry, Table.filter]
  · rintro x hx
    obtain ⟨p, -, rfl⟩ := List.mem_map.mp hx
    rfl

/-- Why carrying out an effect may answer a command. -/
def Settling (x : Effect) (request : RequestId) (result : Except Failure.Command Receipt) : Prop :=
  result = .error lost ∨ ∃ frame, x = .deliver frame ∧ Answers request frame result

theorem settles_execute (hd : m.pending.Distinct) (x : Effect) :
    Settles (Settling x) m (m.execute env x) := by
  cases x with
  | «open» epoch =>
    refine settles_of_eq rfl fun o ho => ?_
    rcases List.mem_cons.mp ho with rfl | ho
    · rfl
    · obtain ⟨e, -, rfl⟩ := Option.map_eq_some_iff.mp (Option.mem_toList.mp ho)
      rfl
  | send epoch frame =>
    refine settles_of_eq rfl fun o ho => ?_
    rw [execute] at ho
    split at ho
    · exact reply?_of_mem_transmit ho
    · cases ho
  | close epoch => exact settles_retire m epoch
  | established epoch user =>
    refine settles_of_eq rfl fun o ho => ?_
    rcases List.mem_append.mp ho with ho | ho
    · obtain ⟨topic, -, ho⟩ := List.mem_flatMap.mp ho
      exact reply?_of_mem_transmit ho
    · rw [List.mem_singleton.mp ho]
      rfl
  | deliver frame => exact (settles_deliver hd frame).mono fun _ _ h => .inr ⟨frame, rfl, h⟩
  | attemptEnded epoch =>
    exact (settles_retire m epoch).andThen
      ((settles_failPending _ epoch).mono fun _ _ h => .inl h)
  | _ => exact settles_of_eq rfl (List.forall_mem_singleton.mpr rfl)

/-- **Carrying out effects settles pending commands.** -/
theorem settles_executeAll (hd : m.pending.Distinct) (env : Surroundings) (effects : List Effect) :
    Settles (fun request result => ∃ x ∈ effects, Settling x request result) m
      (executeAll env m effects) := by
  refine executeAll_induction (settles_of_eq rfl nofun) fun s x hx ih => ih.andThen ?_
  exact (settles_execute (ih.distinct hd) x).mono fun _ _ h => ⟨x, hx, h⟩

/-- Why a message may answer a command: a frame on the attempt under way
answers it, or the connection is lost. -/
def Reason (m : Manager) (message : ManagerMessage) (request : RequestId)
    (result : Except Failure.Command Receipt) : Prop :=
  result = .error lost
    ∨ ∃ frame, message = .input (.frame m.machine.epoch frame) ∧ Answers request frame result

theorem settles_feed (hd : m.pending.Distinct) (env : Surroundings) {message : ManagerMessage}
    {i : Input} (hi : ∀ epoch frame, i = .frame epoch frame → message = .input i) :
    Settles (m.Reason message) m (m.feed env i) := by
  -- the life of the connection moves on first, which leaves what is pending alone
  have h : Settles (fun request result => ∃ x ∈ (m.machine.handle i).2, Settling x request result)
      m (m.feed env i) :=
    settles_executeAll (m := { m with machine := (m.machine.handle i).1 }) hd env _
  refine h.mono ?_
  rintro request result ⟨x, hx, hlost | ⟨frame, rfl, hanswer⟩⟩
  · exact .inl hlost
  · have heq := Machine.eq_frame_of_deliver_mem hx
    exact .inr ⟨frame, (hi _ _ heq).trans (congrArg _ heq), hanswer⟩

/-- **A message settles pending commands**, unless it submits one. -/
theorem settles_handle (hd : m.pending.Distinct) (env : Surroundings) {message : ManagerMessage}
    (hm : message.command?.bind Command.request? = none) :
    Settles (m.Reason message) m (m.handle env message) := by
  unfold handle
  split
  · exact settles_of_eq rfl nofun
  · cases message with
    | command c =>
      cases c with
      | connect => exact settles_feed hd env nofun
      | disconnect => exact settles_feed hd env nofun
      | send frame =>
        refine settles_of_eq rfl fun o ho => ?_
        dsimp only [obey] at ho
        split at ho
        · exact reply?_of_mem_transmit ho
        · cases ho
      | submit request id version action caller => cases hm
      | shutdown =>
        exact (settles_feed (i := .disconnect) hd env nofun).andThen (settles_of_eq rfl nofun)
    | input i => exact settles_feed hd env fun _ _ _ => rfl
    | host active => exact settles_feed hd env nofun

/-! ### Messages -/

/-- **What holds of a manager after every message.** -/
structure Sound (m : Manager) : Prop where
  machine : m.machine.Sound
  attends : m.Attends m.machine.course
  distinct : m.pending.Distinct
  /-- A manager that has stopped has no attempt. -/
  stopped : m.stopped = true → m.machine.phase = none

/-- A manager that follows the effects of its machine is where the machine
is. -/
theorem Attends.of_onCourse (h : m.Attends c) (hc : m.machine.OnCourse c) :
    m.Attends m.machine.course := by
  by_cases hp : m.machine.phase = none
  · have hs : c.stage = .over := hc.stage_over hp
    have hs' : m.machine.stage = .over := by rw [Machine.stage, hp]
    refine attends_of_nil ?_ (h.pending_eq_nil (by simp [hs]) (by simp [hs]))
    rw [h.attempt, carrier, carrier, hs, Machine.course, hs']
  · exact hc.eq_course hp ▸ h

theorem sound_start {machine : Machine} (h : machine.Sound) (hp : machine.phase = none) :
    (start machine).Sound where
  machine := h
  attends := attends_of_nil (by simp [start, Machine.stage, hp, carrier]) rfl
  distinct := Table.distinct_empty
  stopped := nofun

/-- What is pending is pending on the attempt that is established. -/
theorem Sound.pending_current (h : m.Sound) {p : RequestId × PendingCommand}
    (hp : p ∈ m.pending.pairs) :
    p.2.epoch = m.machine.epoch ∧ m.machine.isEstablished = true := by
  obtain ⟨he, hs⟩ := h.attends.pending p hp
  exact ⟨he, Machine.stage_eq_established_iff.mp (hs.resolve_right (Machine.stage_ne_closed _))⟩

theorem Sound.pending_of_stopped (h : m.Sound) (hs : m.stopped = true) :
    m.pending.pairs = [] :=
  List.eq_nil_iff_forall_not_mem.mpr fun _ hp => by
    have he := (h.pending_current hp).2
    rw [Machine.isEstablished, h.stopped hs] at he
    cases he

/-- The manager transmits on an established attempt. -/
theorem Sound.attempt_of_established (h : m.Sound) (he : m.machine.isEstablished = true) :
    m.attempt = some m.machine.epoch := by
  rw [h.attends.attempt, carrier, Machine.course, Machine.stage_eq_established_iff.mpr he]

theorem feed_machine (env : Surroundings) (m : Manager) (i : Input) :
    (m.feed env i).1.machine = (m.machine.handle i).1 :=
  (executeAll_frame env _ _).1

theorem feed_stopped (env : Surroundings) (m : Manager) (i : Input) :
    (m.feed env i).1.stopped = m.stopped :=
  (executeAll_frame env _ _).2

/-- **An input is followed**: a manager that goes on is sound after it. -/
theorem Sound.feed (h : m.Sound) (hs : m.stopped = false) (env : Surroundings) (i : Input) :
    (m.feed env i).1.Sound := by
  obtain ⟨c, hreads, hon⟩ := Machine.keepsOrder_handle h.machine m.machine.onCourse_self i
  -- the machine is ahead of the manager until its effects are carried out
  have hattends : { m with machine := (m.machine.handle i).1 }.Attends m.machine.course :=
    h.attends.of_eq rfl (List.Subset.refl _)
  refine ⟨?_, ?_, ?_, ?_⟩
  · rw [feed_machine]
    exact h.machine.handle i
  · refine (hattends.executeAll hreads env).of_onCourse ?_
    rw [(executeAll_frame env _ _).1]
    exact hon
  · have hsettles : Settles (m.Reason (.input i)) m (m.feed env i) :=
      settles_feed h.distinct env fun _ _ _ => rfl
    exact hsettles.distinct h.distinct
  · rw [feed_stopped, hs]
    nofun

/-- **A submission is transmitted** on the established attempt, and pending
from then on, or its caller is told at once that there is no connection. -/
theorem Sound.submit_cases (h : m.Sound) (env : Surroundings) (request : RequestId) (id : EntityId)
    (version : Version) (action : Action) (caller : CallId) :
    (m.machine.isEstablished = true ∧ env.listening m.machine.epoch = true
        ∧ m.submit env request id version action caller
          = ({ m with
              pending := (m.pending.filter fun _ p => env.waiting p.caller).insert request
                ⟨m.machine.epoch, caller⟩ },
            [.transmit m.machine.epoch (.command request id version action)]))
      ∨ m.submit env request id version action caller
        = (m, [.reply caller (.error unconnected)]) := by
  unfold submit canTransmit transmit
  split
  · rename_i hc
    have ha := h.attempt_of_established hc.1
    have hl : env.listening m.machine.epoch = true := by simpa [ha] using hc.2
    exact .inl ⟨hc.1, hl, by simp [ha, hl]⟩
  · exact .inr rfl

/-- **What a message can do**: it settles pending commands, or it submits
one. To a manager that has stopped it does nothing, which settles nothing. -/
theorem Sound.handle_cases (h : m.Sound) (env : Surroundings) (message : ManagerMessage) :
    Settles (m.Reason message) m (m.handle env message)
      ∨ ∃ request id version action caller,
        message = .command (.submit request id version action caller)
          ∧ m.handle env message = m.submit env request id version action caller := by
  cases hm : message.command?.bind Command.request? with
  | none => exact .inl (settles_handle h.distinct env hm)
  | some request =>
    obtain ⟨id, version, action, caller, rfl⟩ := exists_submit hm
    cases hs : m.stopped with
    | true =>
      rw [handle, hs]
      exact .inl (settles_of_eq rfl nofun)
    | false =>
      rw [handle, hs]
      exact .inr ⟨request, id, version, action, caller, rfl, rfl⟩

theorem Sound.submit (h : m.Sound) (env : Surroundings) (request : RequestId) (id : EntityId)
    (version : Version) (action : Action) (caller : CallId) :
    (m.submit env request id version action caller).1.Sound := by
  rcases h.submit_cases env request id version action caller with ⟨he, -, heq⟩ | heq
  · rw [heq]
    refine ⟨h.machine, ⟨h.attends.attempt, fun p hp => ?_⟩, ?_, h.stopped⟩
    · rcases Table.mem_pairs_insert hp with rfl | hp
      · exact ⟨rfl, .inl (Machine.stage_eq_established_iff.mpr he)⟩
      · exact h.attends.pending p (List.mem_filter.mp hp).1
    · exact (h.distinct.of_sublist List.filter_sublist).insert _ _
  · rw [heq]
    exact h

theorem Sound.stop (h : m.Sound) (hs : m.stopped = false) (env : Surroundings) :
    (m.stop env).1.Sound := by
  have hf := h.feed hs env .disconnect
  refine ⟨hf.machine, hf.attends.of_eq rfl (List.Subset.refl _), hf.distinct, fun _ => ?_⟩
  have hm : (m.stop env).1.machine = m.machine.onDisconnect.1 := feed_machine env m .disconnect
  rw [hm, Machine.onDisconnect_fst]

/-- **A message keeps a manager sound.** -/
theorem Sound.handle (h : m.Sound) (env : Surroundings) (message : ManagerMessage) :
    (m.handle env message).1.Sound := by
  unfold Manager.handle
  split
  · exact h
  · rename_i hs
    have hs : m.stopped = false := Bool.eq_false_iff.mpr hs
    cases message with
    | command c =>
      cases c with
      | connect => exact h.feed hs env _
      | disconnect => exact h.feed hs env _
      | send frame => exact h
      | submit request id version action caller => exact h.submit env _ _ _ _ _
      | shutdown => exact h.stop hs env
    | input i => exact h.feed hs env i
    | host active => exact h.feed hs env _

end Manager

end LiveSync.Connection
