import LiveSync.Proofs.Manager.Attendance

/-!
# Runs of a manager

Messages reach the manager through several queues, and which queue it reads
next is not up to it. A **run** of a manager is therefore any list of moments:
at each of them a message is taken up, whatever it is, and the manager sees
its surroundings as they are then. Whatever is proved of all runs holds of
every order in which queues, timers, attempts and users may get their turn.

What a manager holds is set by the effects that it carries out, and by
nothing else (`execute_fst`). So a field that each effect sets in its own way
is, after a message, a fold over the effects of the message
(`executeAll_foldl`).
-/

namespace LiveSync.Connection

/-! ### What effects set -/

/-- The attempt that the handshake timer is armed for after an effect. -/
def Effect.handshakeTimer (timer : Option Epoch) : Effect → Option Epoch
  | .startHandshakeTimer epoch _ => some epoch
  | .cancelHandshakeTimer => none
  | _ => timer

/-- The attempt that the retry timer follows after an effect. -/
def Effect.retryTimer (timer : Option Epoch) : Effect → Option Epoch
  | .scheduleRetry epoch _ => some epoch
  | .cancelRetry => none
  | _ => timer

/-- What observers see after an effect, in the epoch that is current. -/
def Effect.published (epoch : Epoch) (state : ConnectionState) : Effect → ConnectionState
  | .statusChanged status attempt => ⟨status, attempt, epoch⟩
  | _ => state

namespace Manager

/-- **A moment**: a message, and what the manager sees of its surroundings
when it takes it up. -/
structure Moment where
  env : Surroundings
  message : ManagerMessage

/-- **A run**: the manager after it, and all its orders. -/
def run (m : Manager) (moments : List Moment) : Step :=
  moments.foldl (fun s t => s.andThen (handle t.env · t.message)) (m, [])

variable {m : Manager}

theorem run_concat (m : Manager) (moments : List Moment) (t : Moment) :
    m.run (moments ++ [t]) = (m.run moments).andThen (handle t.env · t.message) := by
  rw [run, List.foldl_append]
  rfl

/-- A run is its first message and the run after it. -/
theorem run_cons (m : Manager) (t : Moment) (later : List Moment) :
    m.run (t :: later) = (m.handle t.env t.message).andThen (run · later) := by
  induction later using List.reverseRecOn with
  | nil => simp [run, Step.andThen]
  | append_singleton later t' ih =>
    rw [← List.cons_append, run_concat, ih]
    simp only [Step.andThen, run_concat, List.append_assoc]

/-- **What holds after a message holds after a run**, if a message keeps it. -/
theorem run_induction {P : Manager → Prop} (start : P m)
    (handle : ∀ m (t : Moment), P m → P (m.handle t.env t.message).1) (moments : List Moment) :
    P (m.run moments).1 := by
  induction moments using List.reverseRecOn with
  | nil => exact start
  | append_singleton moments t ih =>
    rw [run_concat]
    exact handle _ t ih

theorem Sound.run (h : m.Sound) (moments : List Moment) : (m.run moments).1.Sound :=
  run_induction h (fun _ t hm => hm.handle t.env t.message) moments

/-! ### Messages -/

/-- **What a message is to the manager**: an input of the life of its
connection, a frame to be sent, a submission, or the end. -/
theorem handle_induction {P : Step → Prop} (env : Surroundings) (message : ManagerMessage)
    (ignored : m.stopped = true → P (m, []))
    (feed : ∀ i, m.stopped = false → P (m.feed env i))
    (send : ∀ frame, m.stopped = false →
      P (m, if m.machine.isEstablished then m.transmit env frame else []))
    (submit : ∀ request id version action caller, m.stopped = false →
      P (m.submit env request id version action caller))
    (stop : m.stopped = false → P (m.stop env)) : P (m.handle env message) := by
  unfold handle
  cases hs : m.stopped with
  | true => exact ignored hs
  | false =>
    cases message with
    | command c =>
      cases c with
      | connect => exact feed .connect hs
      | disconnect => exact feed .disconnect hs
      | send frame => exact send frame hs
      | submit request id version action caller => exact submit request id version action caller hs
      | shutdown => exact stop hs
    | input i => exact feed i hs
    | host active => exact feed (.host active) hs

theorem handle_of_stopped (hs : m.stopped = true) (env : Surroundings)
    (message : ManagerMessage) : m.handle env message = (m, []) :=
  if_pos hs

/-- A submission changes nothing but what is pending. -/
theorem submit_fst (env : Surroundings) (m : Manager) (request : RequestId) (id : EntityId)
    (version : Version) (action : Action) (caller : CallId) :
    (m.submit env request id version action caller).1
      = { m with pending := (m.submit env request id version action caller).1.pending } := by
  unfold submit
  split <;> rfl

/-- **An input is followed** from where the machine is, to where it is
afterwards. The machine is ahead of the manager until its effects are carried
out. -/
theorem Sound.follows (h : m.Sound) (i : Input) :
    ∃ c, Course.Reads m.machine.course (m.machine.handle i).2 c
      ∧ (m.machine.handle i).1.OnCourse c
      ∧ { m with machine := (m.machine.handle i).1 }.Attends m.machine.course := by
  obtain ⟨c, hreads, hon⟩ := Machine.keepsOrder_handle h.machine m.machine.onCourse_self i
  exact ⟨c, hreads, hon, h.attends.of_eq rfl (List.Subset.refl _)⟩

/-! ### Effects -/

/-- **What one effect sets.** -/
theorem execute_fst (env : Surroundings) (m : Manager) (x : Effect) :
    (m.execute env x).1
      = { m with
          attempt := (m.execute env x).1.attempt
          handshakeTimer := x.handshakeTimer m.handshakeTimer
          retryTimer := x.retryTimer m.retryTimer
          pending := (m.execute env x).1.pending
          published := x.published m.machine.epoch m.published } := by
  cases x with
  | close epoch =>
    rw [execute, retire_fst]
    rfl
  | deliver frame =>
    rw [execute, deliver_fst]
    rfl
  | attemptEnded epoch =>
    rw [execute, Step.andThen, failPending, retire_fst]
    rfl
  | _ => rfl

/-- **A field that each effect sets in its own way.** The life of the
connection is the same for all effects of a message. -/
theorem executeAll_foldl {α : Type} {f : Manager → α} {g : α → Effect → α} {env : Surroundings}
    (execute : ∀ m' x, m'.machine = m.machine → f (m'.execute env x).1 = g (f m') x)
    (effects : List Effect) : f (m.executeAll env effects).1 = effects.foldl g (f m) := by
  induction effects using List.reverseRecOn with
  | nil => rfl
  | append_singleton effects x ih =>
    rw [executeAll_concat, List.foldl_append, ← ih]
    exact execute _ x (executeAll_frame env m effects).1

variable {env : Surroundings} {i : Input}

theorem feed_handshakeTimer :
    (m.feed env i).1.handshakeTimer
      = (m.machine.handle i).2.foldl Effect.handshakeTimer m.handshakeTimer :=
  executeAll_foldl (f := handshakeTimer) (fun m' x _ => by rw [execute_fst]) _

theorem feed_retryTimer :
    (m.feed env i).1.retryTimer
      = (m.machine.handle i).2.foldl Effect.retryTimer m.retryTimer :=
  executeAll_foldl (f := retryTimer) (fun m' x _ => by rw [execute_fst]) _

theorem feed_published :
    (m.feed env i).1.published
      = (m.machine.handle i).2.foldl (Effect.published (m.machine.handle i).1.epoch) m.published :=
  executeAll_foldl (f := published) (fun m' x hm => by
    rw [execute_fst]
    exact congrArg (x.published · m'.published) (congrArg Machine.epoch hm)) _

end Manager

end LiveSync.Connection
