import LiveSync.Proofs.Connection.GivenUp
import LiveSync.Proofs.Manager.Run
import Mathlib.Data.Finset.Option

/-!
# The resources of a manager

A manager holds at most one attempt that it can transmit on, one timer for
the handshake and one for the retry, and the commands that are pending. It
takes all of them up and lets go of them while it carries out effects, one
effect after another, and the life of its connection is ahead of it as long
as there are effects left. Once a message is dealt with, the two are in step
again (`Manager.InStep`), whatever the message was and however late it came.

Of the orders of a run more can be said than what is left after each message
(`Steers`). No attempt is ever opened beside another one: at the moment an
attempt is opened, nothing can be sent any more on those that came before.
Therefore a frame can only get to the one attempt that was opened last.
-/

namespace LiveSync.Connection

open LiveSync.Wire

/-! ### What can be sent to -/

/-- The attempts that can be sent to after an order. -/
def Order.outlets (outlets : Finset Epoch) : Order → Finset Epoch
  | .openAttempt epoch => insert epoch outlets
  | .retire epoch => outlets.erase epoch
  | _ => outlets

/-- **The attempts that can be sent to** after orders: those that were opened
and that the manager has not let go of. -/
def outlets (orders : List Order) : Finset Epoch := orders.foldl Order.outlets ∅

/-- Whether an order concerns no attempt. -/
def Order.isAside : Order → Bool
  | .openAttempt _ | .transmit _ _ | .retire _ => false
  | .armHandshake _ _ | .disarmHandshake | .armRetry _ _ | .disarmRetry | .publish _ | .report _
  | .reply _ _ => true

/-- **Orders that keep to one attempt at a time**: the attempt that can be
sent to before them, and the one after them. -/
inductive Steers : Option Epoch → List Order → Option Epoch → Prop
  | nil {a : Option Epoch} : Steers a [] a
  | opening {e : Epoch} {orders : List Order} {a : Option Epoch}
    (tail : Steers (some e) orders a) : Steers none (.openAttempt e :: orders) a
  | transmitting {e : Epoch} {frame : ClientFrame} {orders : List Order} {a : Option Epoch}
    (tail : Steers (some e) orders a) : Steers (some e) (.transmit e frame :: orders) a
  | retiring {e : Epoch} {orders : List Order} {a : Option Epoch}
    (tail : Steers none orders a) : Steers (some e) (.retire e :: orders) a
  | aside {a a' : Option Epoch} {o : Order} {orders : List Order} (head : o.isAside = true)
    (tail : Steers a orders a') : Steers a (o :: orders) a'

namespace Steers

variable {a a' a'' : Option Epoch} {orders orders' : List Order}

theorem append (h : Steers a orders a') (h' : Steers a' orders' a'') :
    Steers a (orders ++ orders') a'' := by
  induction h with
  | nil => exact h'
  | opening _ ih => exact .opening (ih h')
  | transmitting _ ih => exact .transmitting (ih h')
  | retiring _ ih => exact .retiring (ih h')
  | aside head _ ih => exact .aside head (ih h')

theorem of_append (h : Steers a (orders ++ orders') a'') :
    ∃ a', Steers a orders a' ∧ Steers a' orders' a'' := by
  induction orders generalizing a with
  | nil => exact ⟨a, .nil, h⟩
  | cons o orders ih =>
    cases h with
    | opening tail =>
      obtain ⟨a', h, h'⟩ := ih tail
      exact ⟨a', .opening h, h'⟩
    | transmitting tail =>
      obtain ⟨a', h, h'⟩ := ih tail
      exact ⟨a', .transmitting h, h'⟩
    | retiring tail =>
      obtain ⟨a', h, h'⟩ := ih tail
      exact ⟨a', .retiring h, h'⟩
    | aside head tail =>
      obtain ⟨a', h, h'⟩ := ih tail
      exact ⟨a', .aside head h, h'⟩

theorem of_aside (h : ∀ o ∈ orders, o.isAside = true) : Steers a orders a := by
  induction orders with
  | nil => exact .nil
  | cons o orders ih =>
    rw [List.forall_mem_cons] at h
    exact .aside h.1 (ih h.2)

theorem foldl_outlets (h : Steers a orders a') :
    orders.foldl Order.outlets a.toFinset = a'.toFinset := by
  induction h with
  | nil => rfl
  | opening _ ih => exact ih
  | transmitting _ ih => exact ih
  | @retiring e orders a _ ih =>
    have hnone : Order.outlets (some e).toFinset (.retire e) = ∅ := by simp [Order.outlets]
    rw [List.foldl_cons, hnone]
    exact ih
  | @aside a a' o orders head _ ih =>
    have hsame : Order.outlets a.toFinset o = a.toFinset := by
      cases o <;> first | rfl | cases head
    rw [List.foldl_cons, hsame]
    exact ih

theorem outlets_eq (h : Steers none orders a) : outlets orders = a.toFinset := h.foldl_outlets

end Steers

/-- **One outlet at a time.** -/
structure SingleOutlet (orders : List Order) : Prop where
  /-- When an attempt is opened, no earlier one can be sent to any more. -/
  opens : ∀ past epoch rest, orders = past ++ .openAttempt epoch :: rest → outlets past = ∅
  /-- A frame is transmitted on the attempt that can be sent to. -/
  transmits : ∀ past epoch frame rest, orders = past ++ .transmit epoch frame :: rest →
    outlets past = {epoch}
  /-- There is never more than one. -/
  card_le_one : ∀ past rest, orders = past ++ rest → (outlets past).card ≤ 1

theorem Steers.singleOutlet {orders : List Order} {a : Option Epoch} (h : Steers none orders a) :
    SingleOutlet orders where
  opens past epoch rest heq := by
    obtain ⟨a', hpast, hrest⟩ := (heq ▸ h).of_append
    rw [hpast.outlets_eq]
    cases hrest with
    | opening => rfl
    | aside head => cases head
  transmits past epoch frame rest heq := by
    obtain ⟨a', hpast, hrest⟩ := (heq ▸ h).of_append
    rw [hpast.outlets_eq]
    cases hrest with
    | transmitting => rfl
    | aside head => cases head
  card_le_one past rest heq := by
    obtain ⟨a', hpast, -⟩ := (heq ▸ h).of_append
    rw [hpast.outlets_eq, Option.card_toFinset]
    cases a' <;> simp

/-! ### Timers -/

/-- **The attempt whose handshake timer runs** at a point of a trace. -/
def Course.timer (c : Course) : Option Epoch :=
  match c.stage with
  | .handshaking | .closing => some c.epoch
  | .over | .opened | .greeted | .settling | .established | .closed => none

/-- The handshake timer follows the course of the effects. -/
theorem Course.Reads.timer {c c' : Course} {effects : List Effect} (h : Reads c effects c') :
    effects.foldl Effect.handshakeTimer c.timer = c'.timer := by
  induction h with
  | nil => rfl
  | @cons c c' c'' x effects head _ ih =>
    rw [List.foldl_cons, ← ih]
    congr 1
    cases head with
    | delivery hs => rfl
    | closed hs => rcases hs with rfl | rfl <;> rfl
    | ending hs => rcases hs with rfl | rfl | rfl | rfl <;> rfl
    | aside hx => cases x <;> first | rfl | cases hx
    | _ => rfl

/-- Nothing is retried that is not scheduled. -/
theorem foldl_retryTimer {effects : List Effect} (h : Silent effects) :
    effects.foldl Effect.retryTimer none = none := by
  induction effects with
  | nil => rfl
  | cons x effects ih =>
    obtain ⟨hx, heffects⟩ := silent_cons.mp h
    have hnone : Effect.retryTimer none x = none := by
      cases x <;> first | rfl | cases hx
    rw [List.foldl_cons, hnone]
    exact ih heffects

namespace Machine

/-- The attempt that a machine at rest transmits on. -/
theorem course_carrier (m : Machine) :
    m.course.carrier = if m.phase = none then none else some m.epoch := by
  unfold course stage Course.carrier
  cases m.phase with
  | none => rfl
  | some phase => cases phase <;> rfl

/-- The attempt whose handshake timer runs at rest. -/
theorem course_timer (m : Machine) :
    m.course.timer = if m.phase = some .handshaking then some m.epoch else none := by
  unfold course stage Course.timer
  cases m.phase with
  | none => rfl
  | some phase => cases phase <;> rfl

/-- A machine without an attempt waits for no handshake, whatever epochs it
has passed over. -/
theorem OnCourse.timer {m : Machine} {c : Course} (h : m.OnCourse c) :
    c.timer = m.course.timer := by
  by_cases hp : m.phase = none
  · rw [course_timer, hp, Course.timer, h.stage_over hp]
    rfl
  · rw [h.eq_course hp]

/-- The timer of a retry is cancelled first. -/
theorem exists_cancelRetry_cons (m : Machine) : ∃ rest, m.onDisconnect.2 = .cancelRetry :: rest :=
  ⟨_, rfl⟩

end Machine

namespace Manager

variable {m : Manager} {c c' : Course} {x : Effect} {effects : List Effect} {env : Surroundings}

/-! ### Orders -/

theorem steers_transmit (env : Surroundings) (m : Manager) (frame : ClientFrame) :
    Steers m.attempt (m.transmit env frame) m.attempt := by
  unfold transmit
  cases ha : m.attempt with
  | none => exact .nil
  | some epoch =>
    dsimp only
    split
    · exact .transmitting .nil
    · exact .nil

theorem steers_retire (m : Manager) (epoch : Epoch) :
    Steers m.attempt (m.retire epoch).2 (m.retire epoch).1.attempt := by
  unfold retire
  split
  · rename_i ha
    rw [ha]
    exact .retiring .nil
  · exact .nil

theorem steers_failPending (m : Manager) (epoch : Epoch) :
    Steers m.attempt (m.failPending epoch).2 (m.failPending epoch).1.attempt := by
  refine .of_aside fun o ho => ?_
  obtain ⟨p, -, rfl⟩ := List.mem_map.mp ho
  rfl

theorem steers_deliver (m : Manager) (frame : ServerFrame) :
    Steers m.attempt (m.deliver frame).2 (m.deliver frame).1.attempt := by
  rw [deliver_fst]
  unfold deliver
  split <;> (try split) <;> first | exact .aside rfl .nil | exact .nil

theorem steers_replay (env : Surroundings) (m : Manager) (topics : List Topic) :
    Steers m.attempt (topics.flatMap fun topic => m.transmit env (.subscribe topic))
      m.attempt := by
  induction topics with
  | nil => exact .nil
  | cons topic topics ih =>
    rw [List.flatMap_cons]
    exact (steers_transmit env m _).append ih

/-- **One effect keeps to one attempt**, because an attempt is opened only
when there is none. -/
theorem steers_execute (env : Surroundings) (hopen : ∀ epoch, x = .open epoch → m.attempt = none) :
    Steers m.attempt (m.execute env x).2 (m.execute env x).1.attempt := by
  cases x with
  | «open» epoch =>
    have hnone := hopen epoch rfl
    simp only [execute, hnone]
    exact .opening .nil
  | send epoch frame =>
    dsimp only [execute]
    split
    · exact steers_transmit env m frame
    · exact .nil
  | close epoch => exact steers_retire m epoch
  | established epoch user => exact (steers_replay env m env.topics).append (.aside rfl .nil)
  | deliver frame => exact steers_deliver m frame
  | attemptEnded epoch => exact (steers_retire m epoch).append (steers_failPending _ epoch)
  | startHandshakeTimer | cancelHandshakeTimer | scheduleRetry | cancelRetry | statusChanged
  | failed => exact .aside rfl .nil

theorem Attends.steers_executeAll (h : m.Attends c) (hr : Course.Reads c effects c')
    (env : Surroundings) :
    Steers m.attempt (m.executeAll env effects).2 (m.executeAll env effects).1.attempt := by
  induction hr using Course.Reads.induction with
  | start => exact .nil
  | next hr hx ih =>
    rw [executeAll_concat]
    refine ih.append (steers_execute env ?_)
    rintro epoch rfl
    rw [(h.executeAll hr env).attempt]
    cases hx with
    | opening => rfl
    | aside hx => cases hx

/-! ### Timers -/

/-- **No retry is left** when the connection is no longer wanted. -/
theorem retryTimer_disconnect (env : Surroundings) (m : Manager) :
    (m.feed env .disconnect).1.retryTimer = none := by
  obtain ⟨rest, hcons⟩ := m.machine.exists_cancelRetry_cons
  have hsilent := m.machine.silent_onDisconnect
  rw [hcons, silent_cons] at hsilent
  rw [feed_retryTimer, Machine.handle, hcons]
  exact foldl_retryTimer hsilent.2

/-- The handshake timer runs for the machine before and after an input. -/
theorem Sound.handshakeTimer_feed (h : m.Sound) (ht : m.handshakeTimer = m.machine.course.timer)
    (env : Surroundings) (i : Input) :
    (m.feed env i).1.handshakeTimer = (m.feed env i).1.machine.course.timer := by
  obtain ⟨c, hreads, hon, -⟩ := h.follows i
  rw [feed_handshakeTimer, ht, hreads.timer, feed_machine, hon.timer]

/-! ### Messages -/

/-- **In step**: the manager holds the attempt of its machine, and a timer
for the handshake of that attempt as long as there is one to wait for. -/
structure InStep (m : Manager) : Prop where
  attempt : m.attempt = if m.machine.phase = none then none else some m.machine.epoch
  handshakeTimer :
    m.handshakeTimer
      = if m.machine.phase = some .handshaking then some m.machine.epoch else none

/-- **Nothing is held any more.** -/
structure Released (m : Manager) : Prop where
  attempt : m.attempt = none
  handshakeTimer : m.handshakeTimer = none
  retryTimer : m.retryTimer = none
  pending : m.pending.pairs = []

/-- **What the timers of a manager keep to**, whatever message comes. -/
structure Keeps (m : Manager) : Prop where
  sound : m.Sound
  handshakeTimer : m.handshakeTimer = m.machine.course.timer
  retryTimer : m.stopped = true → m.retryTimer = none

theorem keeps_start (backoff : Backoff) (protocol : UInt32) (timeout : Duration)
    (hostActive : Bool) : (start (.initial backoff protocol timeout hostActive)).Keeps where
  sound := sound_start (Machine.sound_initial ..) rfl
  handshakeTimer := rfl
  retryTimer := nofun

theorem Keeps.inStep (h : m.Keeps) : m.InStep where
  attempt := h.sound.attends.attempt.trans m.machine.course_carrier
  handshakeTimer := h.handshakeTimer.trans m.machine.course_timer

/-- A manager that has stopped holds nothing. -/
theorem Keeps.released (h : m.Keeps) (hs : m.stopped = true) : m.Released where
  attempt := by rw [h.inStep.attempt, if_pos (h.sound.stopped hs)]
  handshakeTimer := by rw [h.inStep.handshakeTimer, h.sound.stopped hs]; rfl
  retryTimer := h.retryTimer hs
  pending := h.sound.pending_of_stopped hs

/-- **A message keeps the timers right.** -/
theorem Keeps.handle (h : m.Keeps) (env : Surroundings) (message : ManagerMessage) :
    (m.handle env message).1.Keeps := by
  refine ⟨h.sound.handle env message, ?_, ?_⟩
  · refine handle_induction (P := fun s => s.1.handshakeTimer = s.1.machine.course.timer) env
      message (fun _ => h.handshakeTimer) (fun i _ => h.sound.handshakeTimer_feed h.handshakeTimer
        env i) (fun _ _ => h.handshakeTimer) (fun request id version action caller _ => ?_)
      (fun _ => h.sound.handshakeTimer_feed h.handshakeTimer env .disconnect)
    rw [submit_fst]
    exact h.handshakeTimer
  · refine handle_induction (P := fun s => s.1.stopped = true → s.1.retryTimer = none) env message
      (fun _ => h.retryTimer) (fun i hs => ?_) (fun _ _ => h.retryTimer)
      (fun request id version action caller _ => ?_)
      (fun _ _ => retryTimer_disconnect env m)
    · rw [feed_stopped, hs]
      nofun
    · rw [submit_fst]
      exact h.retryTimer

theorem Sound.steers_feed (h : m.Sound) (env : Surroundings) (i : Input) :
    Steers m.attempt (m.feed env i).2 (m.feed env i).1.attempt := by
  obtain ⟨c, hreads, -, hattends⟩ := h.follows i
  exact hattends.steers_executeAll hreads env

/-- **A message keeps to one attempt at a time.** -/
theorem Sound.steers_handle (h : m.Sound) (env : Surroundings) (message : ManagerMessage) :
    Steers m.attempt (m.handle env message).2 (m.handle env message).1.attempt := by
  refine handle_induction (P := fun s => Steers m.attempt s.2 s.1.attempt) env message
    (fun _ => .nil) (fun i _ => h.steers_feed env i) (fun frame _ => ?_)
    (fun request id version action caller _ => ?_)
    (fun _ => (h.steers_feed env .disconnect).append .nil)
  · dsimp only
    split
    · exact steers_transmit env m frame
    · exact .nil
  · rcases h.submit_cases env request id version action caller with ⟨he, -, heq⟩ | heq
    · rw [heq]
      dsimp only
      rw [h.attempt_of_established he]
      exact .transmitting .nil
    · rw [heq]
      exact .aside rfl .nil

/-! ### Runs -/

theorem stopped_handle_shutdown (env : Surroundings) (m : Manager) :
    (m.handle env (.command .shutdown)).1.stopped = true := by
  unfold handle
  split
  · assumption
  · rfl

/-- A manager that was told to shut down has stopped for good. -/
theorem stopped_run (m : Manager) {moments : List Moment}
    (h : ∃ t ∈ moments, t.message = .command .shutdown) : (m.run moments).1.stopped = true := by
  induction moments using List.reverseRecOn with
  | nil => exact absurd h (by simp)
  | append_singleton moments t ih =>
    rw [run_concat, Step.andThen]
    obtain ⟨t', ht', hshutdown⟩ := h
    rcases List.mem_append.mp ht' with ht' | ht'
    · have hs := ih ⟨t', ht', hshutdown⟩
      rw [handle_of_stopped hs]
      exact hs
    · rw [← List.mem_singleton.mp ht', hshutdown]
      exact stopped_handle_shutdown _ _

theorem Keeps.run (h : m.Keeps) (moments : List Moment) : (m.run moments).1.Keeps :=
  run_induction h (fun _ t hm => hm.handle t.env t.message) moments

/-- **A run keeps to one attempt at a time.** -/
theorem Sound.steers_run (h : m.Sound) (moments : List Moment) :
    Steers m.attempt (m.run moments).2 (m.run moments).1.attempt := by
  induction moments using List.reverseRecOn with
  | nil => exact .nil
  | append_singleton moments t ih =>
    rw [run_concat]
    exact ih.append ((h.run moments).steers_handle t.env t.message)

/-- **The resources of a manager follow its machine.** After any run the two
are in step. In the orders of the run no attempt is opened while an earlier
one can still be sent to, so that there is at most one at any time, and after
the run it is the one that the manager holds. Once the manager was told to
shut down, nothing is held any more. -/
theorem resources_follow_machine (backoff : Backoff) (protocol : UInt32) (timeout : Duration)
    (hostActive : Bool) (moments : List Moment) :
    let s := (start (.initial backoff protocol timeout hostActive)).run moments
    s.1.InStep ∧ SingleOutlet s.2 ∧ outlets s.2 = s.1.attempt.toFinset
      ∧ ((∃ t ∈ moments, t.message = .command .shutdown) → s.1.Released) := by
  intro s
  have hkeeps : s.1.Keeps := (keeps_start backoff protocol timeout hostActive).run moments
  have hsteers : Steers none s.2 s.1.attempt :=
    (keeps_start backoff protocol timeout hostActive).sound.steers_run moments
  exact ⟨hkeeps.inStep, hsteers.singleOutlet, hsteers.outlets_eq,
    fun hshutdown => hkeeps.released (stopped_run _ hshutdown)⟩

end Manager

end LiveSync.Connection
