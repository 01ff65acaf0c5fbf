import LiveSync.Proofs.Connection.Topics
import LiveSync.Proofs.Manager.Attendance

/-!
# The manager serves the server

A server forgets subscriptions when a connection ends. On every new one the
manager replays the topics that are held, and until the handshake is done it
drops the frames that are to be sent. A frame that was queued before may
therefore be sent after a replay that already reflects it – or that reflects
what came after it.

This does no harm as long as the frames that wait for the manager lead from
the topics that are held to themselves: then the replay may come at any
place among them. From there on the frames that were transmitted on the
attempt and those that still wait lead to the topics that are held, because
taking up the next frame moves it from one list to the other (`Serves`).

Two kinds of effects make the manager transmit (`Manager.mem_execute`), and
the course of the effects says when they come. All others leave the server
alone.
-/

namespace LiveSync.Connection

open LiveSync.Wire

/-- The frame that a command sends, if it sends one. -/
def Command.frame? : Command → Option ClientFrame
  | .send frame => some frame
  | _ => none

/-- The frames that commands send. -/
def frames (commands : List Command) : List ClientFrame := commands.filterMap Command.frame?

theorem frames_append (commands commands' : List Command) :
    frames (commands ++ commands') = frames commands ++ frames commands' :=
  List.filterMap_append ..

/-! ### What was transmitted -/

/-- A frame, and the attempt it was transmitted on. -/
abbrev Transmission := Epoch × ClientFrame

/-- What an order transmits, if it transmits something. -/
def Order.transmission? : Order → Option Transmission
  | .transmit epoch frame => some (epoch, frame)
  | _ => none

/-- What orders transmit. -/
def transmissions (orders : List Order) : List Transmission :=
  orders.filterMap Order.transmission?

/-- **The topics that the server has subscribed to on an attempt.** -/
def served (epoch : Epoch) (transmitted : List Transmission) : Finset Topic :=
  applyFrames ((transmitted.filter (·.1 = epoch)).map Prod.snd) ∅

variable {epoch : Epoch} {transmitted : List Transmission}

theorem transmissions_append (orders orders' : List Order) :
    transmissions (orders ++ orders') = transmissions orders ++ transmissions orders' :=
  List.filterMap_append ..

theorem served_append {more : List Transmission} (h : ∀ p ∈ more, p.1 = epoch) :
    served epoch (transmitted ++ more)
      = applyFrames (more.map Prod.snd) (served epoch transmitted) := by
  have hmore : more.filter (·.1 = epoch) = more :=
    List.filter_eq_self.mpr fun p hp => decide_eq_true (h p hp)
  rw [served, List.filter_append, List.map_append, applyFrames_append, hmore]
  rfl

theorem served_of_lt (h : ∀ p ∈ transmitted, p.1 < epoch) : served epoch transmitted = ∅ := by
  have hnone : transmitted.filter (·.1 = epoch) = [] :=
    List.filter_eq_nil_iff.mpr fun p hp => by simpa using (h p hp).ne
  rw [served, hnone]
  rfl

/-- Whether carrying out an effect may transmit something. -/
def Effect.transmits : Effect → Bool
  | .send _ _ | .established _ _ => true
  | _ => false

/-- Whether an order neither transmits anything nor opens an attempt. -/
def Order.isLocal : Order → Bool
  | .transmit _ _ | .openAttempt _ => false
  | _ => true

namespace Manager

variable {m : Manager} {env : Surroundings} {x : Effect} {effects : List Effect}
  {message : ManagerMessage} {o : Order}

theorem transmissions_transmit (ha : m.attempt = some epoch) (frame : ClientFrame) :
    transmissions (m.transmit env frame)
      = if env.listening epoch then [(epoch, frame)] else [] := by
  unfold transmit
  rw [ha]
  dsimp only
  split <;> rfl

theorem isLocal_retire (h : o ∈ (m.retire epoch).2) : o.isLocal = true := by
  unfold retire at h
  split at h
  · rw [List.mem_singleton.mp h]
    rfl
  · cases h

theorem isLocal_deliver {frame : ServerFrame} (h : o ∈ (m.deliver frame).2) :
    o.isLocal = true := by
  unfold deliver answer at h
  split at h <;> (try split at h) <;> simp_all [Order.isLocal]

theorem isLocal_failPending (h : o ∈ (m.failPending epoch).2) : o.isLocal = true := by
  obtain ⟨p, -, rfl⟩ := List.mem_map.mp h
  rfl

/-- **Few effects make the manager transmit**, and one makes it open an
attempt. -/
theorem mem_execute (h : o ∈ (m.execute env x).2) :
    x.transmits = true ∨ (∃ epoch, o = .openAttempt epoch ∧ x = .open epoch)
      ∨ o.isLocal = true := by
  cases x with
  | «open» epoch =>
    rcases List.mem_cons.mp h with rfl | h
    · exact .inr (.inl ⟨epoch, rfl, rfl⟩)
    · obtain ⟨e, -, rfl⟩ := Option.map_eq_some_iff.mp (Option.mem_toList.mp h)
      exact .inr (.inr rfl)
  | send epoch frame => exact .inl rfl
  | established epoch user => exact .inl rfl
  | close epoch => exact .inr (.inr (isLocal_retire h))
  | deliver frame => exact .inr (.inr (isLocal_deliver h))
  | attemptEnded epoch =>
    rcases List.mem_append.mp h with h | h
    · exact .inr (.inr (isLocal_retire h))
    · exact .inr (.inr (isLocal_failPending h))
  | _ =>
    rw [List.mem_singleton.mp h]
    exact .inr (.inr rfl)

theorem transmissions_execute (hx : x.transmits = false) :
    transmissions (m.execute env x).2 = [] := by
  refine List.filterMap_eq_nil_iff.mpr fun o ho => ?_
  rcases mem_execute ho with h | ⟨epoch, rfl, -⟩ | h
  · exact absurd (hx.symm.trans h) nofun
  · rfl
  · cases o <;> first | rfl | cases h

theorem openAttempt_not_mem_transmit {frame : ClientFrame} :
    .openAttempt epoch ∉ m.transmit env frame := fun h => by
  obtain ⟨e, he⟩ := mem_transmit h
  cases he

/-- **The manager opens an attempt because its machine does.** -/
theorem open_of_mem_execute (h : .openAttempt epoch ∈ (m.execute env x).2) : x = .open epoch := by
  rcases mem_execute h with hx | ⟨e, he, hx⟩ | hlocal
  · cases x with
    | send e frame =>
      dsimp only [execute] at h
      split at h
      · exact absurd h openAttempt_not_mem_transmit
      · cases h
    | established e user =>
      rcases List.mem_append.mp h with h | h
      · obtain ⟨topic, -, h⟩ := List.mem_flatMap.mp h
        exact absurd h openAttempt_not_mem_transmit
      · cases List.mem_singleton.mp h
    | _ => cases hx
  · cases he
    exact hx
  · cases hlocal

theorem open_of_mem_executeAll (h : .openAttempt epoch ∈ (m.executeAll env effects).2) :
    .open epoch ∈ effects := by
  revert h
  refine executeAll_induction (P := fun s => .openAttempt epoch ∈ s.2 → .open epoch ∈ effects)
    nofun fun s x hx ih h => ?_
  rcases List.mem_append.mp h with h | h
  · exact ih h
  · exact open_of_mem_execute h ▸ hx

theorem phase_of_mem_feed {i : Input} (h : .openAttempt epoch ∈ (m.feed env i).2) :
    (m.feed env i).1.machine.phase = some .opening := by
  rw [feed_machine]
  exact Machine.phase_of_open_mem (open_of_mem_executeAll h)

/-- **An attempt that a message opens is being opened after it.** -/
theorem Sound.phase_of_openAttempt (hm : m.Sound)
    (h : .openAttempt epoch ∈ (m.handle env message).2) :
    (m.handle env message).1.machine.phase = some .opening := by
  unfold Manager.handle at h ⊢
  split at h
  · cases h
  · rename_i hs
    rw [if_neg hs]
    cases message with
    | command c =>
      cases c with
      | connect => exact phase_of_mem_feed h
      | disconnect => exact phase_of_mem_feed h
      | send frame =>
        dsimp only [obey] at h
        split at h
        · exact absurd h openAttempt_not_mem_transmit
        · cases h
      | submit request id version action caller =>
        dsimp only [obey] at h
        rcases hm.submit_cases env request id version action caller with ⟨-, -, heq⟩ | heq
        · rw [heq] at h
          cases List.mem_singleton.mp h
        · rw [heq] at h
          cases List.mem_singleton.mp h
      | shutdown =>
        have hfeed : .openAttempt epoch ∈ (m.feed env .disconnect).2 :=
          (List.mem_append.mp h).resolve_right nofun
        exact phase_of_mem_feed hfeed
    | input i => exact phase_of_mem_feed h
    | host active => exact phase_of_mem_feed h

end Manager

/-! ### The server follows -/

/-- Whether the handshake of an attempt is still to be done. -/
def Stage.isEarly : Stage → Bool
  | .opened | .greeted | .handshaking | .settling => true
  | .over | .established | .closing | .closed => false

/-- **The server is served the topics that are held**: nothing is
subscribed to on an attempt whose handshake is still to be done, and once it
is done, the frames that still wait lead from the topics that are subscribed
to, to those that are held. -/
structure Serves (listening : Epoch → Bool) (waiting : List ClientFrame) (held : Finset Topic)
    (c : Course) (transmitted : List Transmission) : Prop where
  epoch_le : ∀ p ∈ transmitted, p.1 ≤ c.epoch
  early : c.stage.isEarly = true → served c.epoch transmitted = ∅
  established : c.stage = .established → listening c.epoch = true →
    applyFrames waiting (served c.epoch transmitted) = held

namespace Serves

open Course Manager

variable {m : Manager} {env : Surroundings} {listening : Epoch → Bool}
  {waiting : List ClientFrame} {held : Finset Topic} {c c' : Course} {x : Effect}
  {effects : List Effect} {message : ManagerMessage}

theorem of_early (hle : ∀ p ∈ transmitted, p.1 ≤ c.epoch) (hearly : c.stage.isEarly = true)
    (hserved : served c.epoch transmitted = ∅) : Serves listening waiting held c transmitted := by
  refine ⟨hle, fun _ => hserved, fun hs => ?_⟩
  rw [hs] at hearly
  cases hearly

theorem of_established (hle : ∀ p ∈ transmitted, p.1 ≤ c.epoch) (hs : c.stage = .established)
    (h : listening c.epoch = true → applyFrames waiting (served c.epoch transmitted) = held) :
    Serves listening waiting held c transmitted := by
  refine ⟨hle, fun hearly => ?_, fun _ => h⟩
  rw [hs] at hearly
  cases hearly

/-- An attempt that is over, or about to be, is served nothing. -/
theorem of_late (hle : ∀ p ∈ transmitted, p.1 ≤ c.epoch)
    (hs : c.stage = .over ∨ c.stage = .closing ∨ c.stage = .closed) :
    Serves listening waiting held c transmitted := by
  refine ⟨hle, fun hearly => ?_, fun hestablished => ?_⟩
  · rcases hs with hs | hs | hs <;> (rw [hs] at hearly; cases hearly)
  · rcases hs with hs | hs | hs <;> cases hs.symm.trans hestablished

/-- Nothing more is transmitted. -/
theorem still (h : Serves listening waiting held c transmitted) :
    Serves listening waiting held c (transmitted ++ transmissions []) :=
  (List.append_nil transmitted).symm ▸ h

/-- What waits and what is held does not matter before the handshake is done,
nor does it when the attempt takes nothing any more. -/
theorem congr {listening' : Epoch → Bool} {waiting' : List ClientFrame}
    {held' : Finset Topic} (h : Serves listening waiting held c transmitted)
    (hs : c.stage = .established → listening' c.epoch = true →
      applyFrames waiting' (served c.epoch transmitted) = held') :
    Serves listening' waiting' held' c transmitted :=
  ⟨h.epoch_le, h.early, hs⟩

/-- What is transmitted on the attempt of a course keeps its epochs in
order. -/
theorem epoch_le_append (h : Serves listening waiting held c transmitted)
    {more : List Transmission} (hmore : ∀ p ∈ more, p.1 = c.epoch) :
    ∀ p ∈ transmitted ++ more, p.1 ≤ c.epoch :=
  List.forall_mem_append.mpr ⟨h.epoch_le, fun p hp => (hmore p hp).le⟩

/-- The replay leads to what is held. -/
theorem served_replay (hserved : served epoch transmitted = ∅) :
    served epoch (transmitted ++ env.topics.map fun topic => (epoch, .subscribe topic))
      = env.topics.toFinset := by
  rw [served_append (by simp), hserved, List.map_map]
  exact (applyFrames_subscribe env.topics ∅).trans (Finset.empty_union _)

theorem transmissions_replay (ha : m.attempt = some epoch) :
    transmissions (env.topics.flatMap fun topic => m.transmit env (.subscribe topic))
      = if env.listening epoch then env.topics.map fun topic => (epoch, .subscribe topic)
        else [] := by
  induction env.topics with
  | nil => simp [transmissions]
  | cons topic topics ih =>
    rw [List.flatMap_cons, transmissions_append, ih, transmissions_transmit ha]
    split <;> rfl

/-- **Carrying out an effect serves the server.** -/
theorem execute (h : Serves env.listening waiting held c transmitted) (ha : m.Attends c)
    (hx : Next c x c') (hwaiting : Settled waiting held) (hheld : env.topics.toFinset = held) :
    Serves env.listening waiting held c' (transmitted ++ transmissions (m.execute env x).2) := by
  cases hx with
  | @opening last e hlt =>
    rw [transmissions_execute rfl, List.append_nil]
    exact .of_early (fun p hp => (h.epoch_le p hp).trans hlt.le) rfl
      (served_of_lt fun p hp => (h.epoch_le p hp).trans_lt hlt)
  | @greeting e protocol =>
    have hattempt : m.attempt = some e := ha.attempt
    simp only [Manager.execute, if_pos hattempt, transmissions_transmit hattempt]
    split
    · have hmore : ∀ p ∈ [(e, ClientFrame.hello protocol)], p.1 = e :=
        List.forall_mem_singleton.mpr rfl
      exact .of_early (h.epoch_le_append hmore) rfl ((served_append hmore).trans (h.early rfl))
    · rw [List.append_nil]
      exact .of_early h.epoch_le rfl (h.early rfl)
  | timer =>
    rw [transmissions_execute rfl, List.append_nil]
    exact .of_early h.epoch_le rfl (h.early rfl)
  | settling =>
    rw [transmissions_execute rfl, List.append_nil]
    exact .of_early h.epoch_le rfl (h.early rfl)
  | @establishing e user =>
    have hattempt : m.attempt = some e := ha.attempt
    have hreport : transmissions [.report (.established e user)] = [] := rfl
    simp only [Manager.execute, transmissions_append, transmissions_replay hattempt, hreport,
      List.append_nil]
    split
    · -- the replay leads to what is held, and the frames that wait stay there
      refine .of_established (h.epoch_le_append (by simp)) rfl fun _ => ?_
      rw [served_replay (h.early rfl), hheld]
      exact hwaiting
    · rename_i hdeaf
      rw [List.append_nil]
      exact .of_established h.epoch_le rfl fun hlistening => absurd hlistening hdeaf
  | delivery hs =>
    rw [transmissions_execute rfl, List.append_nil]
    exact h
  | closing =>
    rw [transmissions_execute rfl, List.append_nil]
    exact .of_late h.epoch_le (.inr (.inl rfl))
  | closed hs =>
    rw [transmissions_execute rfl, List.append_nil]
    exact .of_late h.epoch_le (.inr (.inr rfl))
  | cancelling =>
    rw [transmissions_execute rfl, List.append_nil]
    exact .of_late h.epoch_le (.inr (.inr rfl))
  | ending hs =>
    rw [transmissions_execute rfl, List.append_nil]
    exact .of_late h.epoch_le (.inl rfl)
  | aside hx =>
    rw [transmissions_execute (by cases x <;> first | rfl | cases hx), List.append_nil]
    exact h

theorem executeAll (h : Serves env.listening waiting held c transmitted) (ha : m.Attends c)
    (hr : Reads c effects c') (hwaiting : Settled waiting held)
    (hheld : env.topics.toFinset = held) :
    Serves env.listening waiting held c'
      (transmitted ++ transmissions (m.executeAll env effects).2) := by
  induction hr using Reads.induction with
  | start => exact h.still
  | next hr hx ih =>
    rw [executeAll_concat, Step.andThen, transmissions_append, ← List.append_assoc]
    exact ih.execute (ha.executeAll hr env) hx hwaiting hheld

/-- A machine that has no attempt asks nothing of the server. -/
theorem of_onCourse {machine : Machine} (h : Serves listening waiting held c transmitted)
    (hc : machine.OnCourse c) : Serves listening waiting held machine.course transmitted := by
  by_cases hp : machine.phase = none
  · have hs : machine.stage = .over := by rw [Machine.stage, hp]
    exact .of_late (fun p hp => (h.epoch_le p hp).trans hc.epoch_le) (.inl hs)
  · exact hc.eq_course hp ▸ h

/-- **An input serves the server.** -/
theorem feed (h : Serves env.listening waiting held m.machine.course transmitted) (hm : m.Sound)
    (hwaiting : Settled waiting held) (hheld : env.topics.toFinset = held) (i : Input) :
    Serves env.listening waiting held (m.feed env i).1.machine.course
      (transmitted ++ transmissions (m.feed env i).2) := by
  obtain ⟨c, hreads, hon⟩ := Machine.keepsOrder_handle hm.machine m.machine.onCourse_self i
  have hattends : { m with machine := (m.machine.handle i).1 }.Attends m.machine.course :=
    hm.attends.of_eq rfl (List.Subset.refl _)
  rw [feed_machine]
  exact (h.executeAll hattends hreads hwaiting hheld).of_onCourse hon

/-- **Sending a frame serves the server**: it is one of the frames that wait
before, and transmitted after it. -/
theorem send {frame : ClientFrame}
    (h : Serves env.listening (frame :: waiting) held m.machine.course transmitted)
    (hm : m.Sound) :
    Serves env.listening waiting held m.machine.course
      (transmitted ++ transmissions (m.obey env (.send frame)).2) := by
  dsimp only [obey]
  split
  · rename_i he
    have hstage := Machine.stage_eq_established_iff.mpr he
    rw [transmissions_transmit (hm.attempt_of_established he)]
    split
    · have hmore : ∀ p ∈ [(m.machine.epoch, frame)], p.1 = m.machine.epoch :=
        List.forall_mem_singleton.mpr rfl
      exact .of_established (h.epoch_le_append hmore) hstage fun hlistening =>
        (congrArg _ (served_append hmore)).trans (h.established hstage hlistening)
    · rename_i hdeaf
      rw [List.append_nil]
      exact .of_established h.epoch_le hstage fun hlistening => absurd hlistening hdeaf
  · rename_i he
    exact ⟨(List.append_nil transmitted).symm ▸ h.epoch_le,
      (List.append_nil transmitted).symm ▸ h.early,
      fun hs => absurd (Machine.stage_eq_established_iff.mp hs) he⟩

/-- Submissions are of no concern to subscriptions. -/
theorem submit (h : Serves env.listening waiting held m.machine.course transmitted) (hm : m.Sound)
    (request : RequestId) (id : EntityId) (version : Version) (action : Action) (caller : CallId) :
    Serves env.listening waiting held
      (m.submit env request id version action caller).1.machine.course
      (transmitted ++ transmissions (m.submit env request id version action caller).2) := by
  rcases hm.submit_cases env request id version action caller with ⟨-, -, heq⟩ | heq
  · have hmore : ∀ p ∈ [(m.machine.epoch, ClientFrame.command request id version action)],
        p.1 = m.machine.epoch := List.forall_mem_singleton.mpr rfl
    rw [heq]
    refine ⟨h.epoch_le_append hmore, fun hearly => ?_, fun hs hlistening => ?_⟩
    · exact (served_append hmore).trans (h.early hearly)
    · exact (congrArg _ (served_append hmore)).trans (h.established hs hlistening)
  · rw [heq]
    exact h.still

/-- **A message serves the server.** The frame it may send is no longer among
those that wait. -/
theorem handle
    (h : Serves env.listening (frames message.command?.toList ++ waiting) held m.machine.course
      transmitted)
    (hm : m.Sound) (hs : ∀ c, message = .command c → m.stopped = false)
    (hwaiting : Settled waiting held) (hheld : env.topics.toFinset = held) :
    Serves env.listening waiting held (m.handle env message).1.machine.course
      (transmitted ++ transmissions (m.handle env message).2) := by
  unfold Manager.handle
  split
  · rename_i hstopped
    cases message with
    | command c => exact absurd hstopped (by rw [hs c rfl]; nofun)
    | input i => exact h.still
    | host active => exact h.still
  · cases message with
    | command c =>
      cases c with
      | connect => exact h.feed hm hwaiting hheld _
      | disconnect => exact h.feed hm hwaiting hheld _
      | send frame => exact h.send hm
      | submit request id version action caller => exact h.submit hm ..
      | shutdown =>
        dsimp only [obey, stop, Step.andThen]
        rw [List.append_nil]
        exact h.feed hm hwaiting hheld _
    | input i => exact h.feed hm hwaiting hheld i
    | host active => exact h.feed hm hwaiting hheld _

end Serves

end LiveSync.Connection
