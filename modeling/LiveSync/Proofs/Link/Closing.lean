import LiveSync.Proofs.Link.Answers
import LiveSync.Proofs.Manager.Resources

/-!
# The end of a link

A link ends when its manager takes up the command to shut down. Until then
anything may come first: the command waits behind others, and inputs and the
host have queues of their own. What can be said of the time in between is only
that the command is not forgotten (`Link.IsClosing`).

Afterwards nothing moves the manager any more, but the attempts are not its
own: each of them goes on by itself, and a manager that lets go of an attempt
merely stops giving it anything to send. So that no attempt outlives the link,
every attempt that is not the manager's must have been told (`Link.Holds`).
This is a property of the whole run, because an attempt is told when the
manager lets go of it, which may have been long before.
-/

namespace LiveSync.Connection

open LiveSync.Wire

/-! ### The manager -/

namespace Manager

variable {m : Manager} {env : Surroundings} {message : ManagerMessage} {x : Effect}
  {event : Event}

/-- Only one message stops a manager. -/
theorem shutdown_of_stops (hs : m.stopped = false)
    (h : (m.handle env message).1.stopped = true) : message = .command .shutdown := by
  have hgoing (i : Input) : (m.feed env i).1.stopped ≠ true := by
    rw [feed_stopped, hs]
    nofun
  have hne : m.stopped ≠ true := ne_of_eq_of_ne hs nofun
  unfold handle at h
  rw [if_neg hne] at h
  cases message with
  | input i => exact absurd h (hgoing i)
  | host active => exact absurd h (hgoing (.host active))
  | command c =>
    cases c with
    | shutdown => rfl
    | connect => exact absurd h (hgoing .connect)
    | disconnect => exact absurd h (hgoing .disconnect)
    | send frame => exact absurd h hne
    | submit request id version action caller =>
      dsimp only [obey] at h
      rw [submit_fst] at h
      exact absurd h hne

theorem publish_of_mem_execute (h : .publish event ∈ (m.execute env x).2) :
    ∃ status attempt, event = .connectionChanged status attempt := by
  have hretire (m : Manager) (epoch : Epoch) : .publish event ∉ (m.retire epoch).2 := by
    unfold retire
    split <;> simp
  have htransmit (frame : ClientFrame) : .publish event ∉ m.transmit env frame := fun h => by
    obtain ⟨epoch, heq⟩ := mem_transmit h
    cases heq
  cases x with
  | statusChanged status attempt =>
    cases List.mem_singleton.mp h
    exact ⟨status, attempt, rfl⟩
  | «open» epoch => simp [execute] at h
  | send epoch frame =>
    dsimp only [execute] at h
    split at h
    · exact absurd h (htransmit frame)
    · cases h
  | close epoch => exact absurd h (hretire m epoch)
  | established epoch user =>
    rcases List.mem_append.mp h with h | h
    · obtain ⟨topic, -, h⟩ := List.mem_flatMap.mp h
      exact absurd h (htransmit _)
    · cases List.mem_singleton.mp h
  | deliver frame =>
    dsimp only [execute, deliver, answer] at h
    split at h <;> (try split at h) <;> simp at h
  | attemptEnded epoch =>
    rcases List.mem_append.mp h with h | h
    · exact absurd h (hretire m epoch)
    · obtain ⟨p, -, heq⟩ := List.mem_map.mp h
      cases heq
  | _ => cases List.mem_singleton.mp h

/-- **A manager publishes its status**, and nothing else. -/
theorem publish_of_mem_handle (h : .publish event ∈ (m.handle env message).2) :
    ∃ status attempt, event = .connectionChanged status attempt := by
  have hfeed (i : Input) (h : .publish event ∈ (m.feed env i).2) :
      ∃ status attempt, event = .connectionChanged status attempt := by
    revert h
    refine executeAll_induction
      (P := fun s => .publish event ∈ s.2 →
        ∃ status attempt, event = .connectionChanged status attempt)
      nofun fun s x _ ih h => ?_
    exact (List.mem_append.mp h).elim ih publish_of_mem_execute
  revert h
  refine handle_induction
    (P := fun s => .publish event ∈ s.2 →
        ∃ status attempt, event = .connectionChanged status attempt)
    env message (fun _ => nofun) (fun i _ => hfeed i) (fun frame _ h => ?_)
    (fun request id version action caller _ h => ?_) (fun _ h => ?_)
  · dsimp only at h
    split at h
    · obtain ⟨epoch, heq⟩ := mem_transmit h
      cases heq
    · cases h
  · unfold submit at h
    split at h
    · obtain ⟨epoch, heq⟩ := mem_transmit h
      cases heq
    · cases List.mem_singleton.mp h
  · exact hfeed .disconnect ((List.mem_append.mp h).resolve_right nofun)

end Manager

namespace Link

variable {l l' : Link} {t : Moment}

/-! ### What leaves a link -/

/-- **What may leave a link** whose manager has stopped, or has not. -/
def Output.IsFitting (stopped : Bool) : Output → Prop
  | .publish event => ∃ status attempt, event = .connectionChanged status attempt
  | .connect _ => stopped = false
  | .report _ | .reply _ _ | .send _ _ | .close _ => True

/-- What leaves a link while orders are carried out is ordered. -/
theorem exists_of_mem_carryOutAll {now : Clock} {orders : List Order} {o : Output}
    (h : o ∈ (l.carryOutAll now orders).2) :
    ∃ order ∈ orders, ∃ l' : Link, o ∈ (l'.carryOut now order).2 := by
  unfold carryOutAll at h
  induction orders using List.reverseRecOn with
  | nil => cases h
  | append_singleton orders order ih =>
    rw [List.foldl_append] at h
    rcases List.mem_append.mp h with h | h
    · obtain ⟨order', hmem, l', h⟩ := ih h
      exact ⟨order', List.mem_append_left _ hmem, l', h⟩
    · exact ⟨order, List.mem_append_right _ (List.mem_singleton_self _), _, h⟩

theorem fitting_tell (env : Surroundings) (now : Clock) (l : Link) (message : ManagerMessage) :
    ∀ o ∈ (l.tell env now message).2, o.IsFitting l.manager.stopped := by
  have horders : ∀ o ∈ (carryOutAll now { l with manager := (l.manager.handle env message).1 }
      (l.manager.handle env message).2).2, o.IsFitting l.manager.stopped := by
    intro o ho
    obtain ⟨order, horder, l', ho⟩ := exists_of_mem_carryOutAll ho
    cases order with
    | publish event =>
      rw [List.mem_singleton.mp ho]
      exact Manager.publish_of_mem_handle horder
    | openAttempt epoch =>
      rw [List.mem_singleton.mp ho]
      refine Bool.eq_false_iff.mpr fun hs => ?_
      rw [Manager.handle_of_stopped hs] at horder
      cases horder
    | transmit epoch frame =>
      dsimp only [carryOut] at ho
      split at ho <;> cases ho
    | retire epoch =>
      dsimp only [carryOut] at ho
      split at ho <;> cases ho
    | report | reply =>
      rw [List.mem_singleton.mp ho]
      trivial
    | _ => cases ho
  intro o ho
  dsimp only [tell] at ho
  split at ho
  · rcases List.mem_append.mp ho with ho | ho
    · exact horders o ho
    · obtain ⟨c, -, hc⟩ := List.mem_filterMap.mp ho
      cases c <;> cases hc
      trivial
  · exact horders o ho

/-- Deeds are sent, or are reported. -/
theorem fitting_doDeeds {stopped : Bool} (epoch : Epoch) (l : Link) (deeds : List Attempt.Deed) :
    ∀ o ∈ (deeds.foldl (fun s d => Step.andThen s (doDeed epoch · d)) (l, [])).2,
      o.IsFitting stopped := by
  induction deeds using List.reverseRecOn with
  | nil => exact nofun
  | append_singleton deeds d ih =>
    rw [List.foldl_append]
    refine List.forall_mem_append.mpr ⟨ih, fun o ho => ?_⟩
    cases d with
    | report => cases ho
    | send | close =>
      rw [List.mem_singleton.mp ho]
      trivial

theorem lines_report (l : Link) (i : Input) : (l.report i).lines = l.lines := by
  unfold report
  split <;> rfl

theorem lines_enqueue (l : Link) (c : Command) : (l.enqueue c).1.lines = l.lines := by
  unfold enqueue
  split <;> rfl

theorem lines_doDeeds (epoch : Epoch) (l : Link) (deeds : List Attempt.Deed) :
    (deeds.foldl (fun s d => Step.andThen s (doDeed epoch · d)) (l, [])).1.lines = l.lines := by
  induction deeds using List.reverseRecOn with
  | nil => rfl
  | append_singleton deeds d ih =>
    rw [List.foldl_append]
    refine Eq.trans ?_ ih
    cases d with
    | report i => exact lines_report _ i
    | send | close => rfl

/-- An attempt that moves takes something up, or does not. -/
theorem moveLine_cases (now : Clock) (l : Link) (epoch : Epoch) (move : LineMove) :
    (∃ line line' x, l.lines.get? epoch = some line ∧ line'.retired = line.retired
        ∧ l.moveLine now epoch move = l.happen now epoch line' x)
      ∨ l.moveLine now epoch move = (l, []) := by
  unfold moveLine
  split
  · exact .inr rfl
  · rename_i line hline
    cases move with
    | sendNext failure =>
      dsimp only
      split
      · rename_i rest _ _
        exact .inl ⟨line, { line with outbound := rest }, _, hline, rfl, rfl⟩
      · exact .inr rfl
    | noticeRetired =>
      dsimp only
      split
      · exact .inl ⟨line, _, _, hline, rfl, rfl⟩
      · exact .inr rfl
    | _ => exact .inl ⟨line, _, _, hline, rfl, rfl⟩

/-- **What happens while the manager takes nothing up**: a user asks, an
attempt moves, or the attempts stay as they are. -/
theorem idle_cases (hnone : l.takes t.move = none) :
    (∃ c, l.step t = l.enqueue c)
      ∨ (∃ epoch move, l.step t = l.moveLine t.now epoch move)
      ∨ ((l.step t).1.lines = l.lines ∧ (l.step t).2 = []) := by
  obtain ⟨now, topics, waiting, move⟩ := t
  cases move with
  | ask c => exact .inl ⟨c, rfl⟩
  | hear i => exact .inr (.inr ⟨lines_report l i, rfl⟩)
  | takeCommand =>
    simp only [takes] at hnone
    split at hnone
    · cases hnone
    · rename_i hc
      simp only [step, takeCommand, hc]
      exact .inr (.inr ⟨trivial, trivial⟩)
  | takeInput =>
    simp only [takes] at hnone
    split at hnone
    · cases hnone
    · rename_i hi
      simp only [step, takeInput, hi]
      exact .inr (.inr ⟨trivial, trivial⟩)
  | takeHost active => cases hnone
  | line epoch lineMove => exact .inr (.inl ⟨epoch, lineMove, rfl⟩)
  | handshakeTimer =>
    refine .inr (.inr ⟨?_, rfl⟩)
    dsimp only [step, fireHandshake]
    split
    · split
      · exact lines_report _ _
      · rfl
    · rfl
  | retryTimer =>
    refine .inr (.inr ⟨?_, rfl⟩)
    dsimp only [step, fireRetry]
    split
    · split
      · exact lines_report _ _
      · rfl
    · rfl

/-- **What leaves a link**: it publishes nothing but its status, and asks for
no transport once its manager has stopped. -/
theorem fitting_step (l : Link) (t : Moment) :
    ∀ o ∈ (l.step t).2, o.IsFitting l.manager.stopped := by
  cases htakes : l.takes t.move with
  | some p =>
    rw [step_of_takes htakes, ← (takes_frame htakes).1]
    exact fitting_tell _ _ _ _
  | none =>
    rcases idle_cases htakes with ⟨c, heq⟩ | ⟨epoch, move, heq⟩ | ⟨-, heq⟩
    · intro o ho
      rw [heq, enqueue] at ho
      split at ho
      · obtain ⟨c', -, hc⟩ := List.mem_filterMap.mp ho
        cases c' <;> cases hc
        trivial
      · cases ho
    · rw [heq]
      rcases moveLine_cases t.now l epoch move with ⟨line, line', x, -, -, heq⟩ | heq
      · rw [heq]
        exact fitting_doDeeds _ _ _
      · rw [heq]
        exact List.forall_mem_nil _
    · rw [heq]
      exact List.forall_mem_nil _

/-! ### Attempts that the manager has let go of -/

/-- **The attempts that were not told** that nothing more will be sent: none
but the one that is given. -/
def Holds (l : Link) (attempt : Option Epoch) : Prop :=
  ∀ epoch line, l.lines.get? epoch = some line → line.retired = false → attempt = some epoch

variable {attempt attempt' : Option Epoch}

theorem get?_setLine {epoch e : Epoch} {line line' : Line}
    (h : (l.setLine epoch line).lines.get? e = some line') :
    (e = epoch ∧ line' = line) ∨ (e ≠ epoch ∧ l.lines.get? e = some line') := by
  unfold setLine at h
  by_cases he : e = epoch
  · subst he
    refine .inl ⟨rfl, ?_⟩
    split at h
    · exact (Option.some.inj ((Table.get?_insert_self ..).symm.trans h)).symm
    · cases (Table.get?_erase_self ..).symm.trans h
  · refine .inr ⟨he, ?_⟩
    split at h
    · rwa [Table.get?_insert_of_ne _ _ (Ne.symm he)] at h
    · rwa [Table.get?_erase_of_ne _ (Ne.symm he)] at h

theorem Holds.of_lines (h : l.Holds attempt) (heq : l'.lines = l.lines) : l'.Holds attempt := by
  unfold Holds
  rw [heq]
  exact h

/-- A line that is written may be told, but not untold. -/
theorem Holds.setLine (h : l.Holds attempt) {epoch : Epoch} {line line' : Line}
    (hline : l.lines.get? epoch = some line)
    (hretired : line'.retired = false → line.retired = false) :
    (l.setLine epoch line').Holds attempt := by
  intro e line'' hget hr
  rcases get?_setLine hget with ⟨rfl, rfl⟩ | ⟨-, hget⟩
  · exact h e line hline (hretired hr)
  · exact h e line'' hget hr

/-- **Orders that keep to one attempt at a time** tell every other one. -/
theorem Holds.carryOutAll {orders : List Order} (h : l.Holds attempt)
    (hsteers : Steers attempt orders attempt') (now : Clock) :
    (l.carryOutAll now orders).1.Holds attempt' := by
  have hfold (s : Step) : (orders.foldl (fun s o => s.andThen (carryOut now · o)) s).1
      = orders.foldl (fun l o => (l.carryOut now o).1) s.1 := by
    clear hsteers
    induction orders generalizing s with
    | nil => rfl
    | cons o orders ih => exact ih (s.andThen (carryOut now · o))
  rw [Link.carryOutAll, hfold]
  clear hfold
  dsimp only
  induction hsteers generalizing l with
  | nil => exact h
  | @opening e orders a _ ih =>
    refine ih fun epoch line hget hr => ?_
    rcases get?_setLine hget with ⟨rfl, -⟩ | ⟨-, hget⟩
    · rfl
    · cases h epoch line hget hr
  | @transmitting e frame orders a _ ih =>
    refine ih ?_
    dsimp only [carryOut]
    split
    · rename_i line hline
      exact h.setLine hline id
    · exact h
  | @retiring e orders a _ ih =>
    refine ih fun epoch line hget hr => ?_
    -- whatever was not told before is the attempt that is told now
    dsimp only [carryOut] at hget
    split at hget
    · rename_i line' hline
      rcases get?_setLine hget with ⟨rfl, rfl⟩ | ⟨hne, hget⟩
      · cases hr
      · exact absurd (Option.some.inj (h epoch line hget hr)).symm hne
    · rename_i hnone
      cases h epoch line hget hr
      cases hnone.symm.trans hget
  | @aside a a' o orders head _ ih =>
    refine ih (h.of_lines ?_)
    cases o <;> first | rfl | cases head

theorem Holds.step_of_takes_none (h : l.Holds attempt) (hnone : l.takes t.move = none) :
    (l.step t).1.Holds attempt := by
  rcases idle_cases hnone with ⟨c, heq⟩ | ⟨epoch, move, heq⟩ | ⟨heq, -⟩
  · rw [heq]
    exact h.of_lines (lines_enqueue l c)
  · rw [heq]
    rcases moveLine_cases t.now l epoch move with ⟨line, line', x, hline, hretired, heq⟩ | heq
    · rw [heq]
      have hset : (l.setLine epoch
          { line' with attempt := (line'.attempt.step t.now x).1 }).Holds attempt :=
        h.setLine hline fun hr => hretired ▸ hr
      exact hset.of_lines (lines_doDeeds _ _ _)
    · rwa [heq]
  · exact h.of_lines heq

/-! ### Links at any time -/

/-- **What is open on a link belongs to its manager.** -/
structure IsTight (l : Link) : Prop where
  sound : l.Sound
  keeps : l.manager.Keeps
  holds : l.Holds l.manager.attempt

theorem isTight_start (config : Config) (hostActive : Bool) :
    (start config hostActive).IsTight where
  sound := sound_start config hostActive
  keeps := Manager.keeps_start ..
  holds := nofun

/-- **A moment keeps a link tight.** -/
theorem IsTight.step (h : l.IsTight) (t : Moment) : (l.step t).1.IsTight := by
  refine ⟨h.sound.step t, ?_, ?_⟩
  · cases htakes : l.takes t.move with
    | none => exact manager_step htakes ▸ h.keeps
    | some p => exact manager_step_of_takes htakes ▸ h.keeps.handle _ _
  · cases htakes : l.takes t.move with
    | none => exact manager_step htakes ▸ h.holds.step_of_takes_none htakes
    | some p =>
      obtain ⟨message, rest⟩ := p
      obtain ⟨hmanager, hlines, -⟩ := takes_frame htakes
      have hholds : Link.Holds { rest with
          manager := (l.manager.handle (l.sight t) message).1 } l.manager.attempt :=
        h.holds.of_lines hlines
      have hcarried := hholds.carryOutAll (h.sound.manager.steers_handle (l.sight t) message) t.now
      rw [manager_step_of_takes htakes, step_of_takes htakes]
      dsimp only [tell]
      rw [hmanager]
      split
      · exact hcarried.of_lines rfl
      · exact hcarried

/-! ### A manager that has stopped -/

/-- **An attempt that was told closes its transport**, if it has one and has
sent what it was given, and is over. -/
theorem noticeRetired_closes {epoch : Epoch} {line : Line} {deadline : Clock}
    (hline : l.lines.get? epoch = some line) (hretired : line.retired = true)
    (hlive : line.attempt.stage = .live deadline) (hsent : line.outbound = []) (now : Clock) :
    (l.moveLine now epoch .noticeRetired).1.lines.get? epoch = none
      ∧ (l.moveLine now epoch .noticeRetired).2 = [.close epoch] := by
  have hmove : l.moveLine now epoch .noticeRetired
      = (l.setLine epoch { line with attempt := line.attempt.ended }, [.close epoch]) := by
    simp only [moveLine, hline, hretired, hsent, and_self, if_true, happen, Attempt.step, hlive,
      Attempt.liveStep, List.foldl_cons, List.foldl_nil, Step.andThen, doDeed, List.nil_append]
  rw [hmove]
  exact ⟨Table.get?_erase_self .., rfl⟩

/-- **At rest**: nothing is held, nothing waits, there is no attempt, and no
earlier one will be given anything more. -/
structure AtRest (l : Link) : Prop where
  released : l.manager.Released
  phase : l.manager.machine.phase = none
  told : ∀ epoch line, l.lines.get? epoch = some line → line.retired = true
  /-- What is left to do for an earlier attempt is to close its transport. -/
  closes : ∀ epoch line deadline, l.lines.get? epoch = some line →
    line.attempt.stage = .live deadline → line.outbound = [] → ∀ now,
      (l.moveLine now epoch .noticeRetired).1.lines.get? epoch = none
        ∧ (l.moveLine now epoch .noticeRetired).2 = [.close epoch]
  outstanding : l.outstanding = []

/-- Every attempt was told when the manager has stopped, for it has none. -/
theorem IsTight.told (h : l.IsTight) (hs : l.manager.stopped = true) {epoch : Epoch} {line : Line}
    (hget : l.lines.get? epoch = some line) : line.retired = true := by
  by_contra hr
  have hattempt := h.holds epoch line hget (Bool.eq_false_iff.mpr hr)
  rw [(h.keeps.released hs).attempt] at hattempt
  cases hattempt

theorem IsTight.atRest (h : l.IsTight) (hs : l.manager.stopped = true) : l.AtRest where
  released := h.keeps.released hs
  phase := h.sound.manager.stopped hs
  told _ _ hget := h.told hs hget
  closes _ _ _ hget hlive hsent := noticeRetired_closes hget (h.told hs hget) hlive hsent
  outstanding := by
    rw [Link.outstanding, h.sound.commands hs, Manager.awaiting,
      h.sound.manager.pending_of_stopped hs]
    rfl

/-- A manager that has stopped does not go on. -/
theorem stopped_step (hs : l.manager.stopped = true) (t : Moment) :
    (l.step t).1.manager.stopped = true := by
  cases htakes : l.takes t.move with
  | none => rwa [manager_step htakes]
  | some p => rwa [manager_step_of_takes htakes, Manager.handle_of_stopped hs]

/-- **The command to shut down waits or was taken up.** -/
def IsClosing (l : Link) : Prop := l.manager.stopped = true ∨ .shutdown ∈ l.commands

theorem isClosing_enqueue (l : Link) : (l.enqueue .shutdown).1.IsClosing := by
  unfold enqueue
  split
  · rename_i hs
    exact .inl hs
  · exact .inr (List.mem_append_right _ (List.mem_singleton_self _))

theorem IsClosing.step (h : l.IsClosing) (t : Moment) : (l.step t).1.IsClosing := by
  rcases h with hs | hmem
  · exact .inl (stopped_step hs t)
  rcases step_cases l t with ⟨c, -, heq⟩ | ⟨message, rest, htakes, heq⟩ | ⟨-, -, haside⟩
  · rw [heq, enqueue]
    split
    · exact .inr hmem
    · exact .inr (List.mem_append_left _ hmem)
  · rw [(takes_frame htakes).2.2] at hmem
    rcases List.mem_append.mp hmem with hmem | hmem
    · -- the command is taken up
      have hmessage : message = .command .shutdown := by
        cases message with
        | command c =>
          cases List.mem_singleton.mp hmem
          rfl
        | input | host => cases hmem
      left
      rw [manager_step_of_takes htakes, hmessage]
      exact Manager.stopped_handle_shutdown _ _
    · unfold IsClosing
      rw [manager_step_of_takes htakes, heq, (told_tell ..).commands, (takes_frame htakes).1]
      split
      · rename_i hs
        exact .inl hs
      · exact .inr hmem
  · rw [IsClosing, haside.commands]
    exact .inr hmem

/-! ### Callers at the end -/

/-- **Whoever is told something by a manager that has stopped, or stops now,
is told that the command failed.** -/
theorem Sound.error_of_stopped (h : l.Sound) (hs : (l.step t).1.manager.stopped = true)
    {caller : CallId} {result : Except Failure.Command Receipt}
    (hr : (caller, result) ∈ replies (l.step t).2) :
    ∃ text, result = .error (.delivery text) := by
  rcases step_cases l t with ⟨c, -, heq⟩ | ⟨message, rest, htakes, heq⟩ | ⟨-, -, haside⟩
  · rw [heq, Link.enqueue] at hr
    split at hr
    · exact error_of_mem_unanswered hr
    · cases hr
  · rw [heq, (told_tell ..).replies, (takes_frame htakes).1] at hr
    rcases List.mem_append.mp hr with hr | hr
    · rcases h.manager.of_mem_replies hr with herror | ⟨p, -, -, frame, hmessage, -⟩
      · exact herror
      · -- an input does not stop a manager, and a manager that has stopped takes none
        exfalso
        rw [manager_step_of_takes htakes] at hs
        cases hgoing : l.manager.stopped with
        | true =>
          rw [Manager.handle_of_stopped hgoing] at hr
          cases hr
        | false =>
          cases (Manager.shutdown_of_stops hgoing hs).symm.trans hmessage
    · split at hr
      · exact error_of_mem_unanswered hr
      · cases hr
  · rw [haside.replies] at hr
    cases hr

/-- **Whoever waits is not lost**: a caller who is outstanding, or asks now,
is answered at this moment or outstanding after it. -/
theorem Sound.answered_or_outstanding (h : l.Sound) (t : Moment)
    (hnew : (l.manager.pending.keys ++ requests l.commands).Nodup) {caller : CallId}
    (hc : caller ∈ callers (asked [t]) ++ l.outstanding) (hw : t.waiting caller = true) :
    caller ∈ answered (replies (l.step t).2) ∨ caller ∈ (l.step t).1.outstanding := by
  obtain ⟨forgotten, hperm, hforgotten⟩ := keepsCallers_step h t hnew
  refine (List.mem_append.mp (hperm.mem_iff.mp hc)).imp_right fun hrest => ?_
  refine (List.mem_append.mp hrest).resolve_right fun hf => ?_
  exact Bool.false_ne_true ((hforgotten caller hf).2.symm.trans hw)

end Link

end LiveSync.Connection
