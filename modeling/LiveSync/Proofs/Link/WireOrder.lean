import LiveSync.Proofs.Connection.Topics
import LiveSync.Proofs.Link.Answers
import LiveSync.Proofs.Manager.Exchange

/-!
# The order on the wire

Three parts of the client say something to the server, and what they say ends
up on one wire after another. What the server of an attempt hears is written
down beforehand: `hello`, nothing else until the handshake is done, then the
topics that somebody is interested in at that moment, and from there on what
users have queued, in the order in which they queued it.

An attempt may end before all of it is said. Then the rest is never heard of,
neither on this attempt nor on another one, but nothing is left out before
(`Reaches`): what was sent is the beginning of what was to be sent, and all of
it as long as the attempt is not over.

The proof follows the attempt through its phases. Before the handshake is done
there is hardly anything to keep track of (`Link.Early`); the moment at which it
is done is one exchange; and afterwards each moment adds the frame that the
manager takes up.
-/

namespace LiveSync.Connection

open LiveSync.Wire

/-- **What was sent reaches as far as the attempt lasts.** -/
structure Reaches (running : Bool) (script sent : List ClientFrame) : Prop where
  beginning : sent <+: script
  whole : running = true → sent = script

namespace Reaches

variable {running running' : Bool} {script sent : List ClientFrame}

theorem nil (running : Bool) : Reaches running [] [] := ⟨List.prefix_refl _, fun _ => rfl⟩

theorem mono (h : Reaches running script sent) (hr : running' = true → running = true) :
    Reaches running' script sent :=
  ⟨h.beginning, fun hr' => h.whole (hr hr')⟩

/-- **The script goes on**, and an attempt that is over does not come back. -/
theorem append (h : Reaches running script sent) (hr : running' = true → running = true)
    (more : List ClientFrame) :
    Reaches running' (script ++ more) (sent ++ if running then more else []) := by
  cases running with
  | true =>
    rw [h.whole rfl, if_pos rfl]
    exact ⟨List.prefix_refl _, fun _ => rfl⟩
  | false =>
    rw [if_neg Bool.false_ne_true, List.append_nil]
    exact ⟨h.beginning.trans (List.prefix_append ..), fun hr' => absurd (hr hr') nofun⟩

end Reaches

namespace Link

variable {l : Link} {t : Moment} {past moments later : List Moment} {epoch : Epoch} {α : Type}

/-! ### What a run gathers -/

/-- **What a run gathers** from its moments, one after another. -/
def gather (f : Link → Moment → List α) (l : Link) : List Moment → List α
  | [] => []
  | t :: later => f l t ++ gather f (l.step t).1 later

theorem run_append (l : Link) (past later : List Moment) :
    (l.run (past ++ later)).1 = ((l.run past).1.run later).1 := by
  induction later using List.reverseRecOn with
  | nil => rw [List.append_nil]; rfl
  | append_singleton later t ih =>
    rw [← List.append_assoc, run_concat, run_concat, Step.andThen, ih]
    rfl

/-- A run is its first moment and the run after it. -/
theorem run_cons (l : Link) (t : Moment) (later : List Moment) :
    (l.run (t :: later)).1 = ((l.step t).1.run later).1 :=
  l.run_append [t] later

theorem gather_append (f : Link → Moment → List α) (l : Link) (past later : List Moment) :
    gather f l (past ++ later) = gather f l past ++ gather f (l.run past).1 later := by
  induction past generalizing l with
  | nil => rfl
  | cons t past ih => rw [List.cons_append, gather, gather, ih, run_cons, List.append_assoc]

theorem gather_concat (f : Link → Moment → List α) (l : Link) (past : List Moment) (t : Moment) :
    gather f l (past ++ [t]) = gather f l past ++ f (l.run past).1 t := by
  rw [gather_append]
  exact congrArg _ (List.append_nil _)

/-- What is sent on an attempt at a moment. -/
def sentAt (epoch : Epoch) (l : Link) (t : Moment) : List ClientFrame :=
  ((transmissions (l.orders t)).filter (·.1 = epoch)).map Prod.snd

/-- **What is sent on an attempt** in a run. -/
def wire (l : Link) (moments : List Moment) (epoch : Epoch) : List ClientFrame :=
  gather (sentAt epoch) l moments

/-- **What is sent on all attempts** in a run. -/
def sent (l : Link) (moments : List Moment) : List ClientFrame :=
  gather (fun l t => (transmissions (l.orders t)).map Prod.snd) l moments

/-- The command that the manager takes up at a moment, if it takes one up. -/
def taken? (l : Link) (t : Moment) : Option Command := (l.takes t.move).bind (·.1.command?)

/-- The frame of the command that the manager takes up, if it has one. -/
def speech? (l : Link) (t : Moment) : Option ClientFrame := (l.taken? t).bind Command.speech?

/-- Whether an attempt is under way and has come to a phase. -/
def IsAt (l : Link) (epoch : Epoch) (phase : Phase) : Prop :=
  l.manager.machine.epoch = epoch ∧ l.manager.machine.phase = some phase

instance (l : Link) (epoch : Epoch) (phase : Phase) : Decidable (l.IsAt epoch phase) :=
  inferInstanceAs (Decidable (_ ∧ _))

/-- **Whether the handshake of an attempt is done**, and the attempt goes on. -/
abbrev IsUp (l : Link) (epoch : Epoch) : Prop := l.IsAt epoch .established

/-- **The handshake of an attempt completes** at a moment. -/
def Completes (l : Link) (t : Moment) (epoch : Epoch) : Prop :=
  ¬ l.IsUp epoch ∧ (l.step t).1.IsUp epoch

/-- **The frame that is taken up** at a moment, while the handshake of an
attempt is done. -/
def passedAt (epoch : Epoch) (l : Link) (t : Moment) : List ClientFrame :=
  if l.IsUp epoch then (l.speech? t).toList else []

/-- **The frames that are taken up while the handshake of an attempt is
done**, in their order. -/
def passed (l : Link) (moments : List Moment) (epoch : Epoch) : List ClientFrame :=
  gather (passedAt epoch) l moments

/-! ### A moment -/

theorem orders_of_takes {message : ManagerMessage} {rest : Link}
    (htakes : l.takes t.move = some (message, rest)) :
    l.orders t = (l.manager.handle (l.sight t) message).2 := by
  rw [orders, htakes]

/-- **A moment is an exchange.** -/
theorem Sound.exchanges (h : l.Sound) (t : Moment) :
    Exchanges (l.sight t) (l.speech? t) l.manager.machine (l.step t).1.manager.machine
      (transmissions (l.orders t)) := by
  cases htakes : l.takes t.move with
  | none =>
    rw [speech?, taken?, htakes, manager_step htakes]
    exact .going rfl rfl (by rw [orders, htakes]; rfl)
  | some p =>
    obtain ⟨message, rest⟩ := p
    rw [speech?, taken?, htakes, manager_step_of_takes htakes, orders_of_takes htakes]
    exact h.manager.exchanges (l.sight t) message

/-- An attempt that is over does not come back. -/
theorem Sound.contains_of_step (h : l.Sound) (he : epoch ≤ l.manager.machine.epoch)
    (hline : (l.step t).1.lines.contains epoch = true) : l.lines.contains epoch = true := by
  rcases step_cases l t with ⟨c, -, heq⟩ | ⟨message, rest, htakes, heq⟩ | ⟨-, -, haside⟩
  · rw [heq, Link.enqueue] at hline
    split at hline <;> exact hline
  · obtain ⟨hm, hl, -⟩ := takes_frame htakes
    rw [heq] at hline
    rcases (told_tell (l.sight t) t.now rest message).lines epoch hline with hopen | hline
    · rw [hm] at hopen
      exact absurd (h.manager.lt_of_openAttempt hopen) (Nat.not_lt.mpr he)
    · exact hl ▸ hline
  · exact (haside.lines epoch hline).resolve_left List.not_mem_nil

/-- What is said at a moment is sent on the attempt under way, unless it is
over. -/
theorem sentAt_eq {said : List ClientFrame}
    (h : transmissions (l.orders t)
      = if l.lines.contains l.manager.machine.epoch
        then said.map (l.manager.machine.epoch, ·) else []) (epoch : Epoch) :
    sentAt epoch l t
      = if l.manager.machine.epoch = epoch then if l.lines.contains epoch then said else []
        else [] := by
  rw [sentAt, h]
  split
  · rename_i hline
    by_cases he : l.manager.machine.epoch = epoch
    · rw [he] at hline
      simp [he, hline, List.filter_map, Function.comp_def]
    · simp [he, List.filter_map, Function.comp_def]
  · rename_i hline
    by_cases he : l.manager.machine.epoch = epoch
    · rw [he] at hline
      simp [he, hline]
    · simp [he]

theorem Sound.step_protocol (h : l.Sound) (t : Moment) :
    (l.step t).1.manager.machine.protocol = l.manager.machine.protocol := by
  cases htakes : l.takes t.move with
  | none => rw [manager_step htakes]
  | some p =>
    obtain ⟨message, rest⟩ := p
    rw [manager_step_of_takes htakes]
    exact h.manager.handle_protocol _ _

/-- The protocol that the server is greeted with is the one of the settings. -/
theorem run_protocol (config : Config) (hostActive : Bool) (moments : List Moment) :
    ((start config hostActive).run moments).1.manager.machine.protocol
      = config.protocolVersion := by
  induction moments using List.reverseRecOn with
  | nil => rfl
  | append_singleton moments t ih =>
    rw [run_concat]
    exact (((sound_start config hostActive).run moments).step_protocol t).trans ih

/-! ### Before the handshake is done -/

/-- **The handshake of an attempt has completed** in a run. -/
def HasCompleted (l : Link) (moments : List Moment) (epoch : Epoch) : Prop :=
  ∃ past t later, moments = past ++ t :: later ∧ (l.run past).1.Completes t epoch

theorem HasCompleted.concat (h : l.HasCompleted moments epoch) (t : Moment) :
    l.HasCompleted (moments ++ [t]) epoch := by
  obtain ⟨past, t', later, rfl, hc⟩ := h
  exact ⟨past, t', later ++ [t], by simp, hc⟩

/-- **Before the handshake of an attempt is done**: what was sent on it. -/
structure Early (protocol : UInt32) (epoch : Epoch) (completed : Prop) (l : Link)
    (sent : List ClientFrame) : Prop where
  /-- Nothing on an attempt that is being opened, or will be. -/
  new : l.manager.machine.epoch < epoch ∨ l.IsAt epoch .opening → sent = []
  greeted : l.IsAt epoch .handshaking →
    Reaches (l.lines.contains epoch) [.hello protocol] sent
  up : l.IsUp epoch → completed
  early : ¬ completed → sent <+: [.hello protocol]

/-- **After the handshake of an attempt is done**: what was sent on it, of what
was to be sent. -/
structure Late (epoch : Epoch) (script : List ClientFrame) (l : Link) (sent : List ClientFrame) :
    Prop where
  epoch_le : epoch ≤ l.manager.machine.epoch
  phase : l.manager.machine.epoch = epoch →
    l.manager.machine.phase = some .established ∨ l.manager.machine.phase = none
  reaches : Reaches (l.lines.contains epoch) script sent

variable {protocol : UInt32} {completed : Prop} {script sent : List ClientFrame}

theorem IsAt.unique {phase phase' : Phase} (h : l.IsAt epoch phase) (h' : l.IsAt epoch phase') :
    phase = phase' :=
  Option.some.inj (h.2.symm.trans h'.2)

/-- The server of the attempt is greeted. -/
theorem early_of_greeted (hat : l.IsAt epoch .handshaking)
    (h : Reaches (l.lines.contains epoch) [.hello protocol] sent) :
    Early protocol epoch completed l sent where
  new hnew := by
    rcases hnew with hlt | ho
    · exact absurd hat.1 hlt.ne
    · cases hat.unique ho
  greeted _ := h
  up hup := nomatch hat.unique hup
  early _ := h.beginning

/-- The handshake of the attempt is done. -/
theorem early_of_up (hat : l.IsUp epoch) (hc : completed) :
    Early protocol epoch completed l sent where
  new hnew := by
    rcases hnew with hlt | ho
    · exact absurd hat.1 hlt.ne
    · cases hat.unique ho
  greeted hg := nomatch hat.unique hg
  up _ := hc
  early hno := absurd hc hno

namespace Early

/-- The attempt is over without a handshake. -/
theorem ended {l' : Link} (h : Early protocol epoch completed l sent)
    (hle : epoch ≤ l'.manager.machine.epoch) (hat : ∀ phase, ¬ l'.IsAt epoch phase) :
    Early protocol epoch completed l' sent where
  new hnew := absurd hnew (not_or.mpr ⟨hle.not_gt, hat .opening⟩)
  greeted hg := absurd hg (hat .handshaking)
  up hup := absurd hup (hat .established)
  early := h.early

/-- The attempt stays where it is, in silence. -/
theorem still {l' : Link} (h : Early protocol epoch completed l sent)
    (he : l'.manager.machine.epoch = l.manager.machine.epoch)
    (hp : l'.manager.machine.phase = l.manager.machine.phase)
    (hline : l'.lines.contains epoch = true → l.lines.contains epoch = true) :
    Early protocol epoch completed l' sent := by
  have hat {phase : Phase} (h' : l'.IsAt epoch phase) : l.IsAt epoch phase :=
    ⟨he.symm.trans h'.1, hp.symm.trans h'.2⟩
  exact ⟨fun hnew => h.new (hnew.imp (fun hlt => he ▸ hlt) hat),
    fun hg => (h.greeted (hat hg)).mono hline, fun hup => h.up (hat hup), h.early⟩

theorem mono {completed' : Prop} (h : Early protocol epoch completed l sent)
    (hc : completed → completed') : Early protocol epoch completed' l sent :=
  ⟨h.new, h.greeted, fun hup => hc (h.up hup), fun hno => h.early fun hdone => hno (hc hdone)⟩

/-- While another attempt is under way, nothing is sent. The attempt may be
opened, but does not come further. -/
theorem step_of_ne (h : Early protocol epoch completed l sent) (hs : l.Sound)
    (he : l.manager.machine.epoch ≠ epoch) (t : Moment) :
    Early protocol epoch completed (l.step t).1 (sent ++ sentAt epoch l t) := by
  obtain ⟨said, hx, htransmissions⟩ := hs.exchanges t
  rw [sentAt_eq htransmissions, if_neg he, List.append_nil]
  have hnot {phase : Phase} (hphase : phase ≠ .opening) : ¬ (l.step t).1.IsAt epoch phase := by
    rintro ⟨he', hp'⟩
    refine he ((hx.epoch_eq (hp' ▸ nofun) ?_).symm.trans he')
    rw [hp']
    exact fun heq => hphase (Option.some.inj heq)
  refine ⟨fun hnew => h.new (.inl (lt_of_le_of_ne (hx.epoch_le.trans ?_) he)),
    fun hg => absurd hg (hnot (by decide)), fun hup => absurd hup (hnot (by decide)), h.early⟩
  exact hnew.elim le_of_lt fun hat => hat.1.le

/-- **One moment before the handshake is done.** -/
theorem step (h : Early protocol epoch completed l sent) (hs : l.Sound)
    (hprotocol : l.manager.machine.protocol = protocol) (t : Moment) :
    Early protocol epoch (completed ∨ l.Completes t epoch) (l.step t).1
      (sent ++ sentAt epoch l t) := by
  by_cases he : l.manager.machine.epoch = epoch
  · obtain ⟨said, hx, htransmissions⟩ := hs.exchanges t
    have hline := hs.contains_of_step (t := t) he.ge
    rw [sentAt_eq htransmissions, if_pos he]
    cases hx with
    | greeting hf he' hp hp' =>
      rw [hprotocol, h.new (.inr ⟨he, hp⟩)]
      exact early_of_greeted ⟨he'.trans he, hp'⟩ ((Reaches.nil _).append hline [.hello protocol])
    | replay hf he' hp hp' =>
      have hup : ¬ l.IsUp epoch := fun hup => nomatch hup.unique ⟨he, hp⟩
      exact early_of_up ⟨he'.trans he, hp'⟩ (.inr ⟨hup, he'.trans he, hp'⟩)
    | going he' hp' =>
      by_cases hp : l.manager.machine.phase = some .established
      · exact early_of_up ⟨he'.trans he, hp'.trans hp⟩ (.inl (h.up ⟨he, hp⟩))
      · rw [if_neg hp, ite_self, List.append_nil]
        exact (h.still he' hp' hline).mono .inl
    | opening hf he' hp' =>
      rw [ite_self, List.append_nil]
      refine (h.ended (he ▸ he' ▸ Nat.le_succ _) fun phase hat => ?_).mono .inl
      exact Nat.succ_ne_self _ (he'.symm.trans (hat.1.trans he.symm))
    | ending hf he' hp' =>
      rw [ite_self, List.append_nil]
      exact (h.ended (he ▸ he') fun phase hat => nomatch hp'.symm.trans hat.2).mono .inl
  · exact (h.step_of_ne hs he t).mono .inl

end Early

/-! ### After the handshake is done -/

/-- **The handshake is done**, and the topics are replayed. -/
theorem Early.late (h : Early protocol epoch completed l sent) (hs : l.Sound)
    (hc : l.Completes t epoch) :
    Late epoch (.hello protocol :: t.topics.map .subscribe) (l.step t).1
      (sent ++ sentAt epoch l t) := by
  obtain ⟨hnot, he', hp'⟩ := hc
  obtain ⟨said, hx, htransmissions⟩ := hs.exchanges t
  have he : l.manager.machine.epoch = epoch := by
    rw [← hx.epoch_eq (hp' ▸ nofun) (hp' ▸ nofun), he']
  have hsent := sentAt_eq htransmissions epoch
  rw [if_pos he] at hsent
  rw [hsent]
  refine ⟨he'.ge, fun _ => .inl hp', ?_⟩
  cases hx with
  | greeting hf he hp hp'' => cases hp'.symm.trans hp''
  | replay hf he' hp hp'' =>
    exact (h.greeted ⟨he, hp⟩).append (hs.contains_of_step he.ge) (t.topics.map .subscribe)
  | going he' hp => exact absurd ⟨he, hp.symm.trans hp'⟩ hnot
  | opening hf he hp'' => cases hp'.symm.trans hp''
  | ending hf he hp'' => cases hp'.symm.trans hp''

/-- What is sent after the handshake is what is taken up. -/
theorem Late.sentAt_eq (h : Late epoch script l sent) (hs : l.Sound) (t : Moment) :
    sentAt epoch l t = if l.lines.contains epoch then passedAt epoch l t else [] := by
  obtain ⟨said, hx, htransmissions⟩ := hs.exchanges t
  rw [Link.sentAt_eq htransmissions, passedAt]
  by_cases he : l.manager.machine.epoch = epoch
  · rw [if_pos he]
    congr 1
    cases hx with
    | greeting hf he' hp => exact absurd (h.phase he) (by simp [hp])
    | replay hf he' hp => exact absurd (h.phase he) (by simp [hp])
    | going he' hp' => simp only [IsAt, he, true_and]
    | opening hf he' hp' =>
      rw [hf]
      exact (ite_self _).symm
    | ending hf he' hp' =>
      rw [hf]
      exact (ite_self _).symm
  · have hup : ¬ l.IsUp epoch := fun hup => he hup.1
    rw [if_neg he, if_neg hup, ite_self]

/-- **One moment after the handshake is done.** -/
theorem Late.step (h : Late epoch script l sent) (hs : l.Sound) (t : Moment) :
    Late epoch (script ++ passedAt epoch l t) (l.step t).1 (sent ++ sentAt epoch l t) := by
  obtain ⟨said, hx, -⟩ := hs.exchanges t
  refine ⟨h.epoch_le.trans hx.epoch_le, fun he' => ?_, ?_⟩
  · have he : l.manager.machine.epoch = epoch :=
      le_antisymm (hx.epoch_le.trans he'.le) h.epoch_le
    cases hx with
    | greeting hf hsame hp => exact absurd (h.phase he) (by simp [hp])
    | replay hf hsame hp hp' => exact .inl hp'
    | going hsame hp' => exact hp'.symm ▸ h.phase he
    | opening hf hnext => exact absurd (hnext.symm.trans (he'.trans he.symm)) (Nat.succ_ne_self _)
    | ending hf hle hp' => exact .inr hp'
  · rw [h.sentAt_eq hs]
    exact h.reaches.append (hs.contains_of_step h.epoch_le) _

/-! ### Runs -/

theorem wire_concat (l : Link) (moments : List Moment) (t : Moment) (epoch : Epoch) :
    l.wire (moments ++ [t]) epoch = l.wire moments epoch ++ sentAt epoch (l.run moments).1 t :=
  gather_concat ..

theorem passed_concat (l : Link) (later : List Moment) (t : Moment) (epoch : Epoch) :
    l.passed (later ++ [t]) epoch = l.passed later epoch ++ passedAt epoch (l.run later).1 t :=
  gather_concat ..

theorem early_run (config : Config) (hostActive : Bool) (moments : List Moment) (epoch : Epoch) :
    Early config.protocolVersion epoch ((start config hostActive).HasCompleted moments epoch)
      ((start config hostActive).run moments).1 ((start config hostActive).wire moments epoch) := by
  induction moments using List.reverseRecOn with
  | nil =>
    exact ⟨fun _ => rfl, fun hg => (nomatch hg.2), fun hup => (nomatch hup.2),
      fun _ => List.nil_prefix⟩
  | append_singleton moments t ih =>
    have hs := (sound_start config hostActive).run moments
    rw [run_concat, wire_concat]
    refine (ih.step hs (run_protocol config hostActive moments) t).mono ?_
    rintro (hpast | hnow)
    · exact hpast.concat t
    · exact ⟨moments, t, [], rfl, hnow⟩

theorem late_run {config : Config} {hostActive : Bool} {past : List Moment} {t : Moment}
    (hc : ((start config hostActive).run past).1.Completes t epoch) (later : List Moment) :
    Late epoch
      (.hello config.protocolVersion :: t.topics.map .subscribe
        ++ passed ((start config hostActive).run (past ++ [t])).1 later epoch)
      ((start config hostActive).run (past ++ t :: later)).1
      ((start config hostActive).wire (past ++ t :: later) epoch) := by
  have hsound := (sound_start config hostActive).run
  induction later using List.reverseRecOn with
  | nil =>
    rw [passed, gather, List.append_nil, wire_concat, run_concat]
    exact (early_run config hostActive past epoch).late (hsound past) hc
  | append_singleton later t' ih =>
    have hsplit : past ++ t :: (later ++ [t']) = (past ++ t :: later) ++ [t'] := by simp
    have hrun : ((start config hostActive).run (past ++ t :: later)).1
        = (((start config hostActive).run (past ++ [t])).1.run later).1 := by
      rw [← run_append, List.append_assoc]
      rfl
    rw [hsplit, wire_concat, passed_concat, ← hrun, ← List.append_assoc,
      run_concat _ (past ++ t :: later)]
    exact ih.step (hsound _) t'

/-! ### The queue -/

/-- **The commands that the manager takes up** in a run. -/
def taken (l : Link) (moments : List Moment) : List Command :=
  gather (fun l t => (l.taken? t).toList) l moments

/-- Whether a frame brings a command. -/
def isCommand : ClientFrame → Bool
  | .command _ _ _ _ => true
  | _ => false

/-- The frames of commands. -/
def commandFrames (frames : List ClientFrame) : List ClientFrame := frames.filter isCommand

/-- **The queue is first come, first served**: what was taken up is what was
asked for first, and until the manager stops the rest still waits. -/
structure Queued (l : Link) (asked taken : List Command) : Prop where
  beginning : taken <+: asked
  waiting : l.manager.stopped = false → taken ++ l.commands = asked

theorem Queued.step {asked taken : List Command} (h : l.Queued asked taken) (hs : l.Sound)
    (t : Moment) :
    (l.step t).1.Queued (asked ++ Link.asked [t]) (taken ++ (l.taken? t).toList) := by
  rcases step_cases l t with ⟨c, hm, heq⟩ | ⟨message, rest, htakes, heq⟩ | ⟨hnone, hask, haside⟩
  · have htaken : l.taken? t = none := by rw [taken?, hm]; rfl
    rw [heq, htaken, asked_of_ask hm, Option.toList_none, List.append_nil]
    refine ⟨h.beginning.trans (List.prefix_append ..), fun hs' => ?_⟩
    rw [manager_enqueue] at hs'
    rw [Link.enqueue, if_neg (hs' ▸ Bool.false_ne_true), ← h.waiting hs', List.append_assoc]
  · obtain ⟨hm, -, hc⟩ := takes_frame htakes
    have htaken : l.taken? t = message.command? := by rw [taken?, htakes]; rfl
    have htold := told_tell (l.sight t) t.now rest message
    rw [asked_of_takes htakes, List.append_nil, htaken, heq]
    cases hst : l.manager.stopped with
    | true =>
      -- nothing waits for a manager that has stopped
      have hnil := List.append_eq_nil_iff.mp (hc.symm.trans (hs.commands hst))
      rw [hnil.1, List.append_nil]
      refine ⟨h.beginning, fun hs' => ?_⟩
      rw [htold.manager, hm, Manager.handle_of_stopped hst, hst] at hs'
      cases hs'
    | false =>
      have hall := h.waiting hst
      rw [hc, ← List.append_assoc] at hall
      refine ⟨⟨_, hall⟩, fun hs' => ?_⟩
      rw [htold.commands, ← htold.manager, hs', if_neg Bool.false_ne_true]
      exact hall
  · have htaken : l.taken? t = none := by rw [taken?, hnone]; rfl
    rw [htaken, asked_of_ne hask, Option.toList_none, List.append_nil, List.append_nil]
    refine ⟨h.beginning, fun hs' => ?_⟩
    rw [haside.commands]
    exact h.waiting (haside.manager ▸ hs')

theorem queued_run (config : Config) (hostActive : Bool) (moments : List Moment) :
    ((start config hostActive).run moments).1.Queued (asked moments)
      ((start config hostActive).taken moments) := by
  induction moments using List.reverseRecOn with
  | nil => exact ⟨List.prefix_refl _, fun _ => rfl⟩
  | append_singleton moments t ih =>
    rw [run_concat, asked_append, taken, gather_concat]
    exact ih.step ((sound_start config hostActive).run moments) t

/-- **A frame that finds no handshake done is not sent.** -/
theorem Sound.transmissions_of_not_established (hs : l.Sound) {frame : ClientFrame}
    (hf : l.speech? t = some frame) (he : l.manager.machine.isEstablished = false) :
    transmissions (l.orders t) = [] := by
  obtain ⟨said, hx, htransmissions⟩ := hs.exchanges t
  rw [hf] at hx
  have hsaid : said = [] := by
    cases hx with
    | going => exact if_neg (of_decide_eq_false he)
    | opening => rfl
    | ending => rfl
    | greeting hnone => cases hnone
    | replay hnone => cases hnone
  rw [htransmissions, hsaid, List.map_nil, ite_self]

/-- The frame of a command is sent when the command is taken up. -/
theorem Sound.commandFrames_sublist (hs : l.Sound) (t : Moment) :
    (commandFrames ((transmissions (l.orders t)).map Prod.snd)).Sublist
      (commandFrames (l.speech? t).toList) := by
  obtain ⟨said, hx, htransmissions⟩ := hs.exchanges t
  have hsublist : ((transmissions (l.orders t)).map Prod.snd).Sublist said := by
    rw [htransmissions]
    split
    · simp [Function.comp_def]
    · exact List.nil_sublist _
  refine (hsublist.filter isCommand).trans ?_
  cases hx with
  | greeting => exact List.nil_sublist _
  | replay =>
    have hnone : ((l.sight t).topics.map ClientFrame.subscribe).filter isCommand = [] := by
      simp [isCommand]
    rw [hnone]
    exact List.nil_sublist _
  | going =>
    split
    · exact .refl _
    · exact List.nil_sublist _
  | opening => exact List.nil_sublist _
  | ending => exact List.nil_sublist _

theorem commandFrames_append (frames frames' : List ClientFrame) :
    commandFrames (frames ++ frames') = commandFrames frames ++ commandFrames frames' :=
  List.filter_append ..

theorem toList_speech? (l : Link) (t : Moment) :
    (l.speech? t).toList = (l.taken? t).toList.filterMap Command.speech? := by
  unfold speech?
  cases l.taken? t with
  | none => rfl
  | some c => cases c <;> rfl

/-- **Frames of commands are sent in the order in which the commands are taken
up**, and each at most once. -/
theorem commandFrames_run (config : Config) (hostActive : Bool) (moments : List Moment) :
    (commandFrames ((start config hostActive).sent moments)).Sublist
      (commandFrames (((start config hostActive).taken moments).filterMap Command.speech?)) := by
  induction moments using List.reverseRecOn with
  | nil => exact .refl _
  | append_singleton moments t ih =>
    have hs := (sound_start config hostActive).run moments
    rw [sent, taken, gather_concat, gather_concat, List.filterMap_append, commandFrames_append,
      commandFrames_append]
    rw [← toList_speech?]
    exact ih.append (hs.commandFrames_sublist t)

/-- **The order on the wire of an attempt.** -/
structure WireOrder (l : Link) (moments : List Moment) (protocol : UInt32) (epoch : Epoch) :
    Prop where
  /-- Nothing but `hello` is sent until the handshake completes. -/
  early : ¬ l.HasCompleted moments epoch → l.wire moments epoch <+: [.hello protocol]
  /-- Once it has, the topics follow that are held at that moment, and then what
  is taken up while the attempt goes on. -/
  late : ∀ past t later changes, moments = past ++ t :: later →
    (l.run past).1.Completes t epoch → t.topics = (Interests.after changes).topics →
    Reaches ((l.run moments).1.lines.contains epoch)
      (.hello protocol :: (Interests.after changes).resubscribeFrames
        ++ passed (l.run (past ++ [t])).1 later epoch)
      (l.wire moments epoch)

/-- **The order on the wire.** However commands, frames, attempts, timers and
the host interfere, what is sent on an attempt is `hello`, then each topic that
is held when the handshake completes, once, and then what users have queued, in
the order in which they queued it, as far as the attempt lasts. A frame that is
taken up while no handshake is done is not sent, and the frame of a command is
sent at most once, on all attempts together. -/
theorem wire_order (config : Config) (hostActive : Bool) (moments : List Moment) :
    let l := start config hostActive
    (∀ epoch, l.WireOrder moments config.protocolVersion epoch)
      ∧ (∀ changes topic, (Interests.after changes).resubscribeFrames.count (.subscribe topic)
          = if (Interests.after changes).interest topic = 0 then 0 else 1)
      ∧ (∀ t frame, (l.run moments).1.speech? t = some frame →
          (l.run moments).1.manager.machine.isEstablished = false →
          transmissions ((l.run moments).1.orders t) = [])
      ∧ l.taken moments <+: asked moments
      ∧ (commandFrames (l.sent moments)).Sublist
          (commandFrames ((asked moments).filterMap Command.speech?)) := by
  intro l
  have hqueued := (queued_run config hostActive moments).beginning
  refine ⟨fun epoch => ⟨(early_run config hostActive moments epoch).early, ?_⟩,
    fun changes => (Interests.tidy_after changes).count_resubscribeFrames, ?_, hqueued, ?_⟩
  · rintro past t later changes rfl hc htopics
    rw [Interests.resubscribeFrames, ← htopics]
    exact (late_run hc later).reaches
  · intro t frame hf he
    exact ((sound_start config hostActive).run moments).transmissions_of_not_established hf he
  · exact (commandFrames_run config hostActive moments).trans
      ((hqueued.sublist.filterMap Command.speech?).filter isCommand)

/-- A run in which the connection is lost. The frame of a topic and a command
find no handshake done, another command does, and a third one still waits when
the connection is lost. -/
def interrupted : List Moment :=
  [.ask (.send (.subscribe (.game 1))), .ask .connect, .takeCommand, .takeCommand,
    .hear (.opened 1), .takeInput, .ask (.submit ⟨1⟩ 1 3 (.ready true) 7), .takeCommand,
    .hear (.frame 1 (.helloAck none none)), .takeInput,
    .ask (.submit ⟨2⟩ 1 3 (.ready true) 8), .takeCommand,
    .ask (.submit ⟨3⟩ 1 3 (.ready true) 9),
    .hear (.closed 1), .takeInput, .hear (.retryFired 1), .takeInput,
    .hear (.opened 2), .takeInput, .hear (.frame 2 (.helloAck none none)), .takeInput,
    .takeCommand].map fun move =>
      ⟨0, (Interests.empty.acquire (.game 1)).1.topics, fun _ => true, move⟩

/-- Each attempt begins anew, and each command is on one of them or on none. -/
example :
    (start .default true).wire interrupted 1
        = [.hello 1, .subscribe (.game 1), .command ⟨2⟩ 1 3 (.ready true)]
      ∧ (start .default true).wire interrupted 2
        = [.hello 1, .subscribe (.game 1), .command ⟨3⟩ 1 3 (.ready true)] :=
  ⟨by rfl, by rfl⟩

end Link

end LiveSync.Connection
