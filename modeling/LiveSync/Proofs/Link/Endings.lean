import LiveSync.Proofs.Link.Lines

/-!
# One attempt, one ending

Whatever the manager, the server and the transport do to an attempt, what it reports
is what comes of a life: that there is a transport, what is heard, and at most one
ending (`Line.one_ending`).

An ending is reported for its own reason only. That the transport was closed is
reported if the server closed it, and silence only if nothing at all was heard for as
long as is put up with: a heartbeat, which is not reported, is something that was
heard. That an attempt is retired is no reason to report anything.

A retired attempt is not over at once, however. What it was given before is still to
be sent, and meanwhile the server may hang up or fall silent, which is reported as
ever. But it cannot go on for long: each time that it looks for something to send
there is a text less, and when there is none it closes its transport
(`Chronicle.Drains`).
-/

namespace LiveSync.Connection

open Attempt (Deed Happening Lived OneEnding)
open Link (LineMove)

namespace Line

namespace Chronicle

variable {c : Chronicle} {epoch : Epoch} {patience : Duration} {t : Clock × Act} {i : Input}
  {acts : List (Clock × Act)} {deadline : Clock} {n : Nat}

/-! ### What a chronicle says -/

/-- **A chronicle is sound**: what is written down as a life is the life of the attempt,
and what is reported is what is to be reported of it. -/
structure Sound (epoch : Epoch) (patience : Duration) (c : Chronicle) : Prop where
  epoch_eq : c.line.attempt.epoch = epoch
  patience_eq : c.line.attempt.patience = patience
  lived : Lived c.life c.line.attempt.stage
  told_eq : Attempt.told c.deeds = Attempt.reports epoch c.life
  /-- After the deadline, or retired, an attempt closes its transport and does nothing more. -/
  closes : ∀ earlier x, c.life = earlier ++ [x] → x = .retired ∨ x = .silence →
    c.deeds.getLast? = some .close
  retired : .retired ∈ c.life → c.line.retired = true

theorem sound_start (epoch : Epoch) (patience : Duration) :
    (start epoch patience).Sound epoch patience where
  epoch_eq := rfl
  patience_eq := rfl
  lived := .asked
  told_eq := rfl
  closes _ _ h := (List.concat_ne_nil _ _ h.symm).elim
  retired := nofun

theorem Sound.writes {m : LineMove} {x : Happening} (h : c.Sound epoch patience)
    (hw : c.Writes t m x) : (c.act t).Sound epoch patience := by
  obtain ⟨hepoch, hpatience⟩ := c.line.attempt.step_frame t.1 x
  rw [hw.act_eq]
  refine ⟨hepoch.trans h.epoch_eq, hpatience.trans h.patience_eq, h.lived.step hw.heeds, ?_, ?_, ?_⟩
  · rw [Attempt.told_append, h.told_eq, Attempt.told_step hw.heeds, Attempt.reports_concat,
      h.epoch_eq]
  · intro earlier y hlife hy
    cases List.append_inj_right' hlife rfl
    have htakes := Attempt.takesUp_step hw.heeds
    generalize c.line.attempt.step t.1 x = s at htakes ⊢
    rcases hy with rfl | rfl
    · cases htakes with
      | retired => exact List.getLast?_concat
    · cases htakes with
      | stalled =>
        rw [List.getLast?_append]
        rfl
  · intro hmem
    rcases List.mem_append.mp hmem with hmem | hmem
    · exact h.retired hmem
    · have hgives := hw.gives
      rw [← List.mem_singleton.mp hmem] at hgives
      cases hgives with
      | noticeRetired hretired _ => exact hretired

theorem Sound.skips (h : c.Sound epoch patience) (hs : c.Skips t) :
    (c.act t).Sound epoch patience := by
  rw [hs.act_eq]
  cases t.2 with
  | retire => exact ⟨h.epoch_eq, h.patience_eq, h.lived, h.told_eq, h.closes, fun _ => rfl⟩
  | _ => exact ⟨h.epoch_eq, h.patience_eq, h.lived, h.told_eq, h.closes, h.retired⟩

theorem sound_run (epoch : Epoch) (patience : Duration) (acts : List (Clock × Act)) :
    ((start epoch patience).run acts).Sound epoch patience := by
  induction acts using List.reverseRecOn with
  | nil => exact sound_start epoch patience
  | append_singleton acts t ih =>
    rw [run_concat]
    rcases act_cases _ t with hs | ⟨m, x, hw⟩
    · exact ih.skips hs
    · exact ih.writes hw

/-! ### Before the request is answered -/

/-- **A life begins** when the request for a transport is answered. -/
theorem Sound.life_act_eq_nil_iff (h : c.Sound epoch patience) (t : Clock × Act) :
    (c.act t).life = [] ↔ c.life = [] ∧ t.2.isAnswer = false := by
  rcases c.act_cases t with hs | ⟨m, x, hw⟩
  · rw [hs.act_eq]
    refine ⟨fun hnil => ⟨hnil, Bool.eq_false_iff.mpr fun hanswer => ?_⟩, And.left⟩
    obtain ⟨failure, ht⟩ := Act.isAnswer_iff.mp hanswer
    have hheeds := hs.not_heeds _ _ (by rw [ht]; rfl) (.answered failure)
    rw [(Attempt.heeds_of_connecting (h.lived.eq_nil_iff.mp hnil)).mpr ⟨failure, rfl⟩] at hheeds
    cases hheeds
  · rw [hw.act_eq]
    refine ⟨fun hnil => (List.concat_ne_nil _ _ hnil).elim, fun ⟨hnil, hanswer⟩ => ?_⟩
    obtain ⟨failure, rfl⟩ := (Attempt.heeds_of_connecting (h.lived.eq_nil_iff.mp hnil)).mp hw.heeds
    cases (Act.isAnswer_iff.mpr ⟨failure, hw.act_eq_move rfl⟩).symm.trans hanswer

theorem life_run_eq_nil_iff (epoch : Epoch) (patience : Duration) (acts : List (Clock × Act)) :
    ((start epoch patience).run acts).life = [] ↔ ∀ t ∈ acts, t.2.isAnswer = false := by
  induction acts using List.reverseRecOn with
  | nil => exact ⟨fun _ => nofun, fun _ => rfl⟩
  | append_singleton acts t ih =>
    rw [run_concat, (sound_run epoch patience acts).life_act_eq_nil_iff, ih, List.forall_mem_append,
      List.forall_mem_singleton]

/-! ### Messages -/

/-- **A message is taken up** when it arrives while there is a transport, and only then. -/
theorem life_act_eq_incoming_iff (c : Chronicle) (t : Clock × Act) (message : Message) :
    (c.act t).life = c.life ++ [.incoming message]
      ↔ t.2 = .move (.incoming message) ∧ ∃ deadline, c.line.attempt.stage = .live deadline := by
  rcases c.act_cases t with hs | ⟨m, x, hw⟩
  · rw [hs.act_eq]
    refine ⟨fun h => ?_, fun ⟨ht, deadline, hlive⟩ => ?_⟩
    · cases List.self_eq_append_right.mp h
    · cases (Attempt.heeds_of_live hlive t.1 _).symm.trans
        (hs.not_heeds _ _ (by rw [ht]; rfl) (.incoming message))
  · rw [hw.act_eq]
    constructor
    · intro h
      cases List.append_cancel_left h
      refine ⟨hw.act_eq_move rfl, ?_⟩
      have htakes := Attempt.takesUp_step hw.heeds
      generalize c.line.attempt.step t.1 _ = s at htakes
      cases htakes with
      | received _ hlive => exact ⟨_, hlive⟩
    · rintro ⟨ht, -⟩
      have hmove := hw.move
      have hgives := hw.gives
      rw [ht] at hmove
      cases Option.some.inj hmove
      cases hgives with
      | incoming => rfl

/-! ### Silence -/

/-- **Where a deadline comes from**: the transport was opened just now, or something was
heard, or else it was the deadline before. -/
theorem stage_act_eq_live (h : (c.act t).line.attempt.stage = .live deadline) :
    (t.2 = .move (.answered none) ∨ t.2.isSign = true)
        ∧ deadline = t.1 + c.line.attempt.patience.nanos
      ∨ t.2.isSign = false ∧ c.line.attempt.stage = .live deadline := by
  rcases c.act_cases t with hs | ⟨m, x, hw⟩
  · rw [hs.act_eq] at h
    have hlive : c.line.attempt.stage = .live deadline := by rwa [attempt_obey] at h
    refine .inr ⟨Bool.eq_false_iff.mpr fun hsign => ?_, hlive⟩
    have htaken (m : LineMove) (x : Happening) (ht : t.2 = .move m) (hgives : c.line.Gives m x) :
        c.line.attempt.heeds t.1 x = false := hs.not_heeds m x (by rw [ht]; rfl) hgives
    rcases Act.isSign_iff.mp hsign with ⟨message, ht⟩ | ⟨error, ht⟩
    · cases (Attempt.heeds_of_live hlive t.1 _).symm.trans (htaken _ _ ht (.incoming message))
    · cases (Attempt.heeds_of_live hlive t.1 _).symm.trans (htaken _ _ ht (.transportError error))
  · rw [hw.act_eq] at h
    rw [hw.isSign_eq]
    refine (Attempt.stage_step_eq_live h).imp_left fun ⟨hx, hdeadline⟩ =>
      ⟨hx.imp_left ?_, hdeadline⟩
    rintro rfl
    exact hw.act_eq_move rfl

/-- **Since the transport was opened, or something was heard**, nothing was heard. -/
theorem quiet_run (h : ((start epoch patience).run acts).line.attempt.stage = .live deadline) :
    ∃ before since sign quiet, acts = before ++ (since, sign) :: quiet
      ∧ (sign = .move (.answered none) ∨ sign.isSign = true)
      ∧ (∀ t ∈ quiet, t.2.isSign = false) ∧ deadline = since + patience.nanos := by
  induction acts using List.reverseRecOn with
  | nil => cases h
  | append_singleton acts t ih =>
    rw [run_concat] at h
    rcases stage_act_eq_live h with ⟨hsign, hdeadline⟩ | ⟨hsign, hlive⟩
    · rw [(sound_run epoch patience acts).patience_eq] at hdeadline
      exact ⟨acts, t.1, t.2, [], rfl, hsign, nofun, hdeadline⟩
    · obtain ⟨before, since, sign, quiet, rfl, hfirst, hquiet, hdeadline⟩ := ih hlive
      exact ⟨before, since, sign, quiet ++ [t], by rw [List.append_assoc, List.cons_append], hfirst,
        List.forall_mem_append.mpr ⟨hquiet, List.forall_mem_singleton.mpr hsign⟩, hdeadline⟩

/-- **What is reported is reported of something** that was taken up. -/
theorem writes_of_mem_told (h : i ∈ Attempt.told ((start epoch patience).run acts).deeds) :
    ∃ before t after m x, acts = before ++ t :: after
      ∧ ((start epoch patience).run before).Writes t m x ∧ i ∈ Attempt.reportsOf epoch x := by
  induction acts using List.reverseRecOn with
  | nil => cases h
  | append_singleton acts t ih =>
    have hearlier (h : i ∈ Attempt.told ((start epoch patience).run acts).deeds) :
        ∃ before u after m x, acts ++ [t] = before ++ u :: after
          ∧ ((start epoch patience).run before).Writes u m x ∧ i ∈ Attempt.reportsOf epoch x := by
      obtain ⟨before, u, after, m, x, rfl, hw, hi⟩ := ih h
      exact ⟨before, u, after ++ [t], m, x, by rw [List.append_assoc, List.cons_append], hw, hi⟩
    rw [run_concat] at h
    rcases act_cases ((start epoch patience).run acts) t with hs | ⟨m, x, hw⟩
    · rw [hs.act_eq] at h
      exact hearlier h
    · rw [hw.act_eq, Attempt.told_append, Attempt.told_step hw.heeds,
        (sound_run epoch patience acts).epoch_eq] at h
      rcases List.mem_append.mp h with h | h
      · exact hearlier h
      · exact ⟨acts, t, [], m, x, rfl, hw, h⟩

/-! ### Draining -/

/-- **A line drains**: it is over, or it was retired and has fewer texts to send than
there are turns to come. -/
def Drains (n : Nat) (c : Chronicle) : Prop :=
  c.line.attempt.stage = .over
    ∨ c.line.retired = true ∧ c.line.attempt.stage ≠ .connecting ∧ c.line.outbound.length < n

/-- What is over stays over. -/
theorem over_act (h : c.line.attempt.stage = .over) (t : Clock × Act) :
    (c.act t).line.attempt.stage = .over := by
  rcases c.act_cases t with hs | ⟨m, x, hw⟩
  · rwa [hs.act_eq, attempt_obey]
  · cases (Attempt.heeds_of_over h t.1 x).symm.trans hw.heeds

theorem length_left_le (line : Line) (x : Happening) :
    (line.left x).length ≤ line.outbound.length := by
  cases x with
  | outbound =>
    rw [left, List.length_tail]
    exact Nat.sub_le ..
  | _ => exact Nat.le_refl _

/-- Nothing but a text that is given keeps a line from draining. -/
theorem Drains.act (h : c.Drains n) (hgive : t.2.isGive = false) : (c.act t).Drains n := by
  rcases c.act_cases t with hs | ⟨m, x, hw⟩
  · rw [hs.act_eq]
    refine h.imp (fun hover => by rwa [attempt_obey]) fun ⟨hretired, hstage, hlength⟩ => ?_
    rw [attempt_obey]
    cases ht : t.2 with
    | give => rw [ht] at hgive; cases hgive
    | retire => exact ⟨rfl, hstage, hlength⟩
    | turn | move => exact ⟨hretired, hstage, hlength⟩
  · rw [hw.act_eq]
    rcases h with hover | ⟨hretired, hstage, hlength⟩
    · cases (Attempt.heeds_of_over hover t.1 x).symm.trans hw.heeds
    · exact .inr ⟨hretired, Attempt.stage_step_ne_connecting hstage t.1 x,
        Nat.lt_of_le_of_lt (length_left_le c.line x) hlength⟩

/-- **A turn drains a line**: there is a text less, or it is over. -/
theorem Drains.turn {failure : Option Failure.Transport} (h : c.Drains (n + 1))
    (ht : t.2 = .turn failure) : (c.act t).Drains n := by
  rcases h with hover | ⟨hretired, hstage, hlength⟩
  · exact .inl (over_act hover t)
  have hmove : c.line.move? t.2
      = some (if c.line.outbound = [] then .noticeRetired else .sendNext failure) := by rw [ht]; rfl
  rcases c.act_cases t with hs | ⟨m, x, hw⟩
  · -- with a transport there is something to take up, and else the attempt is over
    refine .inl ?_
    rw [hs.act_eq, attempt_obey]
    cases hlive : c.line.attempt.stage with
    | connecting => exact absurd hlive hstage
    | «over» => rfl
    | live deadline =>
      cases hqueue : c.line.outbound with
      | nil =>
        rw [if_pos hqueue] at hmove
        cases (Attempt.heeds_of_live hlive t.1 _).symm.trans
          (hs.not_heeds _ _ hmove (.noticeRetired hretired hqueue))
      | cons text rest =>
        rw [if_neg (by rw [hqueue]; exact nofun)] at hmove
        cases (Attempt.heeds_of_live hlive t.1 _).symm.trans
          (hs.not_heeds _ _ hmove (.sendNext failure hlive hqueue))
  · rw [hw.act_eq]
    have hgives := hw.gives
    rw [← Option.some.inj (hmove.symm.trans hw.move)] at hgives
    split at hgives
    · cases hgives with
      | noticeRetired =>
        refine .inl ?_
        show (c.line.attempt.step t.1 .retired).1.stage = .over
        have htakes := Attempt.takesUp_step hw.heeds
        generalize c.line.attempt.step t.1 .retired = s at htakes ⊢
        cases htakes with
        | retired => rfl
    · cases hgives with
      | sendNext _ hlive hqueue =>
        refine .inr ⟨hretired, Attempt.stage_step_ne_connecting hstage t.1 _, ?_⟩
        show c.line.outbound.tail.length < n
        rw [hqueue] at hlength ⊢
        exact Nat.lt_of_succ_lt_succ hlength

theorem Drains.run {later : List (Clock × Act)} (h : c.Drains (later.countP (·.2.isTurn)))
    (hgive : ∀ t ∈ later, t.2.isGive = false) : (c.run later).line.attempt.stage = .over := by
  induction later generalizing c with
  | nil => exact h.resolve_right fun ⟨_, _, hlength⟩ => Nat.not_lt_zero _ hlength
  | cons t later ih =>
    obtain ⟨ht, hlater⟩ := List.forall_mem_cons.mp hgive
    refine ih (c := c.act t) ?_ hlater
    rw [List.countP_cons] at h
    cases hturn : t.2 with
    | turn failure =>
      rw [hturn] at h
      exact h.turn hturn
    | _ =>
      rw [hturn] at h
      exact h.act ht

/-! ### Endings -/

/-- **How an attempt has ended** that is over. -/
inductive Ended (epoch : Epoch) (c : Chronicle) : Prop where
  /-- There was no transport. -/
  | refused (error : Failure) (h : Attempt.told c.deeds = [.openFailed epoch error])
  /-- The server closed the transport. -/
  | closed (h : .closed epoch ∈ Attempt.told c.deeds)
  /-- The server was silent, and the attempt closed the transport. -/
  | stalled (h : .stalled epoch ∈ Attempt.told c.deeds) (hclose : c.deeds.getLast? = some .close)
  /-- The attempt was retired and closed the transport. Nothing of this is reported. -/
  | retired (h : c.line.retired = true) (hclose : c.deeds.getLast? = some .close)
    (hclosed : .closed epoch ∉ Attempt.told c.deeds)
    (hstalled : .stalled epoch ∉ Attempt.told c.deeds)

theorem Sound.ended (h : c.Sound epoch patience) (hover : c.line.attempt.stage = .over) :
    Ended epoch c := by
  have hlived := h.lived
  have htold := h.told_eq
  rw [hover] at hlived
  generalize hlife : c.life = life at hlived htold
  cases hlived with
  | refused error => exact .refused error htold
  | @ended earlier _ x hx hlive =>
    rw [Attempt.reports_concat] at htold
    cases x with
    | hungUp =>
      refine .closed ?_
      rw [htold]
      exact List.mem_append_right _ (List.mem_singleton_self _)
    | silence =>
      refine .stalled ?_ (h.closes _ _ hlife (.inr rfl))
      rw [htold]
      exact List.mem_append_right _ (List.mem_singleton_self _)
    | retired =>
      obtain ⟨middle, heq, hmiddle⟩ := hlive.reports_of_live epoch
      have hmem {i : Input} (hi : i ∈ Attempt.told c.deeds) :
          i = .opened epoch ∨ Attempt.InMidst epoch i := by
        rw [htold, heq, show Attempt.reportsOf epoch .retired = [] from rfl, List.append_nil] at hi
        exact (List.mem_cons.mp hi).imp_right (hmiddle i)
      refine .retired (h.retired ?_) (h.closes _ _ hlife (.inl rfl)) (fun hi => ?_) fun hi => ?_
      · rw [hlife]
        exact List.mem_append_right _ (List.mem_singleton_self _)
      · rcases hmem hi with hi | ⟨_, hi⟩ | ⟨_, hi⟩ <;> cases hi
      · rcases hmem hi with hi | ⟨_, hi⟩ | ⟨_, hi⟩ <;> cases hi
    | _ => cases hx

end Chronicle

/-- What an attempt has reported. -/
def reported (epoch : Epoch) (patience : Duration) (acts : List (Clock × Act)) : List Input :=
  Attempt.told (chronicle epoch patience acts).deeds

/-- **What is reported of an attempt**, and how it ends. -/
structure Accounted (epoch : Epoch) (patience : Duration) (acts : List (Clock × Act)) : Prop where
  /-- What is reported is read off what was taken up, one thing after another. -/
  reported_eq : reported epoch patience acts
    = (chronicle epoch patience acts).life.flatMap (Attempt.reportsOf epoch)
  /-- There is at most one ending, and nothing comes after it. -/
  oneEnding : OneEnding epoch (reported epoch patience acts)
  /-- Nothing is reported just as long as the request for a transport is not answered. -/
  nothing : reported epoch patience acts = [] ↔ ∀ t ∈ acts, t.2.isAnswer = false
  /-- A message is taken up when it arrives while there is a transport, and only then. -/
  heard : ∀ (t : Clock × Act) (message : Message),
    (chronicle epoch patience (acts ++ [t])).life
        = (chronicle epoch patience acts).life ++ [.incoming message]
      ↔ t.2 = .move (.incoming message)
        ∧ ∃ deadline, (chronicle epoch patience acts).line.attempt.stage = .live deadline
  /-- The frames that are reported are those of the texts that were taken up, in order. -/
  frames : (reported epoch patience acts).filterMap Input.frame?
    = ((chronicle epoch patience acts).life.filterMap Happening.text?).filterMap Wire.decode?
  /-- That the transport was closed is reported only if the server closed it. -/
  closed : .closed epoch ∈ reported epoch patience acts → ∃ t ∈ acts, t.2 = .move .hungUp
  /-- Silence is reported only if nothing at all was heard for as long as is put up with. -/
  stalled : .stalled epoch ∈ reported epoch patience acts →
    ∃ before since sign quiet now after,
      acts = before ++ (since, sign) :: (quiet ++ (now, .move .silence) :: after)
        ∧ (sign = .move (.answered none) ∨ sign.isSign = true)
        ∧ (∀ t ∈ quiet, t.2.isSign = false) ∧ since + patience.nanos ≤ now
  /-- An attempt that is over has reported how it ended, unless it was retired. -/
  ended : (chronicle epoch patience acts).line.attempt.stage = .over →
    (chronicle epoch patience acts).Ended epoch
  /-- A retired attempt is over when it has looked for something to send more often than
  there was something. -/
  drained : (chronicle epoch patience acts).line.retired = true →
    (chronicle epoch patience acts).line.attempt.stage ≠ .connecting →
    ∀ later : List (Clock × Act), (∀ t ∈ later, t.2.isGive = false) →
      (chronicle epoch patience acts).line.outbound.length < later.countP (·.2.isTurn) →
      (chronicle epoch patience (acts ++ later)).line.attempt.stage = .over

/-- **One attempt, one ending**, whatever the manager, the server and the transport do. -/
theorem one_ending (epoch : Epoch) (patience : Duration) (acts : List (Clock × Act)) :
    Accounted epoch patience acts := by
  have hsound := Chronicle.sound_run epoch patience acts
  have htold : reported epoch patience acts
      = Attempt.reports epoch (chronicle epoch patience acts).life := hsound.told_eq
  refine ⟨htold, ?_, ?_, fun t message => ?_, ?_, fun h => ?_, fun h => ?_, hsound.ended,
    fun hretired hstage later hgive hturns => ?_⟩
  · rw [htold]
    exact hsound.lived.oneEnding epoch
  · rw [htold]
    exact (hsound.lived.reports_eq_nil_iff epoch).trans
      (Chronicle.life_run_eq_nil_iff epoch patience acts)
  · rw [chronicle, Chronicle.run_concat]
    exact Chronicle.life_act_eq_incoming_iff _ t message
  · rw [htold]
    exact Attempt.frames_reports epoch _
  · obtain ⟨before, t, after, m, x, rfl, hw, hi⟩ := Chronicle.writes_of_mem_told h
    obtain rfl := Attempt.eq_hungUp_of_closed hi
    exact ⟨t, List.mem_append_right _ List.mem_cons_self, hw.act_eq_move rfl⟩
  · obtain ⟨later, t, after, m, x, rfl, hw, hi⟩ := Chronicle.writes_of_mem_told h
    obtain rfl := Attempt.eq_silence_of_stalled hi
    have ht : t.2 = .move .silence := hw.act_eq_move rfl
    obtain ⟨deadline, hlive, hdue⟩ := Attempt.due_of_heeds hw.heeds
    obtain ⟨before, since, sign, quiet, rfl, hsign, hquiet, rfl⟩ := Chronicle.quiet_run hlive
    refine ⟨before, since, sign, quiet, t.1, after, ?_, hsign, hquiet, hdue⟩
    rw [List.append_assoc, List.cons_append, ← ht]
  · show ((Chronicle.start epoch patience).run (acts ++ later)).line.attempt.stage = .over
    rw [Chronicle.run_append]
    exact Chronicle.Drains.run (.inr ⟨hretired, hstage, hturns⟩) hgive

/-- A retired attempt sends what it was given and closes its transport. -/
example : (chronicle 1 .zero [(0, .move (.answered none)), (0, .give "a"), (0, .retire),
      (0, .turn none), (0, .turn none), (0, .move .hungUp)]).deeds
    = [.report (.opened 1), .send "a", .close] := by decide

end Line

end LiveSync.Connection
