import LiveSync.Connection.Attempt
import Mathlib.Data.List.Basic

/-!
# The life of an attempt

Three things may be ready at once for an attempt that has a transport: something to
be sent, something that arrives, and the deadline. Which of them it takes up is not
its choice, and what else was ready is forgotten. So the only account of an attempt
is what it did take up, one thing after another: its **life**.

Not every list of happenings is a life. It begins with the answer to the request for
a transport; and nothing comes after the server has closed the transport, after the
deadline, or after the attempt has been retired (`Attempt.Lived`). What an attempt
reports is read off its life, happening by happening (`Attempt.reports`), and so what
is true of the reports of all attempts is said of lives (`Lived.oneEnding`).
-/

namespace LiveSync.Connection

open LiveSync.Wire

/-- The frame that an input reports, if it reports one. -/
def Input.frame? : Input → Option ServerFrame
  | .frame _ content => some content
  | _ => none

namespace Attempt

variable {a : Attempt} {now deadline : Clock} {x : Happening} {epoch : Epoch} {i : Input}
  {stage : Stage} {life : List Happening}

/-- What is reported by a deed, if it is a report. -/
def Deed.report? : Deed → Option Input
  | .report input => some input
  | .send _ | .close => none

/-- **What is reported among what is done.** -/
def told (deeds : List Deed) : List Input := deeds.filterMap Deed.report?

theorem told_append (deeds deeds' : List Deed) :
    told (deeds ++ deeds') = told deeds ++ told deeds' :=
  List.filterMap_append ..

/-! ### Taking something up -/

/-- Whether something comes in the midst of a life. -/
def Happening.isMidst : Happening → Bool
  | .outbound _ _ | .incoming _ | .transportError _ => true
  | _ => false

/-- Whether something is the end of an attempt that has a transport. -/
def Happening.isEnd : Happening → Bool
  | .retired | .hungUp | .silence => true
  | _ => false

/-- Whether something is a sign of life of the server. -/
def Happening.isSign : Happening → Bool
  | .incoming _ | .transportError _ => true
  | _ => false

/-- **Whether an attempt takes something up.** An answer is taken up once; the deadline
is looked at only when it has come. -/
def heeds (a : Attempt) (now : Clock) (x : Happening) : Bool :=
  match a.stage, x with
  | .connecting, .answered _ => true
  | .connecting, _ => false
  | .live _, .answered _ => false
  | .live deadline, .silence => deadline ≤ now
  | .live _, _ => true
  | .over, _ => false

/-- What is reported of something that is taken up. -/
def reportsOf (epoch : Epoch) : Happening → List Input
  | .answered none => [.opened epoch]
  | .answered (some error) => [.openFailed epoch error]
  | .incoming (.text text) => ((decode? text).map (.frame epoch)).toList
  | .outbound _ (some error) | .transportError error => [.transportError epoch error]
  | .outbound _ none | .incoming .heartbeat | .retired => []
  | .hungUp => [.closed epoch]
  | .silence => [.stalled epoch]

/-- What does not fit changes nothing. -/
theorem step_of_not_heeds (h : a.heeds now x = false) : a.step now x = (a, []) := by
  obtain ⟨epoch, patience, stage⟩ := a
  cases stage with
  | connecting =>
    cases x with
    | answered => cases h
    | _ => rfl
  | live deadline =>
    cases x with
    | answered => rfl
    | silence => exact if_neg (of_decide_eq_false h)
    | _ => cases h
  | «over» => cases x <;> rfl

/-- An attempt that has no transport yet takes up the answer to its request only. -/
theorem heeds_of_connecting (h : a.stage = .connecting) :
    a.heeds now x = true ↔ ∃ failure, x = .answered failure := by
  unfold heeds
  rw [h]
  cases x with
  | answered failure => exact ⟨fun _ => ⟨failure, rfl⟩, fun _ => rfl⟩
  | _ => exact ⟨nofun, fun ⟨_, hx⟩ => nomatch hx⟩

/-- An attempt that has a transport takes up whatever comes, but no second answer, and
no deadline before its time. -/
theorem heeds_of_live (h : a.stage = .live deadline) (now : Clock) (x : Happening) :
    a.heeds now x = match x with
      | .answered _ => false
      | .silence => decide (deadline ≤ now)
      | _ => true := by
  unfold heeds
  rw [h]
  cases x <;> rfl

/-- An attempt that is over takes nothing up. -/
theorem heeds_of_over (h : a.stage = .over) (now : Clock) (x : Happening) :
    a.heeds now x = false := by
  unfold heeds
  rw [h]

/-- **What taking something up leads to.** -/
inductive TakesUp (a : Attempt) (now : Clock) : Happening → Attempt × List Deed → Prop where
  | refused (error : Failure) (h : a.stage = .connecting) :
    TakesUp a now (.answered (some error)) (a.ended, [.report (.openFailed a.epoch error)])
  | opened (h : a.stage = .connecting) :
    TakesUp a now (.answered none) (a.heard now, [.report (.opened a.epoch)])
  | sent {deadline : Clock} (text : String) (failure : Option Failure.Transport)
    (h : a.stage = .live deadline) :
    TakesUp a now (.outbound text failure) (a, sendDeeds a.epoch text failure)
  | received {deadline : Clock} (message : Message) (h : a.stage = .live deadline) :
    TakesUp a now (.incoming message) (a.heard now, reportOf a.epoch message)
  | failed {deadline : Clock} (error : Failure.Transport) (h : a.stage = .live deadline) :
    TakesUp a now (.transportError error)
      (a.heard now, [.report (.transportError a.epoch error)])
  | retired {deadline : Clock} (h : a.stage = .live deadline) :
    TakesUp a now .retired (a.ended, [.close])
  | hungUp {deadline : Clock} (h : a.stage = .live deadline) :
    TakesUp a now .hungUp (a.ended, [.report (.closed a.epoch)])
  | stalled {deadline : Clock} (h : a.stage = .live deadline) (hdue : deadline ≤ now) :
    TakesUp a now .silence (a.ended, [.report (.stalled a.epoch), .close])

theorem takesUp_step (h : a.heeds now x = true) : a.TakesUp now x (a.step now x) := by
  obtain ⟨epoch, patience, stage⟩ := a
  cases stage with
  | connecting =>
    obtain ⟨failure, rfl⟩ := (heeds_of_connecting rfl).mp h
    cases failure with
    | none => exact .opened rfl
    | some error => exact .refused error rfl
  | live deadline =>
    cases x with
    | answered => cases h
    | outbound text failure => exact .sent text failure rfl
    | retired => exact .retired rfl
    | incoming message => exact .received message rfl
    | transportError error => exact .failed error rfl
    | hungUp => exact .hungUp rfl
    | silence =>
      have hdue : deadline ≤ now := of_decide_eq_true h
      rw [show step ⟨epoch, patience, .live deadline⟩ now .silence = _ from if_pos hdue]
      exact .stalled rfl hdue
  | «over» => cases (heeds_of_over rfl now x).symm.trans h

/-- Silence is taken up when the deadline has come. -/
theorem due_of_heeds (h : a.heeds now .silence = true) :
    ∃ deadline, a.stage = .live deadline ∧ deadline ≤ now := by
  have htakes := takesUp_step h
  generalize a.step now .silence = s at htakes
  cases htakes with
  | stalled hlive hdue => exact ⟨_, hlive, hdue⟩

/-- An attempt keeps its epoch and its patience. -/
theorem step_frame (a : Attempt) (now : Clock) (x : Happening) :
    (a.step now x).1.epoch = a.epoch ∧ (a.step now x).1.patience = a.patience := by
  cases hheeds : a.heeds now x with
  | false => rw [step_of_not_heeds hheeds]; exact ⟨rfl, rfl⟩
  | true =>
    have htakes := takesUp_step hheeds
    generalize a.step now x = s at htakes ⊢
    cases htakes <;> exact ⟨rfl, rfl⟩

/-- **What is taken up is reported** as it should be. -/
theorem told_step (h : a.heeds now x = true) : told (a.step now x).2 = reportsOf a.epoch x := by
  have htakes := takesUp_step h
  generalize a.step now x = s at htakes ⊢
  cases htakes with
  | sent text failure => cases failure <;> rfl
  | received message =>
    cases message with
    | heartbeat => rfl
    | text text =>
      show told (reportOf a.epoch (.text text)) = ((decode? text).map (Input.frame a.epoch)).toList
      rw [reportOf]
      cases decode? text <;> rfl
  | _ => rfl

/-- An attempt that has been answered does not ask again. -/
theorem stage_step_ne_connecting (h : a.stage ≠ .connecting) (now : Clock) (x : Happening) :
    (a.step now x).1.stage ≠ .connecting := by
  cases hheeds : a.heeds now x with
  | false => rwa [step_of_not_heeds hheeds]
  | true =>
    have htakes := takesUp_step hheeds
    generalize a.step now x = s at htakes ⊢
    cases htakes with
    | refused _ hstage | opened hstage => exact absurd hstage h
    | sent => exact h
    | _ => exact nofun

/-- **Where a deadline comes from**: the transport was opened just now, or something was
heard, or else it was the deadline before. -/
theorem stage_step_eq_live (h : (a.step now x).1.stage = .live deadline) :
    (x = .answered none ∨ x.isSign = true) ∧ deadline = now + a.patience.nanos
      ∨ x.isSign = false ∧ a.stage = .live deadline := by
  cases hheeds : a.heeds now x with
  | false =>
    rw [step_of_not_heeds hheeds] at h
    -- with a transport every sign of life is taken up
    rw [heeds_of_live h] at hheeds
    refine .inr ⟨?_, h⟩
    cases x with
    | incoming | transportError => cases hheeds
    | _ => rfl
  | true =>
    have htakes := takesUp_step hheeds
    generalize a.step now x = s at htakes h
    cases htakes with
    | opened => exact .inl ⟨.inl rfl, (Stage.live.inj h).symm⟩
    | received | failed => exact .inl ⟨.inr rfl, (Stage.live.inj h).symm⟩
    | sent => exact .inr ⟨rfl, h⟩
    | _ => cases h

/-! ### Lives -/

/-- **A life**, and the stage that it has brought an attempt to. -/
inductive Lived : List Happening → Stage → Prop where
  | asked : Lived [] .connecting
  | refused (error : Failure) : Lived [.answered (some error)] .over
  | opened (deadline : Clock) : Lived [.answered none] (.live deadline)
  | midst {life : List Happening} {deadline : Clock} {x : Happening} (due : Clock)
    (hx : x.isMidst = true) (h : Lived life (.live deadline)) : Lived (life ++ [x]) (.live due)
  | ended {life : List Happening} {deadline : Clock} {x : Happening} (hx : x.isEnd = true)
    (h : Lived life (.live deadline)) : Lived (life ++ [x]) .over

/-- **A life goes on** by what is taken up. -/
theorem Lived.step (h : Lived life a.stage) (hx : a.heeds now x = true) :
    Lived (life ++ [x]) (a.step now x).1.stage := by
  have htakes := takesUp_step hx
  generalize a.step now x = s at htakes ⊢
  cases htakes with
  | refused error hstage =>
    rw [hstage] at h
    cases h
    exact .refused error
  | opened hstage =>
    rw [hstage] at h
    cases h
    exact .opened _
  | sent text failure hstage =>
    rw [hstage] at h
    show Lived _ a.stage
    rw [hstage]
    exact h.midst _ rfl
  | received _ hstage | failed _ hstage => exact (hstage ▸ h).midst _ rfl
  | retired hstage | hungUp hstage | stalled hstage => exact (hstage ▸ h).ended rfl

theorem Lived.eq_nil_iff (h : Lived life stage) : life = [] ↔ stage = .connecting := by
  cases h with
  | asked => exact ⟨fun _ => rfl, fun _ => rfl⟩
  | refused | opened => exact ⟨nofun, nofun⟩
  | midst | ended => exact ⟨fun hnil => (List.concat_ne_nil _ _ hnil).elim, nofun⟩

/-! ### What is reported of a life -/

/-- **What an attempt reports** of its life. -/
def reports (epoch : Epoch) (life : List Happening) : List Input := life.flatMap (reportsOf epoch)

theorem reports_concat (epoch : Epoch) (life : List Happening) (x : Happening) :
    reports epoch (life ++ [x]) = reports epoch life ++ reportsOf epoch x := by
  rw [reports, List.flatMap_append, List.flatMap_singleton]
  rfl

/-- The text that arrives, if one does. -/
def Happening.text? : Happening → Option String
  | .incoming (.text text) => some text
  | _ => none

/-- **The frames that are reported** are those that arrive as texts. -/
theorem frames_reports (epoch : Epoch) (life : List Happening) :
    (reports epoch life).filterMap Input.frame?
      = (life.filterMap Happening.text?).filterMap decode? := by
  have hone (x : Happening) :
      (reportsOf epoch x).filterMap Input.frame? = x.text?.toList.filterMap decode? := by
    cases x with
    | answered failure => cases failure <;> rfl
    | outbound text failure => cases failure <;> rfl
    | incoming message =>
      cases message with
      | heartbeat => rfl
      | text text =>
        show ((decode? text).map (Input.frame epoch)).toList.filterMap Input.frame?
          = [text].filterMap decode?
        cases hdecode : decode? text with
        | none => rw [List.filterMap_cons_none hdecode]; rfl
        | some frame => rw [List.filterMap_cons_some hdecode]; rfl
    | _ => rfl
  induction life with
  | nil => rfl
  | cons x life ih =>
    rw [List.filterMap_cons, reports, List.flatMap_cons, List.filterMap_append, hone, ← reports, ih,
      ← List.filterMap_append]
    cases x.text? <;> rfl

/-- **Whether an input comes in the midst** of a report: a frame, or an error that is not
the end. -/
def InMidst (epoch : Epoch) (i : Input) : Prop :=
  (∃ frame, i = .frame epoch frame) ∨ ∃ error, i = .transportError epoch error

theorem inMidst_of_mem_reportsOf (hx : x.isMidst = true) (h : i ∈ reportsOf epoch x) :
    InMidst epoch i := by
  cases x with
  | outbound text failure =>
    cases failure with
    | none => cases h
    | some error => exact .inr ⟨error, List.mem_singleton.mp h⟩
  | incoming message =>
    cases message with
    | heartbeat => cases h
    | text text =>
      obtain ⟨frame, -, hi⟩ := Option.map_eq_some_iff.mp (Option.mem_toList.mp h)
      exact .inl ⟨frame, hi.symm⟩
  | transportError error => exact .inr ⟨error, List.mem_singleton.mp h⟩
  | _ => cases hx

theorem eq_hungUp_of_closed {e : Epoch} (h : .closed e ∈ reportsOf epoch x) : x = .hungUp := by
  cases x with
  | hungUp => rfl
  | answered failure => cases failure <;> cases List.mem_singleton.mp h
  | outbound | incoming | transportError =>
    rcases inMidst_of_mem_reportsOf rfl h with ⟨_, hi⟩ | ⟨_, hi⟩ <;> cases hi
  | retired => cases h
  | silence => cases List.mem_singleton.mp h

theorem eq_silence_of_stalled {e : Epoch} (h : .stalled e ∈ reportsOf epoch x) : x = .silence := by
  cases x with
  | silence => rfl
  | answered failure => cases failure <;> cases List.mem_singleton.mp h
  | outbound | incoming | transportError =>
    rcases inMidst_of_mem_reportsOf rfl h with ⟨_, hi⟩ | ⟨_, hi⟩ <;> cases hi
  | retired => cases h
  | hungUp => cases List.mem_singleton.mp h

/-- **A report so far**: it begins with the transport's being open. -/
theorem Lived.reports_of_live (h : Lived life (.live deadline)) (epoch : Epoch) :
    ∃ middle, reports epoch life = .opened epoch :: middle ∧ ∀ i ∈ middle, InMidst epoch i := by
  generalize hstage : Stage.live deadline = stage at h
  induction h generalizing deadline with
  | asked | refused | ended => cases hstage
  | opened => exact ⟨[], rfl, nofun⟩
  | @midst life _ x _ hx h ih =>
    obtain ⟨middle, heq, hmiddle⟩ := ih rfl
    exact ⟨middle ++ reportsOf epoch x, by rw [reports_concat, heq, List.cons_append],
      List.forall_mem_append.mpr ⟨hmiddle, fun _ => inMidst_of_mem_reportsOf hx⟩⟩

/-- **At most one ending**: nothing is reported; or that there is no transport; or that
there is one, then what comes in the midst, and then perhaps how it ended. -/
inductive OneEnding (epoch : Epoch) : List Input → Prop where
  | nothing : OneEnding epoch []
  | refused (error : Failure) : OneEnding epoch [.openFailed epoch error]
  | opened {middle ending : List Input} (hmiddle : ∀ i ∈ middle, InMidst epoch i)
    (hending : ending = [] ∨ ending = [.closed epoch] ∨ ending = [.stalled epoch]) :
    OneEnding epoch (.opened epoch :: (middle ++ ending))

/-- **One attempt, one ending.** -/
theorem Lived.oneEnding (h : Lived life stage) (epoch : Epoch) :
    OneEnding epoch (reports epoch life) := by
  have hlive {deadline : Clock} (he : Lived life (.live deadline)) :
      OneEnding epoch (reports epoch life) := by
    obtain ⟨middle, heq, hmiddle⟩ := he.reports_of_live epoch
    rw [heq, ← List.append_nil middle]
    exact .opened hmiddle (.inl rfl)
  cases h with
  | asked => exact .nothing
  | refused error => exact .refused error
  | opened deadline => exact hlive (.opened deadline)
  | midst due hx h => exact hlive (h.midst due hx)
  | @ended life _ x hx h =>
    obtain ⟨middle, heq, hmiddle⟩ := h.reports_of_live epoch
    rw [reports_concat, heq]
    cases x with
    | retired => exact .opened hmiddle (.inl rfl)
    | hungUp => exact .opened hmiddle (.inr (.inl rfl))
    | silence => exact .opened hmiddle (.inr (.inr rfl))
    | _ => cases hx

/-- Nothing is reported of a life only before it has begun. -/
theorem Lived.reports_eq_nil_iff (h : Lived life stage) (epoch : Epoch) :
    reports epoch life = [] ↔ life = [] := by
  cases h with
  | asked => exact ⟨fun _ => rfl, fun _ => rfl⟩
  | refused | opened => exact ⟨nofun, nofun⟩
  | midst _ _ h | ended _ h =>
    obtain ⟨middle, heq, -⟩ := h.reports_of_live epoch
    rw [reports_concat, heq]
    exact ⟨nofun, fun hnil => (List.concat_ne_nil _ _ hnil).elim⟩

end Attempt

end LiveSync.Connection
