import LiveSync.Proofs.Connection.Lives
import LiveSync.Proofs.Link.Closing
import Mathlib.Data.List.Induction

/-!
# Lines

An attempt has two neighbours. The manager gives it texts to send and, when it wants
no more of it, retires it; the server and the transport do what they like. Neither
waits for the attempt, so a **line** is both: the attempt, and what the manager has
left for it to take up. Whatever the two neighbours do, in whatever order, is a list
of acts (`Line.Act`).

What an attempt is to be judged by is not in its state: it remembers neither what it
has taken up nor what it has done. Both are written down beside the line
(`Line.Chronicle`), and no act looks at them. One act writes down what was taken up
and what was done about it, or nothing at all (`Chronicle.act_cases`).

That these are the lines of a link is not a matter of course, since a link has all its
lines in one table, and what an attempt does is done to the whole link. All the same
each move of a link is the move of one line (`Link.moveLine_eq`), and every line that
a link ever has is the line of some chronicle (`Link.exists_chronicle`).
-/

namespace LiveSync.Connection

open Attempt (Deed Happening)
open Link (LineMove)

namespace Line

variable {line : Line} {now : Clock} {m : LineMove} {x : Happening}

/-! ### Moves of a line -/

/-- What a move gives an attempt to take up. What it sends is the next text, and that
it is retired it notices when there is none. -/
def happening? (line : Line) : LineMove → Option Happening
  | .answered failure => some (.answered failure)
  | .sendNext failure =>
    match line.attempt.stage, line.outbound with
    | .live _, text :: _ => some (.outbound text failure)
    | _, _ => none
  | .noticeRetired => if line.retired ∧ line.outbound = [] then some .retired else none
  | .incoming message => some (.incoming message)
  | .transportError error => some (.transportError error)
  | .hungUp => some .hungUp
  | .silence => some .silence

/-- **What is taken up** in a move. -/
def taken? (now : Clock) (line : Line) (m : LineMove) : Option Happening :=
  (line.happening? m).filter (line.attempt.heeds now)

/-- What is still to be sent when something has been taken up. -/
def left (line : Line) : Happening → List String
  | .outbound _ _ => line.outbound.tail
  | _ => line.outbound

/-- A line whose attempt has taken something up. -/
def after (now : Clock) (line : Line) (x : Happening) : Line :=
  { line with attempt := (line.attempt.step now x).1, outbound := line.left x }

/-- **A line moves**, and this is what its attempt does. -/
def move (now : Clock) (line : Line) (m : LineMove) : Line × List Deed :=
  match line.taken? now m with
  | some x => (line.after now x, (line.attempt.step now x).2)
  | none => (line, [])

/-- **What a move gives**, move by move. -/
inductive Gives (line : Line) : LineMove → Happening → Prop where
  | answered (failure : Option Failure) : Gives line (.answered failure) (.answered failure)
  | sendNext {deadline : Clock} {text : String} {rest : List String}
    (failure : Option Failure.Transport) (hstage : line.attempt.stage = .live deadline)
    (hqueue : line.outbound = text :: rest) :
    Gives line (.sendNext failure) (.outbound text failure)
  | noticeRetired (hretired : line.retired = true) (hqueue : line.outbound = []) :
    Gives line .noticeRetired .retired
  | incoming (message : Message) : Gives line (.incoming message) (.incoming message)
  | transportError (error : Failure.Transport) :
    Gives line (.transportError error) (.transportError error)
  | hungUp : Gives line .hungUp .hungUp
  | silence : Gives line .silence .silence

theorem happening?_eq_some_iff : line.happening? m = some x ↔ line.Gives m x := by
  constructor
  · intro h
    cases m with
    | answered failure => cases h; exact .answered failure
    | sendNext failure =>
      rw [happening?] at h
      split at h
      · rename_i hstage hqueue
        cases h
        exact .sendNext failure hstage hqueue
      · cases h
    | noticeRetired =>
      rw [happening?] at h
      split at h
      · rename_i hretired
        cases h
        exact .noticeRetired hretired.1 hretired.2
      · cases h
    | incoming message => cases h; exact .incoming message
    | transportError error => cases h; exact .transportError error
    | hungUp => cases h; exact .hungUp
    | silence => cases h; exact .silence
  · intro h
    cases h with
    | sendNext failure hstage hqueue => simp only [happening?, hstage, hqueue]
    | noticeRetired hretired hqueue => exact if_pos ⟨hretired, hqueue⟩
    | _ => rfl

/-- What is given to be sent is taken up. -/
theorem Gives.heeds_outbound {text : String} {failure : Option Failure.Transport}
    (h : line.Gives m (.outbound text failure)) (now : Clock) :
    line.attempt.heeds now (.outbound text failure) = true := by
  cases h with
  | sendNext failure hstage hqueue => exact Attempt.heeds_of_live hstage now _

end Line

namespace Link

variable {l : Link} {epoch : Epoch} {line : Line}

theorem setLine_self (h : l.lines.get? epoch = some line) (hrun : line.attempt.isRunning = true) :
    l.setLine epoch line = l := by
  rw [setLine, if_pos hrun, Table.insert_of_get? h]

theorem moveLine_of_get? (h : l.lines.get? epoch = some line) (now : Clock) (m : LineMove) :
    l.moveLine now epoch m = match line.happening? m with
      | some x => l.happen now epoch { line with outbound := line.left x } x
      | none => (l, []) := by
  unfold moveLine
  rw [h]
  cases m with
  | sendNext failure =>
    obtain ⟨⟨epoch', patience, stage⟩, outbound, retired⟩ := line
    cases stage <;> cases outbound <;> rfl
  | noticeRetired =>
    simp only [Line.happening?]
    split <;> rfl
  | _ => rfl

/-- **The moves of a link are moves of its lines**: the line is written, and what its
attempt does is done. -/
theorem moveLine_eq (h : l.lines.get? epoch = some line) (hrun : line.attempt.isRunning = true)
    (now : Clock) (m : LineMove) :
    l.moveLine now epoch m
      = (line.move now m).2.foldl (fun (s : Step) d => s.andThen (doDeed epoch · d))
          (l.setLine epoch (line.move now m).1, []) := by
  rw [moveLine_of_get? h]
  cases hx : line.happening? m with
  | none =>
    simp only [Line.move, Line.taken?, hx, Option.filter_none, List.foldl_nil, setLine_self h hrun]
  | some x =>
    by_cases hheeds : line.attempt.heeds now x = true
    · simp only [Line.move, Line.taken?, hx, Option.filter_some, if_pos hheeds]
      rfl
    · have hleft : line.left x = line.outbound := by
        cases x with
        | outbound text failure =>
          exact absurd ((Line.happening?_eq_some_iff.mp hx).heeds_outbound now) hheeds
        | _ => rfl
      simp only [Line.move, Line.taken?, hx, Option.filter_some, if_neg hheeds, hleft, happen,
        Attempt.step_of_not_heeds (Bool.eq_false_iff.mpr hheeds), List.foldl_nil]

end Link

namespace Line

variable {line : Line} {now : Clock} {m : LineMove} {x : Happening}

/-! ### Acts and chronicles -/

/-- **What can happen to a line.** -/
inductive Act where
  /-- The manager gives it a text to send. -/
  | give (text : String)
  /-- The manager will give it nothing more. -/
  | retire
  /-- The attempt looks for something to send, and perhaps fails to send it. -/
  | turn (failure : Option Failure.Transport)
  /-- Something moves it. -/
  | move (m : LineMove)
deriving DecidableEq, Repr

/-- Whether a text is given. -/
def Act.isGive : Act → Bool
  | .give _ => true
  | _ => false

/-- Whether the attempt looks for something to send. -/
def Act.isTurn : Act → Bool
  | .turn _ => true
  | _ => false

/-- Whether the request for a transport is answered. -/
def Act.isAnswer : Act → Bool
  | .move (.answered _) => true
  | _ => false

theorem Act.isAnswer_iff {act : Act} :
    act.isAnswer = true ↔ ∃ failure, act = .move (.answered failure) := by
  constructor
  · intro h
    cases act with
    | move m =>
      cases m with
      | answered failure => exact ⟨failure, rfl⟩
      | _ => cases h
    | _ => cases h
  · rintro ⟨failure, rfl⟩
    rfl

/-- Whether something is heard from the server. -/
def Act.isSign : Act → Bool
  | .move (.incoming _) | .move (.transportError _) => true
  | _ => false

theorem Act.isSign_iff {act : Act} :
    act.isSign = true
      ↔ (∃ message, act = .move (.incoming message))
        ∨ ∃ error, act = .move (.transportError error) := by
  constructor
  · intro h
    cases act with
    | move m =>
      cases m with
      | incoming message => exact .inl ⟨message, rfl⟩
      | transportError error => exact .inr ⟨error, rfl⟩
      | _ => cases h
    | _ => cases h
  · rintro (⟨message, rfl⟩ | ⟨error, rfl⟩) <;> rfl

/-- What the manager makes of a line. -/
def obey (line : Line) : Act → Line
  | .give text => { line with outbound := line.outbound ++ [text] }
  | .retire => { line with retired := true }
  | .turn _ | .move _ => line

/-- The move that a line makes. An attempt that looks for something to send finds the
next text, or that there is none. -/
def move? (line : Line) : Act → Option LineMove
  | .give _ | .retire => none
  | .turn failure => some (if line.outbound = [] then .noticeRetired else .sendNext failure)
  | .move m => some m

/-- The move in which something is taken up that is not found in the queue. -/
def moveOf? : Happening → Option LineMove
  | .answered failure => some (.answered failure)
  | .incoming message => some (.incoming message)
  | .transportError error => some (.transportError error)
  | .hungUp => some .hungUp
  | .silence => some .silence
  | .outbound _ _ | .retired => none

/-- What is taken up is found in the queue, or it is what happened. -/
theorem Gives.cases_move? {act : Act} (h : line.Gives m x) (hm : line.move? act = some m) :
    (act.isTurn = true ∧ act.isSign = x.isSign ∧ moveOf? x = none) ∨ act = .move m := by
  cases act with
  | give | retire => cases hm
  | turn failure =>
    rw [move?] at hm
    split at hm <;> cases hm <;> cases h <;> exact .inl ⟨rfl, rfl, rfl⟩
  | move m' => exact .inr (congrArg Act.move (Option.some.inj hm))

/-- **A line**, what its attempt has taken up, and what it has done. -/
structure Chronicle where
  line : Line
  life : List Happening
  deeds : List Deed

namespace Chronicle

/-- The chronicle of an attempt that has just asked for a transport. -/
def start (epoch : Epoch) (patience : Duration) : Chronicle :=
  ⟨⟨.start epoch patience, [], false⟩, [], []⟩

/-- **Something happens to a line.** -/
def act (c : Chronicle) (t : Clock × Act) : Chronicle :=
  match c.line.move? t.2 with
  | none => { c with line := c.line.obey t.2 }
  | some m =>
    { line := (c.line.move t.1 m).1
      life := c.life ++ (c.line.taken? t.1 m).toList
      deeds := c.deeds ++ (c.line.move t.1 m).2 }

/-- **Everything happens to a line.** -/
def run (c : Chronicle) (acts : List (Clock × Act)) : Chronicle := acts.foldl act c

theorem run_concat (c : Chronicle) (acts : List (Clock × Act)) (t : Clock × Act) :
    c.run (acts ++ [t]) = (c.run acts).act t := by
  rw [run, List.foldl_append]
  rfl

theorem run_append (c : Chronicle) (acts later : List (Clock × Act)) :
    c.run (acts ++ later) = (c.run acts).run later :=
  List.foldl_append ..

variable {c : Chronicle} {t : Clock × Act}

/-- **Something is written down**: what is taken up, and what is then done. -/
structure Writes (c : Chronicle) (t : Clock × Act) (m : LineMove) (x : Happening) : Prop where
  move : c.line.move? t.2 = some m
  gives : c.line.Gives m x
  heeds : c.line.attempt.heeds t.1 x = true
  act_eq : c.act t
    = ⟨c.line.after t.1 x, c.life ++ [x], c.deeds ++ (c.line.attempt.step t.1 x).2⟩

/-- **Nothing is written down**: the manager did something, or there was nothing that
the attempt would take up. -/
structure Skips (c : Chronicle) (t : Clock × Act) : Prop where
  not_heeds : ∀ m x, c.line.move? t.2 = some m → c.line.Gives m x →
    c.line.attempt.heeds t.1 x = false
  act_eq : c.act t = { c with line := c.line.obey t.2 }

variable {m : LineMove} {x : Happening}

theorem Writes.act_eq_move {m' : LineMove} (h : c.Writes t m x) (hx : moveOf? x = some m') :
    t.2 = .move m' := by
  have hgives := h.gives
  rcases hgives.cases_move? h.move with ⟨-, -, hnone⟩ | ht
  · cases hnone.symm.trans hx
  · rw [ht]
    cases hgives <;> cases hx <;> rfl

theorem Writes.isSign_eq (h : c.Writes t m x) : t.2.isSign = x.isSign := by
  have hgives := h.gives
  rcases hgives.cases_move? h.move with ⟨-, hsign, -⟩ | ht
  · exact hsign
  · rw [ht]
    cases hgives <;> rfl

theorem act_cases (c : Chronicle) (t : Clock × Act) : c.Skips t ∨ ∃ m x, c.Writes t m x := by
  cases hm : c.line.move? t.2 with
  | none =>
    refine .inl ⟨fun m x h => (Option.some_ne_none m (h.symm.trans hm)).elim, ?_⟩
    simp only [act, hm]
  | some m =>
    cases hx : c.line.taken? t.1 m with
    | none =>
      refine .inl ⟨fun m' x hm' hgives => ?_, ?_⟩
      · obtain rfl := Option.some.inj (hm.symm.trans hm')
        rw [taken?, happening?_eq_some_iff.mpr hgives, Option.filter_some] at hx
        simpa using hx
      · have hobey : c.line.obey t.2 = c.line := by
          cases ht : t.2 with
          | give | retire => rw [ht] at hm; cases hm
          | turn | move => rfl
        simp only [act, hm, Line.move, hx, hobey, Option.toList_none, List.append_nil]
    | some x =>
      obtain ⟨hhappening, hheeds⟩ := Option.filter_eq_some_iff.mp hx
      refine .inr ⟨m, x, hm, happening?_eq_some_iff.mp hhappening, hheeds, ?_⟩
      simp only [act, hm, Line.move, hx, Option.toList_some]

theorem attempt_obey (line : Line) (act : Act) : (line.obey act).attempt = line.attempt := by
  cases act <;> rfl

end Chronicle

/-- The chronicle of an attempt to which some things have happened. -/
def chronicle (epoch : Epoch) (patience : Duration) (acts : List (Clock × Act)) : Chronicle :=
  (Chronicle.start epoch patience).run acts

theorem chronicle_concat (epoch : Epoch) (patience : Duration) (acts : List (Clock × Act))
    (t : Clock × Act) :
    chronicle epoch patience (acts ++ [t]) = (chronicle epoch patience acts).act t :=
  Chronicle.run_concat ..

end Line

/-! ### The lines of a link -/

namespace Link

variable {l : Link} {epoch : Epoch} {line : Line}

/-- **The lines of a link are running**, and each is the line of a chronicle. -/
def Chronicled (l : Link) : Prop :=
  ∀ epoch line, l.lines.get? epoch = some line → line.attempt.isRunning = true
    ∧ ∃ patience acts, line = (Line.chronicle epoch patience acts).line

theorem Chronicled.of_lines {l' : Link} (h : l.Chronicled) (heq : l'.lines = l.lines) :
    l'.Chronicled := by
  unfold Chronicled
  rw [heq]
  exact h

theorem isRunning_of_get?_setLine {line' : Line}
    (h : (l.setLine epoch line).lines.get? epoch = some line') : line.attempt.isRunning = true := by
  unfold setLine at h
  split at h
  · assumption
  · cases (Table.get?_erase_self ..).symm.trans h

theorem Chronicled.setLine (h : l.Chronicled)
    (hline : ∃ patience acts, line = (Line.chronicle epoch patience acts).line) :
    (l.setLine epoch line).Chronicled := by
  intro e line' hget
  rcases get?_setLine hget with ⟨rfl, rfl⟩ | ⟨-, hold⟩
  · exact ⟨isRunning_of_get?_setLine hget, hline⟩
  · exact h e line' hold

/-- One more act. -/
theorem Chronicled.exists_act (h : l.Chronicled) (hget : l.lines.get? epoch = some line)
    (t : Clock × Line.Act) :
    ∃ c : Line.Chronicle, c.line = line ∧ ∃ patience acts,
      (c.act t).line = (Line.chronicle epoch patience acts).line := by
  obtain ⟨-, patience, acts, rfl⟩ := h epoch line hget
  exact ⟨_, rfl, patience, acts ++ [t], by rw [Line.chronicle_concat]⟩

theorem Chronicled.carryOut (h : l.Chronicled) (now : Clock) (o : Order) :
    (l.carryOut now o).1.Chronicled := by
  cases o with
  | openAttempt epoch => exact h.setLine ⟨l.patience, [], rfl⟩
  | transmit epoch frame =>
    dsimp only [Link.carryOut]
    split
    · rename_i line hget
      obtain ⟨c, rfl, hc⟩ := h.exists_act hget (now, .give (Wire.encode frame))
      exact h.setLine hc
    · exact h
  | retire epoch =>
    dsimp only [Link.carryOut]
    split
    · rename_i line hget
      obtain ⟨c, rfl, hc⟩ := h.exists_act hget (now, .retire)
      exact h.setLine hc
    · exact h
  | _ => exact h

theorem Chronicled.carryOutAll (h : l.Chronicled) (now : Clock) (orders : List Order) :
    (l.carryOutAll now orders).1.Chronicled := by
  unfold Link.carryOutAll
  induction orders using List.reverseRecOn with
  | nil => exact h
  | append_singleton orders o ih =>
    rw [List.foldl_append]
    exact ih.carryOut now o

theorem Chronicled.moveLine (h : l.Chronicled) (now : Clock) (epoch : Epoch) (m : LineMove) :
    (l.moveLine now epoch m).1.Chronicled := by
  cases hget : l.lines.get? epoch with
  | none =>
    unfold Link.moveLine
    rw [hget]
    exact h
  | some line =>
    rw [moveLine_eq hget (h epoch line hget).1]
    obtain ⟨c, rfl, hc⟩ := h.exists_act hget (now, .move m)
    exact (h.setLine hc).of_lines (lines_doDeeds _ _ _)

theorem Chronicled.step (h : l.Chronicled) (t : Moment) : (l.step t).1.Chronicled := by
  cases htakes : l.takes t.move with
  | some p =>
    obtain ⟨message, rest⟩ := p
    have hrest : Chronicled { rest with manager := (rest.manager.handle (l.sight t) message).1 } :=
      h.of_lines (takes_frame htakes).2.1
    have hcarried := hrest.carryOutAll t.now (rest.manager.handle (l.sight t) message).2
    rw [step_of_takes htakes]
    dsimp only [tell]
    split
    · exact hcarried.of_lines rfl
    · exact hcarried
  | none =>
    rcases idle_cases htakes with ⟨c, heq⟩ | ⟨epoch, m, heq⟩ | ⟨heq, -⟩
    · rw [heq]
      exact h.of_lines (lines_enqueue l c)
    · rw [heq]
      exact h.moveLine t.now epoch m
    · exact h.of_lines heq

/-- **Every line that a link ever has is the line of a chronicle.** -/
theorem exists_chronicle (config : Config) (hostActive : Bool) (moments : List Moment)
    (h : ((start config hostActive).run moments).1.lines.get? epoch = some line) :
    ∃ patience acts, line = (Line.chronicle epoch patience acts).line :=
  (run_induction (P := Chronicled) (fun _ _ hget => by cases hget) (fun _ t hl => hl.step t) moments
    epoch line h).2

end Link

end LiveSync.Connection
