import LiveSync.Connection.Link
import LiveSync.Proofs.Manager.Attendance

/-!
# Moves of a link

A **run** of a link is a list of moments. At each moment one part of the
link moves, and which one is not restricted: users ask, the manager takes up
commands, inputs and the host, attempts move and timers fire in any order.
Inputs may also be reported out of the blue, true or not.

A moment at which the manager takes something up is the manager's own step,
with its orders carried out (`Link.step_of_takes`). At every other moment
the manager stays as it is and nobody is answered (`Link.Aside`), apart from
a user whose command comes too late. Everything that is said of runs rests
on this one distinction (`Link.step_cases`).
-/

namespace LiveSync.Connection.Link

open LiveSync.Wire

/-- **A move of a link.** -/
inductive Move where
  /-- A user asks for something. -/
  | ask (c : Command)
  /-- An input is reported, true or not. -/
  | hear (i : Input)
  | takeCommand
  | takeInput
  | takeHost (active : Bool)
  | line (epoch : Epoch) (move : LineMove)
  | handshakeTimer
  | retryTimer
deriving DecidableEq, Repr, Inhabited

/-- **A moment**: a move, and what the link sees of the client then. -/
structure Moment where
  now : Clock
  /-- The topics that somebody is interested in. -/
  topics : List Topic
  /-- Whether a caller still waits. -/
  waiting : CallId → Bool
  move : Move

/-- What the manager sees of its surroundings. -/
def sight (l : Link) (t : Moment) : Surroundings := l.surroundings t.topics t.waiting

/-- **What happens at a moment.** -/
def step (l : Link) (t : Moment) : Step :=
  match t.move with
  | .ask c => l.enqueue c
  | .hear i => (l.report i, [])
  | .takeCommand => l.takeCommand (l.sight t) t.now
  | .takeInput => l.takeInput (l.sight t) t.now
  | .takeHost active => l.takeHost (l.sight t) t.now active
  | .line epoch move => l.moveLine t.now epoch move
  | .handshakeTimer => (l.fireHandshake t.now, [])
  | .retryTimer => (l.fireRetry t.now, [])

/-- **A run.** -/
def run (l : Link) (moments : List Moment) : Step :=
  moments.foldl (fun s t => s.andThen (step · t)) (l, [])

/-- **What the manager takes up** in a move, and the link without it. -/
def takes (l : Link) : Move → Option (ManagerMessage × Link)
  | .takeCommand =>
    match l.commands with
    | c :: rest => some (.command c, { l with commands := rest })
    | [] => none
  | .takeInput =>
    match l.inputs with
    | i :: rest => some (.input i, { l with inputs := rest })
    | [] => none
  | .takeHost active => some (.host active, l)
  | .ask _ | .hear _ | .line _ _ | .handshakeTimer | .retryTimer => none

/-- **What the manager orders** at a moment. -/
def orders (l : Link) (t : Moment) : List Order :=
  match l.takes t.move with
  | some (message, _) => (l.manager.handle (l.sight t) message).2
  | none => []

/-- The answer that leaves the link, if it is one. -/
def Output.reply? : Output → Option Manager.Reply
  | .reply caller result => some (caller, result)
  | _ => none

/-- The answers among what leaves the link. -/
def replies (outputs : List Output) : List Manager.Reply := outputs.filterMap Output.reply?

theorem replies_append (outputs outputs' : List Output) :
    replies (outputs ++ outputs') = replies outputs ++ replies outputs' :=
  List.filterMap_append ..

variable {l l' rest : Link} {t : Moment} {message : ManagerMessage}

theorem run_concat (l : Link) (moments : List Moment) (t : Moment) :
    l.run (moments ++ [t]) = (l.run moments).andThen (step · t) := by
  rw [run, List.foldl_append]
  rfl

/-- **What holds after a moment holds after a run**, if a moment keeps it. -/
theorem run_induction {P : Link → Prop} (start : P l) (step : ∀ l t, P l → P (l.step t).1)
    (moments : List Moment) : P (l.run moments).1 := by
  induction moments using List.reverseRecOn with
  | nil => exact start
  | append_singleton moments t ih =>
    rw [run_concat]
    exact step _ t ih

/-! ### Carrying out orders -/

/-- **A step carries out orders**: the manager and the commands that wait
for it stay as they are, the callers are told what the orders say, and no
attempt comes up but those that the orders open. -/
structure CarriesOut (orders : List Order) (l : Link) (s : Step) : Prop where
  manager : s.1.manager = l.manager
  commands : s.1.commands = l.commands
  replies : replies s.2 = orders.filterMap Manager.reply?
  lines : ∀ epoch, s.1.lines.contains epoch = true →
    .openAttempt epoch ∈ orders ∨ l.lines.contains epoch = true

/-- **A step aside of the manager** carries out no order. -/
abbrev Aside (l : Link) (s : Step) : Prop := CarriesOut [] l s

theorem aside_refl (l : Link) : Aside l (l, []) := ⟨rfl, rfl, rfl, fun _ h => .inr h⟩

theorem CarriesOut.andThen {orders orders' : List Order} {s : Step} {f : Link → Step}
    (h : CarriesOut orders l s) (hf : CarriesOut orders' s.1 (f s.1)) :
    CarriesOut (orders ++ orders') l (s.andThen f) where
  manager := hf.manager.trans h.manager
  commands := hf.commands.trans h.commands
  replies := by
    rw [Step.andThen, replies_append, List.filterMap_append, h.replies, hf.replies]
  lines epoch he := by
    rcases hf.lines epoch he with ho | he
    · exact .inl (List.mem_append_right _ ho)
    · exact (h.lines epoch he).imp_left (List.mem_append_left _)

/-- An order that answers nobody may be carried out aside of the manager. -/
theorem CarriesOut.of_aside {o : Order} {s : Step} (ho : Manager.reply? o = none)
    (h : Aside l s) : CarriesOut [o] l s where
  manager := h.manager
  commands := h.commands
  replies := by
    rw [h.replies, List.filterMap_cons_none ho]
  lines epoch he := .inr ((h.lines epoch he).resolve_left nofun)

/-- A step aside after a change that the manager does not see. -/
theorem CarriesOut.after {orders : List Order} {s : Step} (h : CarriesOut orders l' s)
    (hl : Aside l (l', [])) : CarriesOut orders l s where
  manager := h.manager.trans hl.manager
  commands := h.commands.trans hl.commands
  replies := h.replies
  lines epoch he := (h.lines epoch he).imp_right fun he => (hl.lines epoch he).resolve_left nofun

theorem contains_setLine {epoch e : Epoch} {line : Line}
    (h : (l.setLine epoch line).lines.contains e = true) :
    e = epoch ∨ l.lines.contains e = true := by
  unfold setLine at h
  by_cases he : e = epoch
  · exact .inl he
  · refine .inr ?_
    split at h
    · simpa [Table.contains, Table.get?_insert_of_ne _ _ (Ne.symm he)] using h
    · simpa [Table.contains, Table.get?_erase_of_ne _ (Ne.symm he)] using h

/-- A line that is there is written. -/
theorem aside_setLine {epoch : Epoch} {line line' : Line} (h : l.lines.get? epoch = some line) :
    Aside l (l.setLine epoch line', []) where
  manager := rfl
  commands := rfl
  replies := rfl
  lines e he := by
    rcases contains_setLine he with rfl | he
    · rw [Table.contains, h]
      exact .inr rfl
    · exact .inr he

theorem carriesOut_carryOut (now : Clock) (l : Link) (o : Order) :
    CarriesOut [o] l (l.carryOut now o) := by
  cases o with
  | openAttempt epoch =>
    refine ⟨rfl, rfl, rfl, fun e he => (contains_setLine he).imp_left ?_⟩
    rintro rfl
    exact List.mem_singleton_self _
  | transmit epoch frame =>
    unfold carryOut
    dsimp only
    split
    · rename_i h
      exact .of_aside rfl (aside_setLine h)
    · exact .of_aside rfl (aside_refl l)
  | retire epoch =>
    unfold carryOut
    dsimp only
    split
    · rename_i h
      exact .of_aside rfl (aside_setLine h)
    · exact .of_aside rfl (aside_refl l)
  | _ => exact ⟨rfl, rfl, rfl, fun e he => .inr he⟩

theorem carriesOut_carryOutAll (now : Clock) (l : Link) (orders : List Order) :
    CarriesOut orders l (l.carryOutAll now orders) := by
  unfold carryOutAll
  induction orders using List.reverseRecOn with
  | nil => exact aside_refl l
  | append_singleton orders o ih =>
    rw [List.foldl_append]
    exact ih.andThen (f := (carryOut now · o)) (carriesOut_carryOut now _ o)

/-! ### Moments at which the manager does nothing -/

theorem aside_report (l : Link) (i : Input) : Aside l (l.report i, []) := by
  unfold report
  split
  · exact aside_refl l
  · exact ⟨rfl, rfl, rfl, fun _ h => .inr h⟩

theorem aside_doDeed (epoch : Epoch) (l : Link) (d : Attempt.Deed) :
    Aside l (doDeed epoch l d) := by
  cases d with
  | report i => exact aside_report l i
  | send text => exact ⟨rfl, rfl, rfl, fun _ h => .inr h⟩
  | close => exact ⟨rfl, rfl, rfl, fun _ h => .inr h⟩

theorem aside_doDeeds (epoch : Epoch) (l : Link) (deeds : List Attempt.Deed) :
    Aside l (deeds.foldl (fun s d => s.andThen (doDeed epoch · d)) (l, [])) := by
  induction deeds using List.reverseRecOn with
  | nil => exact aside_refl l
  | append_singleton deeds d ih =>
    rw [List.foldl_append]
    exact ih.andThen (f := (doDeed epoch · d)) (aside_doDeed epoch _ d)

theorem aside_happen {epoch : Epoch} {line line' : Line} (h : l.lines.get? epoch = some line)
    (now : Clock) (x : Attempt.Happening) : Aside l (l.happen now epoch line' x) :=
  (aside_doDeeds epoch _ _).after (aside_setLine h)

theorem aside_moveLine (now : Clock) (l : Link) (epoch : Epoch) (move : LineMove) :
    Aside l (l.moveLine now epoch move) := by
  unfold moveLine
  split
  · exact aside_refl l
  · rename_i line h
    cases move with
    | sendNext failure =>
      dsimp only
      split
      · exact aside_happen h now _
      · exact aside_refl l
    | noticeRetired =>
      dsimp only
      split
      · exact aside_happen h now _
      · exact aside_refl l
    | _ => exact aside_happen h now _

theorem aside_fireHandshake (now : Clock) (l : Link) : Aside l (l.fireHandshake now, []) := by
  unfold fireHandshake
  split
  · split
    · exact (aside_report { l with handshakeTimer := none } _).after
        ⟨rfl, rfl, rfl, fun _ h => .inr h⟩
    · exact aside_refl l
  · exact aside_refl l

theorem aside_fireRetry (now : Clock) (l : Link) : Aside l (l.fireRetry now, []) := by
  unfold fireRetry
  split
  · split
    · exact (aside_report { l with retryTimer := none } _).after
        ⟨rfl, rfl, rfl, fun _ h => .inr h⟩
    · exact aside_refl l
  · exact aside_refl l

/-! ### Moments at which the manager takes something up -/

/-- **The manager takes a message**: it takes its step, the callers get the
answers it orders, and, when it has stopped, also those whose commands
nobody will take up. No attempt comes up but one it opens. -/
structure Told (env : Surroundings) (message : ManagerMessage) (l : Link) (s : Step) : Prop where
  manager : s.1.manager = (l.manager.handle env message).1
  commands : s.1.commands
    = if (l.manager.handle env message).1.stopped then [] else l.commands
  replies : replies s.2 = (l.manager.handle env message).2.filterMap Manager.reply?
    ++ if (l.manager.handle env message).1.stopped then replies (unanswered l.commands) else []
  lines : ∀ epoch, s.1.lines.contains epoch = true →
    .openAttempt epoch ∈ (l.manager.handle env message).2 ∨ l.lines.contains epoch = true

theorem told_tell (env : Surroundings) (now : Clock) (l : Link) (message : ManagerMessage) :
    Told env message l (tell env now l message) := by
  have h := carriesOut_carryOutAll now { l with manager := (l.manager.handle env message).1 }
    (l.manager.handle env message).2
  by_cases hs : (l.manager.handle env message).1.stopped
  · simp only [tell, if_pos hs]
    refine ⟨h.manager, (if_pos hs).symm, ?_, h.lines⟩
    rw [replies_append, h.replies, h.commands, if_pos hs]
  · simp only [tell, if_neg hs]
    refine ⟨h.manager, h.commands.trans (if_neg hs).symm, ?_, h.lines⟩
    rw [h.replies, if_neg hs, List.append_nil]

/-! ### All moments -/

/-- What the link is without what the manager takes up. -/
theorem takes_frame {move : Move} (h : l.takes move = some (message, rest)) :
    rest.manager = l.manager ∧ rest.lines = l.lines
      ∧ l.commands = message.command?.toList ++ rest.commands := by
  cases move with
  | takeCommand =>
    simp only [takes] at h
    split at h
    · rename_i hc
      cases h
      exact ⟨rfl, rfl, hc⟩
    · cases h
  | takeInput =>
    simp only [takes] at h
    split at h
    · cases h
      exact ⟨rfl, rfl, rfl⟩
    · cases h
  | takeHost active =>
    cases h
    exact ⟨rfl, rfl, rfl⟩
  | _ => cases h

theorem step_of_takes (h : l.takes t.move = some (message, rest)) :
    l.step t = tell (l.sight t) t.now rest message := by
  obtain ⟨now, topics, waiting, move⟩ := t
  cases move with
  | takeCommand =>
    simp only [takes] at h
    split at h
    · rename_i hc
      cases h
      simp only [step, Link.takeCommand, hc]
    · cases h
  | takeInput =>
    simp only [takes] at h
    split at h
    · rename_i hi
      cases h
      simp only [step, Link.takeInput, hi]
    · cases h
  | takeHost active =>
    cases h
    rfl
  | _ => cases h

/-- **What can happen at a moment**: a user asks, the manager takes something
up, or something happens aside of it. -/
theorem step_cases (l : Link) (t : Moment) :
    (∃ c, t.move = .ask c ∧ l.step t = l.enqueue c)
      ∨ (∃ message rest, l.takes t.move = some (message, rest)
        ∧ l.step t = tell (l.sight t) t.now rest message)
      ∨ (l.takes t.move = none ∧ (∀ c, t.move ≠ .ask c) ∧ Aside l (l.step t)) := by
  cases htakes : l.takes t.move with
  | some p => exact .inr (.inl ⟨p.1, p.2, rfl, step_of_takes htakes⟩)
  | none =>
    obtain ⟨now, topics, waiting, move⟩ := t
    cases move with
    | ask c => exact .inl ⟨c, rfl, rfl⟩
    | hear i => exact .inr (.inr ⟨rfl, nofun, aside_report l i⟩)
    | takeCommand =>
      refine .inr (.inr ⟨rfl, nofun, ?_⟩)
      simp only [takes] at htakes
      split at htakes
      · cases htakes
      · rename_i hc
        simp only [step, Link.takeCommand, hc]
        exact aside_refl l
    | takeInput =>
      refine .inr (.inr ⟨rfl, nofun, ?_⟩)
      simp only [takes] at htakes
      split at htakes
      · cases htakes
      · rename_i hi
        simp only [step, Link.takeInput, hi]
        exact aside_refl l
    | takeHost active => cases htakes
    | line epoch move => exact .inr (.inr ⟨rfl, nofun, aside_moveLine now l epoch move⟩)
    | handshakeTimer => exact .inr (.inr ⟨rfl, nofun, aside_fireHandshake now l⟩)
    | retryTimer => exact .inr (.inr ⟨rfl, nofun, aside_fireRetry now l⟩)

theorem manager_enqueue (l : Link) (c : Command) : (l.enqueue c).1.manager = l.manager := by
  unfold enqueue
  split <;> rfl

/-- The manager stays as it is while it takes nothing up. -/
theorem manager_step (hnone : l.takes t.move = none) : (l.step t).1.manager = l.manager := by
  rcases step_cases l t with ⟨c, -, heq⟩ | ⟨message, rest, htakes, -⟩ | ⟨-, -, haside⟩
  · rw [heq]
    exact manager_enqueue l c
  · cases hnone.symm.trans htakes
  · exact haside.manager

/-- What the manager takes up makes the next manager. -/
theorem manager_step_of_takes (htakes : l.takes t.move = some (message, rest)) :
    (l.step t).1.manager = (l.manager.handle (l.sight t) message).1 := by
  rw [step_of_takes htakes, (told_tell ..).manager, (takes_frame htakes).1]

end LiveSync.Connection.Link
