import LiveSync.Proofs.Connection.Course

/-!
# The discipline of attempts

Whoever carries out the effects of a connection's life relies on a few
plain facts about their order (`Disciplined`). Attempts are opened and end
by turns, each with a greater epoch than the one before. What concerns an
attempt is asked for while it is under way. The server is greeted at most
once in an attempt and before anything else is heard of it, an attempt is
established at most once, and a handshake timer that was started is stopped
exactly once, before the handshake is done or the attempt has ended.

Each of these facts is one about the automaton that reads the trace
(`Course.Next`), and is proved by reading one effect after the other. They
hold of every run because the automaton reads the trace of every run.
-/

namespace LiveSync.Connection

/-! ### What an effect says about attempts -/

namespace Effect

/-- Whether an attempt begins or ends. -/
def isBoundary : Effect → Bool
  | .open _ | .attemptEnded _ => true
  | _ => false

/-- The attempt that has to be under way. -/
def attempt? : Effect → Option Epoch
  | .send e _ | .startHandshakeTimer e _ | .close e | .established e _ => some e
  | _ => none

/-- The attempt under way after an effect. -/
def nextAttempt (current : Option Epoch) : Effect → Option Epoch
  | .open e => some e
  | .attemptEnded _ => none
  | _ => current

/-- Whether something is sent on an attempt. -/
def sendsOn (e : Epoch) : Effect → Bool
  | .send e' _ => e' = e
  | _ => false

/-- Whether an attempt becomes established. -/
def establishes (e : Epoch) : Effect → Bool
  | .established e' _ => e' = e
  | _ => false

/-- Whether the server of an attempt has been heard. -/
def isHeard : Effect → Bool
  | .deliver _ | .established _ _ => true
  | _ => false

/-- Whether the handshake of an attempt is over: it is done, or the attempt
has ended. -/
def settles (e : Epoch) : Effect → Bool
  | .established e' _ | .attemptEnded e' => e' = e
  | _ => false

/-- What does not concern the attempt under way says nothing about it. -/
theorem of_isAside {x : Effect} (h : x.isAside = true) :
    x.isBoundary = false ∧ x.attempt? = none ∧ x.isHeard = false ∧
      ∀ e, x.sendsOn e = false ∧ x.establishes e = false ∧ x.settles e = false := by
  cases x <;> first | exact ⟨rfl, rfl, rfl, fun _ => ⟨rfl, rfl, rfl⟩⟩ | nomatch h

end Effect

/-- The attempt under way after effects. -/
def attemptAfter (trace : List Effect) : Option Epoch := trace.foldl Effect.nextAttempt none

/-- **The discipline of attempts.** -/
structure Disciplined (trace : List Effect) : Prop where
  /-- Attempts are opened and end by turns, with growing epochs. -/
  alternates : ∃ epochs : List Epoch, epochs.Pairwise (· < ·) ∧
    trace.filter Effect.isBoundary <+: epochs.flatMap fun e => [.open e, .attemptEnded e]
  /-- What concerns an attempt is asked for while that attempt is under way. -/
  current : ∀ past x rest e, trace = past ++ x :: rest → x.attempt? = some e →
    attemptAfter past = some e
  /-- Frames are handed on only while an attempt is under way. -/
  delivers : ∀ past frame rest, trace = past ++ .deliver frame :: rest →
    attemptAfter past ≠ none
  /-- Nothing but `hello` is sent. -/
  greets : ∀ e frame, .send e frame ∈ trace → ∃ protocol, frame = .hello protocol
  /-- There is at most one `hello` on each attempt. -/
  greets_once : ∀ e, trace.countP (·.sendsOn e) ≤ 1
  /-- An attempt has sent `hello` before the server is heard on it. -/
  greets_first : ∀ past x rest, trace = past ++ x :: rest → x.isHeard = true →
    ∃ e protocol, attemptAfter past = some e ∧ .send e (.hello protocol) ∈ past
  /-- An attempt becomes established at most once. -/
  establishes_once : ∀ e, trace.countP (·.establishes e) ≤ 1
  /-- From the start of a handshake timer to the end of the handshake the
  timer is cancelled exactly once. -/
  cancels_once : ∀ past e timeout between x rest,
    trace = past ++ .startHandshakeTimer e timeout :: (between ++ x :: rest) →
    x.settles e = true → (∀ y ∈ between, y.settles e = false) →
    between.count .cancelHandshakeTimer = 1
  /-- A handshake timer is cancelled at no other time. -/
  cancels_inside : ∀ past rest, trace = past ++ .cancelHandshakeTimer :: rest →
    ∃ past' e timeout before after x rest',
      past = past' ++ .startHandshakeTimer e timeout :: before ∧ rest = after ++ x :: rest' ∧
      x.settles e = true ∧ ∀ y ∈ before ++ after, y.settles e = false

namespace Course

variable {c c' d d' : Course} {x : Effect} {past effects : List Effect}

/-! ### Attempts by turns -/

/-- What an effect means for the begin and the end of attempts. -/
theorem Next.boundary (h : Next d x d') :
    (∃ e, x = .open e ∧ d.stage = .over ∧ d.epoch < e ∧ d' = ⟨e, .opened⟩)
      ∨ (x = .attemptEnded d.epoch ∧ d.stage ≠ .over ∧ d' = ⟨d.epoch, .over⟩)
      ∨ (x.isBoundary = false ∧ d'.epoch = d.epoch ∧ (d'.stage = .over ↔ d.stage = .over)) := by
  cases h with
  | @opening last e hlt => exact .inl ⟨e, rfl, rfl, hlt, rfl⟩
  | @ending e s hs =>
    refine .inr (.inl ⟨rfl, ?_, rfl⟩)
    rintro rfl
    simp at hs
  | greeting | timer | settling | establishing | closing | cancelling =>
    exact .inr (.inr ⟨rfl, rfl, nofun, nofun⟩)
  | delivery => exact .inr (.inr ⟨rfl, rfl, Iff.rfl⟩)
  | closed hs =>
    refine .inr (.inr ⟨rfl, rfl, nofun, ?_⟩)
    rintro rfl
    simp at hs
  | aside ha => exact .inr (.inr ⟨(Effect.of_isAside ha).1, rfl, Iff.rfl⟩)

theorem Next.epoch_le (h : Next d x d') : d.epoch ≤ d'.epoch := by
  rcases h.boundary with ⟨e, -, -, hlt, rfl⟩ | ⟨-, -, rfl⟩ | ⟨-, he, -⟩
  · exact Nat.le_of_lt hlt
  · exact Nat.le_refl _
  · exact Nat.le_of_eq he.symm

/-- The attempt under way, if there is one. -/
def live (c : Course) : List Epoch := if c.stage = .over then [] else [c.epoch]

theorem live_congr (he : d'.epoch = d.epoch) (hs : d'.stage = .over ↔ d.stage = .over) :
    d'.live = d.live := by
  rw [live, live, he]
  simp only [hs]

theorem live_of_ne (h : c.stage ≠ .over) : c.live = [c.epoch] := if_neg h

theorem live_of_eq (h : c.stage = .over) : c.live = [] := if_pos h

/-- **The attempts of a trace**: those that have ended, and the one under
way. -/
theorem Reads.boundaries (h : Reads start past c) :
    ∃ ended : List Epoch, (ended ++ c.live).Pairwise (· < ·) ∧ (∀ e ∈ ended, e ≤ c.epoch) ∧
      past.filter Effect.isBoundary
        = ended.flatMap (fun e => [.open e, .attemptEnded e]) ++ c.live.map .open := by
  induction h using Reads.induction with
  | start => exact ⟨[], .nil, nofun, rfl⟩
  | @next past d x d' _ hx ih =>
    obtain ⟨ended, hsorted, hle, hfilter⟩ := ih
    rw [List.filter_append, hfilter]
    rcases hx.boundary with ⟨e, rfl, hover, hlt, rfl⟩ | ⟨rfl, hne, rfl⟩ | ⟨hno, he, hs⟩
    · -- nothing is under way, so all attempts before have ended
      rw [live_of_eq hover] at hsorted ⊢
      rw [List.append_nil] at hsorted
      refine ⟨ended, ?_, fun y hy => Nat.le_trans (hle y hy) (Nat.le_of_lt hlt), ?_⟩
      · exact List.pairwise_append.mpr ⟨hsorted, List.pairwise_singleton _ _,
          fun y hy z hz => List.mem_singleton.mp hz ▸ Nat.lt_of_le_of_lt (hle y hy) hlt⟩
      · simp [live, Effect.isBoundary]
    · rw [live_of_ne hne] at hsorted ⊢
      refine ⟨ended ++ [d.epoch], by simpa [live] using hsorted, fun y hy => ?_, ?_⟩
      · rcases List.mem_append.mp hy with hy | hy
        · exact hle y hy
        · exact Nat.le_of_eq (List.mem_singleton.mp hy)
      · simp [live, Effect.isBoundary]
    · rw [live_congr he hs, he]
      exact ⟨ended, hsorted, hle, by simp [hno]⟩

/-- An attempt under way was opened and has not ended. -/
theorem Reads.underWay (h : Reads start past c) (hs : c.stage ≠ .over) :
    .open c.epoch ∈ past ∧ .attemptEnded c.epoch ∉ past := by
  obtain ⟨ended, hsorted, -, hfilter⟩ := h.boundaries
  rw [live_of_ne hs] at hsorted hfilter
  have hmem {x : Effect} (hx : x.isBoundary = true) :
      x ∈ past ↔ x ∈ ended.flatMap (fun e => [.open e, .attemptEnded e]) ++ [.open c.epoch] := by
    rw [← List.map_singleton, ← hfilter, List.mem_filter, and_iff_left hx]
  refine ⟨(hmem rfl).mpr (by simp), fun hend => ?_⟩
  have hin : c.epoch ∈ ended := by simpa using (hmem rfl).mp hend
  exact Nat.lt_irrefl _ ((List.pairwise_append.mp hsorted).2.2 _ hin _ (List.mem_singleton_self _))

/-- The attempt under way is the one that was opened last, until it ends. -/
theorem Reads.attemptAfter_eq (h : Reads start past c) :
    attemptAfter past = if c.stage = .over then none else some c.epoch := by
  induction h using Reads.induction with
  | start => rfl
  | @next past d x d' _ hx ih =>
    rw [attemptAfter, List.foldl_append, ← attemptAfter, ih, List.foldl_cons, List.foldl_nil]
    rcases hx.boundary with ⟨e, rfl, -, -, rfl⟩ | ⟨rfl, -, rfl⟩ | ⟨hno, he, hs⟩
    · rfl
    · rfl
    · simp only [he, hs]
      cases x <;> first | rfl | nomatch hno

/-- What concerns an attempt may only come while it is under way. -/
theorem Next.attempt?_eq {e : Epoch} (h : Next d x d') (hx : x.attempt? = some e) :
    d.stage ≠ .over ∧ d.epoch = e := by
  cases h with
  | greeting | timer | establishing | closing => exact ⟨nofun, Option.some.inj hx⟩
  | closed hs =>
    refine ⟨?_, Option.some.inj hx⟩
    rintro rfl
    simp at hs
  | aside ha => exact absurd ((Effect.of_isAside ha).2.1.symm.trans hx) nofun
  | opening | settling | delivery | cancelling | ending => cases hx

/-! ### Once in an attempt -/

/-- **What happens at most once in an attempt happens at most once with its
epoch.** It may happen only in some of the stages, it leads out of them, and
only a new attempt leads back. -/
theorem Reads.countP_le_one (q : Epoch → Effect → Bool) (before : Stage → Prop)
    (own : ∀ {d x d' e}, Next d x d' → q e x = true →
      d.epoch = e ∧ d'.epoch = e ∧ before d.stage ∧ ¬ before d'.stage)
    (back : ∀ {d x d'}, Next d x d' → before d'.stage →
      d.epoch < d'.epoch ∨ d.epoch = d'.epoch ∧ before d.stage)
    (h : Reads start past c) (e : Epoch) : past.countP (q e) ≤ 1 := by
  -- later attempts have not happened, and the latest one has none before its turn
  suffices hall : (∀ e, past.countP (q e) ≤ 1)
      ∧ (∀ e, c.epoch < e → past.countP (q e) = 0)
      ∧ (before c.stage → past.countP (q c.epoch) = 0) from hall.1 e
  induction h using Reads.induction with
  | start => exact ⟨fun _ => Nat.zero_le 1, fun _ _ => rfl, fun _ => rfl⟩
  | @next past d x d' _ hx ih =>
    obtain ⟨hle, hlater, hbefore⟩ := ih
    have hcount (e : Epoch) :
        (past ++ [x]).countP (q e) = past.countP (q e) + if q e x then 1 else 0 := by
      rw [List.countP_append, List.countP_singleton]
    refine ⟨fun e => ?_, fun e he => ?_, fun hb => ?_⟩
    · rw [hcount]
      split
      · rename_i hq
        obtain ⟨rfl, -, hb, -⟩ := own hx hq
        exact Nat.le_of_eq (by rw [hbefore hb])
      · exact hle e
    · have hlt : d.epoch < e := Nat.lt_of_le_of_lt hx.epoch_le he
      rw [hcount, if_neg fun hq => Nat.ne_of_lt hlt (own hx hq).1, hlater e hlt]
    · rw [hcount, if_neg fun hq => (own hx hq).2.2.2 hb, Nat.add_zero]
      rcases back hx hb with hlt | ⟨he, hb⟩
      · exact hlater _ hlt
      · exact he ▸ hbefore hb

theorem Reads.countP_sendsOn_le (h : Reads start past c) (e : Epoch) :
    past.countP (·.sendsOn e) ≤ 1 := by
  refine h.countP_le_one Effect.sendsOn (· = .opened) ?_ ?_ e
  · intro d x d' e hx hq
    cases hx with
    | greeting => exact ⟨of_decide_eq_true hq, of_decide_eq_true hq, rfl, nofun⟩
    | aside ha => exact absurd (((Effect.of_isAside ha).2.2.2 e).1.symm.trans hq) nofun
    | opening | timer | settling | establishing | delivery | closing | closed | cancelling
    | ending => cases hq
  · intro d x d' hx hb
    cases hx with
    | opening hlt => exact .inl hlt
    | delivery hs => exact .inr ⟨rfl, hb⟩
    | aside => exact .inr ⟨rfl, hb⟩
    | greeting | timer | settling | establishing | closing | closed | cancelling | ending =>
      cases hb

theorem Reads.countP_establishes_le (h : Reads start past c) (e : Epoch) :
    past.countP (·.establishes e) ≤ 1 := by
  refine h.countP_le_one Effect.establishes
    (fun s => s = .opened ∨ s = .greeted ∨ s = .handshaking ∨ s = .settling) ?_ ?_ e
  · intro d x d' e hx hq
    cases hx with
    | establishing =>
      exact ⟨of_decide_eq_true hq, of_decide_eq_true hq, .inr (.inr (.inr rfl)), by simp⟩
    | aside ha => exact absurd (((Effect.of_isAside ha).2.2.2 e).2.1.symm.trans hq) nofun
    | opening | greeting | timer | settling | delivery | closing | closed | cancelling
    | ending => cases hq
  · intro d x d' hx hb
    cases hx with
    | opening hlt => exact .inl hlt
    | greeting => exact .inr ⟨rfl, .inl rfl⟩
    | timer => exact .inr ⟨rfl, .inr (.inl rfl)⟩
    | settling => exact .inr ⟨rfl, .inr (.inr (.inl rfl))⟩
    | delivery => exact .inr ⟨rfl, hb⟩
    | aside => exact .inr ⟨rfl, hb⟩
    | establishing | closing | closed | cancelling | ending => simp at hb

/-! ### Greetings -/

/-- The stages of an attempt that has greeted the server and was not closed. -/
def Greeted (s : Stage) : Prop :=
  s = .greeted ∨ s = .handshaking ∨ s = .settling ∨ s = .established

/-- An attempt gets to these stages by greeting the server. -/
theorem Reads.greeted (h : Reads start past c) (hs : Greeted c.stage) :
    ∃ protocol, .send c.epoch (.hello protocol) ∈ past := by
  induction h using Reads.induction with
  | start => simp [Greeted, Course.start] at hs
  | @next past d x d' _ hx ih =>
    have keep (he : d'.epoch = d.epoch) (hd : Greeted d.stage) :
        ∃ protocol, .send d'.epoch (.hello protocol) ∈ past ++ [x] := by
      obtain ⟨protocol, hmem⟩ := ih hd
      exact ⟨protocol, he ▸ List.mem_append_left _ hmem⟩
    cases hx with
    | @greeting e protocol => exact ⟨protocol, List.mem_append_right _ (List.mem_singleton_self _)⟩
    | timer => exact keep rfl (.inl rfl)
    | settling => exact keep rfl (.inr (.inl rfl))
    | establishing => exact keep rfl (.inr (.inr (.inl rfl)))
    | delivery | aside => exact keep rfl hs
    | opening | closing | closed | cancelling | ending => simp [Greeted] at hs

theorem Next.greeted_of_isHeard (h : Next d x d') (hx : x.isHeard = true) : Greeted d.stage := by
  cases h with
  | establishing => exact .inr (.inr (.inl rfl))
  | delivery hs =>
    rcases hs with rfl | rfl
    · exact .inr (.inl rfl)
    · exact .inr (.inr (.inr rfl))
  | aside ha => exact absurd ((Effect.of_isAside ha).2.2.1.symm.trans hx) nofun
  | opening | greeting | timer | settling | closing | closed | cancelling | ending => cases hx

theorem Greeted.ne_over {s : Stage} (h : Greeted s) : s ≠ .over := by
  rintro rfl
  simp [Greeted] at h

/-- Nothing but `hello` may be sent. -/
theorem Next.hello {e : Epoch} {frame : Wire.ClientFrame} (h : Next d (.send e frame) d') :
    ∃ protocol, frame = .hello protocol := by
  cases h with
  | @greeting _ protocol => exact ⟨protocol, rfl⟩
  | aside ha => nomatch ha

/-! ### The handshake timer -/

/-- While the handshake of an attempt goes on, its timer runs and was not
cancelled, or was cancelled once. -/
def TimerAt (e : Epoch) (effects : List Effect) (c : Course) : Prop :=
  c.epoch = e ∧
    ((c.stage = .handshaking ∨ c.stage = .closing) ∧ effects.count .cancelHandshakeTimer = 0
      ∨ (c.stage = .settling ∨ c.stage = .closed) ∧ effects.count .cancelHandshakeTimer = 1)

theorem Reads.timerAt {e : Epoch} (h : Reads ⟨e, .handshaking⟩ effects c)
    (hs : ∀ y ∈ effects, y.settles e = false) : TimerAt e effects c := by
  induction h using Reads.induction with
  | start => exact ⟨rfl, .inl ⟨.inl rfl, rfl⟩⟩
  | @next past d x d' _ hx ih =>
    rw [List.forall_mem_append, List.forall_mem_singleton] at hs
    obtain ⟨he, hstage⟩ := ih hs.1
    have hcount : (past ++ [x]).count .cancelHandshakeTimer
        = past.count .cancelHandshakeTimer + if x = .cancelHandshakeTimer then 1 else 0 := by
      rw [List.count_append, List.count_singleton]
      simp
    rw [TimerAt, hcount]
    cases hx with
    | settling => exact ⟨he, .inr ⟨.inl rfl, by simpa using hstage⟩⟩
    | cancelling => exact ⟨he, .inr ⟨.inr rfl, by simpa using hstage⟩⟩
    | closing => exact ⟨he, .inl ⟨.inr rfl, by simpa using hstage⟩⟩
    | delivery => exact ⟨he, by simpa using hstage⟩
    | aside ha =>
      have hne : x ≠ .cancelHandshakeTimer := by
        rintro rfl
        cases ha
      rw [if_neg hne]
      exact ⟨he, hstage⟩
    | establishing => exact absurd (decide_eq_true he) (Bool.eq_false_iff.mp hs.2)
    | ending => exact absurd (decide_eq_true he) (Bool.eq_false_iff.mp hs.2)
    | closed hc => rcases hc with rfl | rfl <;> simp at hstage
    | opening | greeting | timer => simp at hstage

/-- The handshake of an attempt ends only when its timer does not run. -/
theorem Next.stage_of_settles {e : Epoch} (h : Next d x d') (hx : x.settles e = true) :
    d.stage ≠ .handshaking ∧ d.stage ≠ .closing := by
  cases h with
  | establishing => exact ⟨nofun, nofun⟩
  | ending hs => constructor <;> rintro rfl <;> simp at hs
  | aside ha => exact absurd (((Effect.of_isAside ha).2.2.2 e).2.2.symm.trans hx) nofun
  | opening | greeting | timer | settling | delivery | closing | closed | cancelling => cases hx

/-- A running handshake timer was started, and the handshake has not been
over since. -/
theorem Reads.started (h : Reads start past c) (hs : c.stage = .handshaking ∨ c.stage = .closing) :
    ∃ past' timeout before, past = past' ++ .startHandshakeTimer c.epoch timeout :: before ∧
      ∀ y ∈ before, y.settles c.epoch = false := by
  induction h using Reads.induction with
  | start => simp [Course.start] at hs
  | @next past d x d' _ hx ih =>
    have keep (he : d'.epoch = d.epoch) (hd : d.stage = .handshaking ∨ d.stage = .closing)
        (hx : x.settles d.epoch = false) :
        ∃ past' timeout before,
          past ++ [x] = past' ++ .startHandshakeTimer d'.epoch timeout :: before ∧
            ∀ y ∈ before, y.settles d'.epoch = false := by
      obtain ⟨past', timeout, before, rfl, hbefore⟩ := ih hd
      refine ⟨past', timeout, before ++ [x], ?_, ?_⟩
      · rw [he, List.append_assoc, List.cons_append]
      · rw [he, List.forall_mem_append, List.forall_mem_singleton]
        exact ⟨hbefore, hx⟩
    cases hx with
    | @timer e timeout => exact ⟨past, timeout, [], rfl, nofun⟩
    | delivery => exact keep rfl hs rfl
    | closing => exact keep rfl (.inl rfl) rfl
    | aside ha => exact keep rfl hs ((Effect.of_isAside ha).2.2.2 _).2.2
    | opening | greeting | settling | establishing | closed | cancelling | ending => simp at hs

theorem Next.cancels (h : Next d .cancelHandshakeTimer d') :
    (d.stage = .handshaking ∨ d.stage = .closing) ∧ d'.epoch = d.epoch ∧
      (d'.stage = .settling ∨ d'.stage = .closed) := by
  cases h with
  | settling => exact ⟨.inl rfl, rfl, .inl rfl⟩
  | cancelling => exact ⟨.inr rfl, rfl, .inr rfl⟩
  | aside ha => nomatch ha

/-- Once its timer was cancelled, the handshake of an attempt ends. -/
theorem Reads.settled (h : Reads c effects c') (hs : c.stage = .settling ∨ c.stage = .closed)
    (hs' : c'.stage ≠ .settling ∧ c'.stage ≠ .closed) :
    ∃ after x rest, effects = after ++ x :: rest ∧ x.settles c.epoch = true ∧
      ∀ y ∈ after, y.settles c.epoch = false := by
  induction h with
  | nil => exact absurd hs (not_or.mpr hs')
  | @cons c d c' x effects hx _ ih =>
    have ends (hx : x.settles c.epoch = true) :
        ∃ after y rest, x :: effects = after ++ y :: rest ∧ y.settles c.epoch = true ∧
          ∀ z ∈ after, z.settles c.epoch = false :=
      ⟨[], x, effects, rfl, hx, nofun⟩
    cases hx with
    | establishing => exact ends (decide_eq_true rfl)
    | ending => exact ends (decide_eq_true rfl)
    | aside ha =>
      obtain ⟨after, y, rest, rfl, hy, hafter⟩ := ih hs hs'
      refine ⟨x :: after, y, rest, rfl, hy, List.forall_mem_cons.mpr ⟨?_, hafter⟩⟩
      exact ((Effect.of_isAside ha).2.2.2 _).2.2
    | delivery hd => rcases hd with rfl | rfl <;> simp at hs
    | closed hc => rcases hc with rfl | rfl <;> simp at hs
    | opening | greeting | timer | settling | closing | cancelling => simp at hs

/-! ### The discipline -/

/-- **A trace in order is disciplined**, if it does not break off while a
handshake is being ended. -/
theorem Reads.disciplined (h : Reads start effects c)
    (hs : c.stage ≠ .settling ∧ c.stage ≠ .closed) : Disciplined effects where
  alternates := by
    obtain ⟨ended, hsorted, -, hfilter⟩ := h.boundaries
    refine ⟨ended ++ c.live, hsorted, ?_⟩
    rw [hfilter, List.flatMap_append, List.prefix_append_right_inj]
    by_cases ho : c.stage = .over
    · rw [live_of_eq ho]
      exact List.prefix_refl _
    · rw [live_of_ne ho]
      exact ⟨[.attemptEnded c.epoch], rfl⟩
  current := by
    rintro past x rest e rfl hx
    obtain ⟨d, d', hpast, hnext, -⟩ := h.of_split
    obtain ⟨hne, rfl⟩ := hnext.attempt?_eq hx
    rw [hpast.attemptAfter_eq, if_neg hne]
  delivers := by
    rintro past frame rest rfl
    obtain ⟨d, d', hpast, hnext, -⟩ := h.of_split
    rw [hpast.attemptAfter_eq, if_neg (hnext.greeted_of_isHeard rfl).ne_over]
    exact nofun
  greets := by
    intro e frame hmem
    obtain ⟨past, rest, rfl⟩ := List.append_of_mem hmem
    obtain ⟨d, d', -, hnext, -⟩ := h.of_split
    exact hnext.hello
  greets_once := h.countP_sendsOn_le
  greets_first := by
    rintro past x rest rfl hx
    obtain ⟨d, d', hpast, hnext, -⟩ := h.of_split
    have hg := hnext.greeted_of_isHeard hx
    obtain ⟨protocol, hmem⟩ := hpast.greeted hg
    exact ⟨d.epoch, protocol, by rw [hpast.attemptAfter_eq, if_neg hg.ne_over], hmem⟩
  establishes_once := h.countP_establishes_le
  cancels_once := by
    rintro past e timeout between x rest rfl hx hbetween
    obtain ⟨d, d', -, hnext, hrest⟩ := h.of_split
    obtain ⟨f, f', hread, hsettle, -⟩ := hrest.of_split
    cases hnext with
    | timer =>
      have hno := hsettle.stage_of_settles hx
      rcases (hread.timerAt hbetween).2 with ⟨hrun, -⟩ | ⟨-, hcount⟩
      · exact absurd hrun (not_or.mpr hno)
      · exact hcount
    | aside ha => nomatch ha
  cancels_inside := by
    rintro past rest rfl
    obtain ⟨d, d', hpast, hnext, hrest⟩ := h.of_split
    obtain ⟨hrun, he, hstopped⟩ := hnext.cancels
    obtain ⟨past', timeout, before, rfl, hbefore⟩ := hpast.started hrun
    obtain ⟨after, x, rest', rfl, hx, hafter⟩ := hrest.settled hstopped hs
    rw [he] at hx hafter
    exact ⟨past', d.epoch, timeout, before, after, x, rest', rfl, rfl, hx,
      List.forall_mem_append.mpr ⟨hbefore, hafter⟩⟩

end Course

namespace Machine

/-- A machine at rest is not about to end a handshake. -/
theorem OnCourse.at_rest {m : Machine} {c : Course} (h : m.OnCourse c) :
    c.stage ≠ .settling ∧ c.stage ≠ .closed := by
  rw [h.stage, Machine.stage]
  split <;> simp

/-- **The trace of every run is disciplined**, whatever inputs come in. -/
theorem run_disciplined (backoff : Backoff) (protocol : UInt32) (timeout : Duration)
    (hostActive : Bool) (inputs : List Input) :
    Disciplined ((initial backoff protocol timeout hostActive).run inputs).2 := by
  have hsound := sound_initial backoff protocol timeout hostActive
  have hcourse := onCourse_initial backoff protocol timeout hostActive
  obtain ⟨c, hreads, hon⟩ := exists_reads_run hsound hcourse inputs
  exact hreads.disciplined hon.at_rest

end Machine

end LiveSync.Connection
