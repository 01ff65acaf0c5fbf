import LiveSync.Proofs.Link.Moves
import Mathlib.Data.List.Pairwise
import Mathlib.Data.List.Perm.Basic

/-!
# Every caller is answered once

A caller who submits an action waits for one answer. It may come from the
server, or from the manager when the connection is lost, or at once when
there is none, or when nobody will take the command up any more.

The proof keeps an **account** of the callers (`Link.Accounts`). Whoever has
asked is in exactly one place: answered, still **outstanding** – because the
command waits for the manager, or is pending –, or forgotten, which happens
only to callers who no longer wait. A moment moves callers between these
places and loses none (`Link.KeepsCallers`), so a run does neither, and as
callers are distinct no one is answered twice.

Beside the account runs the history of what is pending: it was sent on the
attempt that is established now (`Link.Sent`), and so an answer of the
server that is handed to its caller arrived on the attempt that the command
was sent on.
-/

namespace LiveSync.Connection

open LiveSync.Wire

/-! ### Who asks, and for what -/

/-- The callers of commands. -/
def callers (commands : List Command) : List CallId := commands.filterMap Command.caller?

/-- The identifiers of commands. -/
def requests (commands : List Command) : List RequestId := commands.filterMap Command.request?

theorem callers_append (commands commands' : List Command) :
    callers (commands ++ commands') = callers commands ++ callers commands' :=
  List.filterMap_append ..

theorem requests_append (commands commands' : List Command) :
    requests (commands ++ commands') = requests commands ++ requests commands' :=
  List.filterMap_append ..

/-- The callers among answers. -/
def answered (replies : List Manager.Reply) : List CallId := replies.map Prod.fst

theorem answered_append (replies replies' : List Manager.Reply) :
    answered (replies ++ replies') = answered replies ++ answered replies' :=
  List.map_append

namespace Manager

/-- The callers of the commands that are pending. -/
def awaiting (m : Manager) : List CallId := m.pending.pairs.map (·.2.caller)

variable {m : Manager} {env : Surroundings} {message : ManagerMessage}

/-! ### A message -/

/-- **A step loses no caller**: whoever is awaiting an answer, or now asks
for one, is told something, or awaits an answer afterwards, or is forgotten,
which happens only to callers who no longer wait. -/
def KeepsCallers (env : Surroundings) (asking : List CallId) (m : Manager) (s : Step) : Prop :=
  ∃ forgotten : List CallId,
    (asking ++ m.awaiting).Perm
        (answered (s.2.filterMap reply?) ++ (s.1.awaiting ++ forgotten))
      ∧ ∀ caller ∈ forgotten, caller ∈ m.awaiting ∧ env.waiting caller = false

/-- Settling commands answers their callers. -/
theorem Settles.keepsCallers {why : RequestId → Except Failure.Command Receipt → Prop} {s : Step}
    (h : Settles why m s) (env : Surroundings) : KeepsCallers env [] m s := by
  obtain ⟨settled, hreply, hperm, -, -⟩ := h
  refine ⟨[], ?_, nofun⟩
  rw [hreply, answered, List.map_map, List.append_nil, List.nil_append]
  refine (hperm.map fun p => p.2.caller).trans (.of_eq ?_)
  rw [List.map_append, List.map_map]
  rfl

theorem keepsCallers_submit (h : m.Sound) (env : Surroundings) {request : RequestId}
    (hnew : request ∉ m.pending.keys) (id : EntityId) (version : Version) (action : Action)
    (caller : CallId) :
    KeepsCallers env [caller] m (m.submit env request id version action caller) := by
  rcases h.submit_cases env request id version action caller with ⟨-, -, heq⟩ | heq
  · rw [heq]
    -- the new command comes last, after those whose callers still wait
    have hnew' : request ∉ (m.pending.filter fun _ p => env.waiting p.caller).keys := fun hk =>
      hnew ((List.filter_sublist.map Prod.fst).subset hk)
    refine ⟨(m.pending.pairs.filter fun p => !env.waiting p.2.caller).map (·.2.caller), ?_, ?_⟩
    · have hsplit := (List.filter_append_perm (fun p => env.waiting p.2.caller)
        m.pending.pairs).map (·.2.caller)
      rw [List.map_append] at hsplit
      simp only [awaiting, Table.pairs_insert_of_not_mem hnew', List.map_append, List.append_assoc]
      exact (hsplit.symm.append_left [caller]).trans (List.perm_append_comm_assoc ..)
    · intro c hc
      obtain ⟨p, hp, rfl⟩ := List.mem_map.mp hc
      obtain ⟨hp, hw⟩ := List.mem_filter.mp hp
      exact ⟨List.mem_map_of_mem hp, by simpa using hw⟩
  · rw [heq]
    exact ⟨[], .of_eq (by simp [answered, reply?]), nofun⟩

/-- **A message loses no caller**, if the identifier it may bring is new and
a manager that has stopped gets no command. -/
theorem keepsCallers_handle (h : m.Sound) (env : Surroundings)
    (hs : ∀ c, message = .command c → m.stopped = false)
    (hnew : ∀ request ∈ requests message.command?.toList, request ∉ m.pending.keys) :
    KeepsCallers env (callers message.command?.toList) m (m.handle env message) := by
  cases message with
  | command c =>
    cases c with
    | submit request id version action caller =>
      rw [handle, hs _ rfl]
      exact keepsCallers_submit h env (hnew request (List.mem_singleton_self _)) id version action
        caller
    | _ => exact (settles_handle h.distinct env rfl).keepsCallers env
  | input i => exact (settles_handle h.distinct env rfl).keepsCallers env
  | host active => exact (settles_handle h.distinct env rfl).keepsCallers env

/-- What a message answers it has a reason for. -/
theorem Settles.of_mem_replies {why : RequestId → Except Failure.Command Receipt → Prop} {s : Step}
    (h : Settles why m s) {caller : CallId} {result : Except Failure.Command Receipt}
    (hr : (caller, result) ∈ s.2.filterMap reply?) :
    ∃ p ∈ m.pending.pairs, p.2.caller = caller ∧ why p.1 result := by
  obtain ⟨settled, hreply, hperm, -, hwhy⟩ := h
  rw [hreply] at hr
  obtain ⟨x, hx, heq⟩ := List.mem_map.mp hr
  cases heq
  exact ⟨x.entry, hperm.mem_iff.mpr (List.mem_append_left _ (List.mem_map_of_mem hx)), rfl,
    hwhy x hx⟩

theorem Sound.of_mem_replies_submit (h : m.Sound) {request : RequestId} {id : EntityId}
    {version : Version} {action : Action} {caller : CallId} {r : Reply}
    (hr : r ∈ (m.submit env request id version action caller).2.filterMap reply?) :
    r = (caller, .error unconnected) := by
  rcases h.submit_cases env request id version action caller with ⟨-, -, heq⟩ | heq
  · rw [heq] at hr
    cases hr
  · rw [heq] at hr
    exact List.mem_singleton.mp hr

/-- **Whom a message answers, and why**: delivery failed, or a frame arrived
on the attempt that the command is pending on, and answers it. -/
theorem Sound.of_mem_replies (h : m.Sound) {caller : CallId}
    {result : Except Failure.Command Receipt}
    (hr : (caller, result) ∈ (m.handle env message).2.filterMap reply?) :
    (∃ text, result = .error (.delivery text))
      ∨ ∃ p ∈ m.pending.pairs, p.2.caller = caller
        ∧ ∃ frame, message = .input (.frame p.2.epoch frame) ∧ Answers p.1 frame result := by
  rcases h.handle_cases env message with hsettles | ⟨request, id, version, action, c, -, heq⟩
  · obtain ⟨p, hp, hcaller, hlost | ⟨frame, hframe, hanswers⟩⟩ := hsettles.of_mem_replies hr
    · exact .inl ⟨_, hlost⟩
    · refine .inr ⟨p, hp, hcaller, frame, ?_, hanswers⟩
      rw [hframe, (h.pending_current hp).1]
  · rw [heq] at hr
    exact .inl ⟨_, congrArg Prod.snd (h.of_mem_replies_submit hr)⟩

/-- **What is pending after a message** was pending before, or was submitted
just now and transmitted on the attempt it is pending on. -/
theorem Sound.of_mem_pending (h : m.Sound) {p : RequestId × PendingCommand}
    (hp : p ∈ (m.handle env message).1.pending.pairs) :
    p ∈ m.pending.pairs
      ∨ ∃ id version action, message = .command (.submit p.1 id version action p.2.caller)
        ∧ .transmit p.2.epoch (.command p.1 id version action) ∈ (m.handle env message).2 := by
  rcases h.handle_cases env message with hsettles | ⟨request, id, version, action, c, rfl, heq⟩
  · exact .inl (hsettles.sublist.subset hp)
  · rw [heq] at hp ⊢
    rcases h.submit_cases env request id version action c with ⟨-, -, heq⟩ | heq
    · rw [heq] at hp ⊢
      rcases Table.mem_pairs_insert hp with rfl | hp
      · exact .inr ⟨id, version, action, rfl, List.mem_singleton_self _⟩
      · exact .inl (List.mem_filter.mp hp).1
    · rw [heq] at hp
      exact .inl hp

theorem Sound.keys_sublist (h : m.Sound) (env : Surroundings) (message : ManagerMessage) :
    (m.handle env message).1.pending.keys.Sublist
      (m.pending.keys ++ requests message.command?.toList) := by
  rcases h.handle_cases env message with hsettles | ⟨request, id, version, action, c, rfl, heq⟩
  · exact (hsettles.sublist.map Prod.fst).trans (List.sublist_append_left ..)
  · rw [heq]
    rcases h.submit_cases env request id version action c with ⟨-, -, heq⟩ | heq
    · rw [heq, Table.keys_insert]
      have hfilter : (m.pending.filter fun _ p => env.waiting p.caller).keys.Sublist
          m.pending.keys := List.filter_sublist.map Prod.fst
      split
      · exact hfilter.trans (List.sublist_append_left ..)
      · exact hfilter.append (.refl _)
    · rw [heq]
      exact List.sublist_append_left ..

end Manager

namespace Link

/-- What a user asks for in a move. -/
def Move.asked? : Move → Option Command
  | .ask c => some c
  | _ => none

/-- **What users ask for** in a run, in order. -/
def asked (moments : List Moment) : List Command := moments.filterMap (·.move.asked?)

theorem asked_append (moments moments' : List Moment) :
    asked (moments ++ moments') = asked moments ++ asked moments' :=
  List.filterMap_append ..

theorem asked_of_ask {t : Moment} {c : Command} (h : t.move = .ask c) : asked [t] = [c] := by
  rw [asked, List.filterMap_cons_some (by rw [h]; rfl), List.filterMap_nil]

theorem asked_of_ne {t : Moment} (h : ∀ c, t.move ≠ .ask c) : asked [t] = [] := by
  refine List.filterMap_cons_none ?_
  cases hm : t.move <;> first | rfl | exact absurd hm (h _)

theorem asked_of_takes {l rest : Link} {t : Moment} {message : ManagerMessage}
    (h : l.takes t.move = some (message, rest)) : asked [t] = [] := by
  refine asked_of_ne fun c hm => ?_
  rw [hm] at h
  cases h

/-- **The callers who are to be answered**: their commands wait for the
manager, or are pending. -/
def outstanding (l : Link) : List CallId := callers l.commands ++ l.manager.awaiting

variable {l : Link} {t : Moment} {moments : List Moment}

/-! ### Sound links -/

/-- **What holds of a link at any time.** -/
structure Sound (l : Link) : Prop where
  manager : l.manager.Sound
  /-- Nothing waits for a manager that has stopped. -/
  commands : l.manager.stopped = true → l.commands = []

theorem sound_start (config : Config) (hostActive : Bool) : (start config hostActive).Sound where
  manager := Manager.sound_start (Machine.sound_initial ..) rfl
  commands := nofun

theorem Sound.enqueue (h : l.Sound) (c : Command) : (l.enqueue c).1.Sound := by
  unfold Link.enqueue
  split
  · exact h
  · rename_i hs
    exact ⟨h.manager, fun hs' => absurd hs' hs⟩

theorem Sound.step (h : l.Sound) (t : Moment) : (l.step t).1.Sound := by
  rcases step_cases l t with ⟨c, -, heq⟩ | ⟨message, rest, htakes, heq⟩ | ⟨-, -, haside⟩
  · exact heq ▸ h.enqueue c
  · have htold := told_tell (l.sight t) t.now rest message
    rw [heq]
    refine ⟨?_, fun hs => ?_⟩
    · rw [htold.manager, (takes_frame htakes).1]
      exact h.manager.handle _ _
    · rw [htold.commands, if_pos (htold.manager ▸ hs)]
  · refine ⟨haside.manager ▸ h.manager, fun hs => ?_⟩
    rw [haside.commands]
    exact h.commands (haside.manager ▸ hs)

theorem Sound.run (h : l.Sound) (moments : List Moment) : (l.run moments).1.Sound :=
  run_induction h (fun _ t hl => hl.step t) moments

/-- A manager that takes up a command has not stopped. -/
theorem Sound.of_takes (h : l.Sound) {move : Move} {c : Command} {rest : Link}
    (htakes : l.takes move = some (.command c, rest)) : l.manager.stopped = false := by
  refine Bool.eq_false_iff.mpr fun hs => ?_
  have hc := (takes_frame htakes).2.2
  rw [h.commands hs] at hc
  cases hc

/-! ### No caller is lost -/

theorem answered_unanswered (commands : List Command) :
    answered (replies (unanswered commands)) = callers commands := by
  simp only [answered, replies, unanswered, callers, List.filterMap_filterMap,
    List.map_filterMap]
  refine List.filterMap_congr fun c _ => ?_
  cases c <;> rfl

/-- Whoever asks a manager that has stopped hears that it is gone. -/
theorem error_of_mem_unanswered {commands : List Command} {caller : CallId}
    {result : Except Failure.Command Receipt}
    (h : (caller, result) ∈ replies (unanswered commands)) :
    ∃ text, result = .error (.delivery text) := by
  obtain ⟨o, ho, heq⟩ := List.mem_filterMap.mp h
  obtain ⟨c, -, hc⟩ := List.mem_filterMap.mp ho
  cases c <;> cases hc
  cases heq
  exact ⟨_, rfl⟩

/-- **A moment loses no caller.** -/
def KeepsCallers (t : Moment) (l : Link) (s : Step) : Prop :=
  ∃ forgotten : List CallId,
    (callers (asked [t]) ++ l.outstanding).Perm
        (answered (replies s.2) ++ (s.1.outstanding ++ forgotten))
      ∧ ∀ caller ∈ forgotten, caller ∈ l.outstanding ∧ t.waiting caller = false

theorem keepsCallers_enqueue (t : Moment) {c : Command} (hm : t.move = .ask c) (l : Link) :
    KeepsCallers t l (l.enqueue c) := by
  unfold enqueue
  split
  · refine ⟨[], ?_, nofun⟩
    rw [asked_of_ask hm, answered_unanswered, List.append_nil]
  · refine ⟨[], ?_, nofun⟩
    simp only [asked_of_ask hm, outstanding, callers_append, answered, replies,
      List.filterMap_nil, List.map_nil, List.nil_append, List.append_nil, List.append_assoc]
    exact List.perm_append_comm_assoc ..

theorem keepsCallers_tell (h : l.Sound) {message : ManagerMessage} {rest : Link}
    (htakes : l.takes t.move = some (message, rest))
    (hnew : (l.manager.pending.keys ++ requests l.commands).Nodup) :
    KeepsCallers t l (tell (l.sight t) t.now rest message) := by
  obtain ⟨hm, -, hc⟩ := takes_frame htakes
  have htold := told_tell (l.sight t) t.now rest message
  have hrequests : ∀ request ∈ requests message.command?.toList,
      request ∉ l.manager.pending.keys := by
    rw [hc, requests_append] at hnew
    exact fun request hr hk =>
      (List.nodup_append.mp hnew).2.2 request hk request (List.mem_append_left _ hr) rfl
  obtain ⟨forgotten, hperm, hforgotten⟩ := Manager.keepsCallers_handle h.manager (l.sight t)
    (fun c hc => h.of_takes (hc ▸ htakes)) hrequests
  refine ⟨forgotten, List.perm_iff_count.mpr fun caller => ?_, fun caller hf => ?_⟩
  · have hcount := hperm.count_eq caller
    simp only [asked_of_takes htakes, outstanding, hc, callers_append, htold.replies,
      htold.commands, htold.manager, hm, answered_append, List.count_append] at hcount ⊢
    split
    · rw [answered_unanswered]
      simp only [callers, answered, List.filterMap_nil, List.count_nil] at hcount ⊢
      omega
    · simp only [callers, answered, List.filterMap_nil, List.map_nil, List.count_nil] at hcount ⊢
      omega
  · obtain ⟨ha, hw⟩ := hforgotten caller hf
    exact ⟨List.mem_append_right _ ha, hw⟩

/-- **A moment loses no caller**, if the identifiers that are in use are
distinct. -/
theorem keepsCallers_step (h : l.Sound) (t : Moment)
    (hnew : (l.manager.pending.keys ++ requests l.commands).Nodup) :
    KeepsCallers t l (l.step t) := by
  rcases step_cases l t with ⟨c, hm, heq⟩ | ⟨message, rest, htakes, heq⟩ | ⟨-, hask, haside⟩
  · rw [heq]
    exact keepsCallers_enqueue t hm l
  · rw [heq]
    exact keepsCallers_tell h htakes hnew
  · refine ⟨[], ?_, nofun⟩
    rw [asked_of_ne hask, haside.replies, outstanding, outstanding, haside.manager, haside.commands]
    exact .of_eq (List.append_nil _).symm

/-! ### What a run explains -/

/-- **A moment sends a caller's command on an attempt**: the manager takes
the command up and orders to transmit it. -/
def Sends (l : Link) (t : Moment) (epoch : Epoch) (request : RequestId) (caller : CallId) : Prop :=
  ∃ id version action rest,
    l.takes t.move = some (.command (.submit request id version action caller), rest)
      ∧ .transmit epoch (.command request id version action) ∈ l.orders t

/-- **A run sent a caller's command on an attempt.** -/
def Sent (l : Link) (moments : List Moment) (epoch : Epoch) (request : RequestId)
    (caller : CallId) : Prop :=
  ∃ past t later, moments = past ++ t :: later ∧ (l.run past).1.Sends t epoch request caller

theorem Sent.concat {epoch : Epoch} {request : RequestId} {caller : CallId}
    (h : l.Sent moments epoch request caller) (t : Moment) :
    l.Sent (moments ++ [t]) epoch request caller := by
  obtain ⟨past, t', later, rfl, hsends⟩ := h
  exact ⟨past, t', later ++ [t], by simp, hsends⟩

/-- **What is pending after a moment** was pending before or is sent by it. -/
theorem Sound.of_mem_pending (h : l.Sound) {p : RequestId × PendingCommand}
    (hp : p ∈ (l.step t).1.manager.pending.pairs) :
    p ∈ l.manager.pending.pairs ∨ l.Sends t p.2.epoch p.1 p.2.caller := by
  rcases step_cases l t with ⟨c, -, heq⟩ | ⟨message, rest, htakes, heq⟩ | ⟨-, -, haside⟩
  · rw [heq, Link.enqueue] at hp
    split at hp <;> exact .inl hp
  · rw [heq, (told_tell (l.sight t) t.now rest message).manager, (takes_frame htakes).1] at hp
    refine (h.manager.of_mem_pending hp).imp_right ?_
    rintro ⟨id, version, action, rfl, horder⟩
    refine ⟨id, version, action, rest, htakes, ?_⟩
    rw [orders, htakes]
    exact horder
  · rw [haside.manager] at hp
    exact .inl hp

/-- **What is in use after a moment** was in use before or is asked for by
it. -/
theorem Sound.in_use_step (h : l.Sound) (t : Moment) :
    ((l.step t).1.manager.pending.keys ++ requests (l.step t).1.commands).Sublist
      ((l.manager.pending.keys ++ requests l.commands) ++ requests (asked [t])) := by
  rcases step_cases l t with ⟨c, hm, heq⟩ | ⟨message, rest, htakes, heq⟩ | ⟨-, -, haside⟩
  · rw [heq, Link.enqueue]
    split
    · exact List.sublist_append_left ..
    · rw [asked_of_ask hm, requests_append, List.append_assoc]
  · have htold := told_tell (l.sight t) t.now rest message
    obtain ⟨hm, -, hc⟩ := takes_frame htakes
    rw [heq, htold.manager, htold.commands, hm, asked_of_takes htakes, hc, requests_append,
      ← List.append_assoc]
    refine ((h.manager.keys_sublist _ message).append ?_).trans (List.sublist_append_left ..)
    split
    · exact List.nil_sublist _
    · exact .refl _
  · rw [haside.manager, haside.commands]
    exact List.sublist_append_left ..

/-- A command that waits for the manager was waiting before, or is asked for
now. -/
theorem of_mem_commands {c : Command} (hc : c ∈ (l.step t).1.commands) :
    c ∈ l.commands ∨ c ∈ asked [t] := by
  rcases step_cases l t with ⟨c', hm, heq⟩ | ⟨message, rest, htakes, heq⟩ | ⟨-, -, haside⟩
  · rw [heq, enqueue] at hc
    split at hc
    · exact .inl hc
    · rw [asked_of_ask hm]
      exact List.mem_append.mp hc
  · rw [heq, (told_tell (l.sight t) t.now rest message).commands] at hc
    split at hc
    · cases hc
    · rw [(takes_frame htakes).2.2]
      exact .inl (List.mem_append_right _ hc)
  · rw [haside.commands] at hc
    exact .inl hc

/-- **A run explains the link after it**: what is in use was asked for, each
identifier in its turn, and what is pending was sent. -/
structure Explained (l : Link) (moments : List Moment) : Prop where
  sound : (l.run moments).1.Sound
  inUse : ((l.run moments).1.manager.pending.keys
    ++ requests (l.run moments).1.commands).Sublist (requests (asked moments))
  commands : ∀ c ∈ (l.run moments).1.commands, c ∈ asked moments
  sent : ∀ p ∈ (l.run moments).1.manager.pending.pairs,
    l.Sent moments p.2.epoch p.1 p.2.caller

theorem explained_run (config : Config) (hostActive : Bool) (moments : List Moment) :
    (start config hostActive).Explained moments := by
  induction moments using List.reverseRecOn with
  | nil => exact ⟨sound_start config hostActive, List.nil_sublist _, nofun, nofun⟩
  | append_singleton moments t ih =>
    refine ⟨(sound_start config hostActive).run _, ?_, fun c hc => ?_, fun p hp => ?_⟩
    · rw [run_concat, asked_append, requests_append]
      exact (ih.sound.in_use_step t).trans (ih.inUse.append_right _)
    · rw [run_concat] at hc
      rw [asked_append]
      exact List.mem_append.mpr ((of_mem_commands hc).imp_left (ih.commands c))
    · rw [run_concat] at hp
      rcases ih.sound.of_mem_pending hp with hp | hsends
      · exact (ih.sent p hp).concat t
      · exact ⟨moments, t, [], rfl, hsends⟩

/-- What was sent was asked for. -/
theorem Sent.asked {config : Config} {hostActive : Bool} {epoch : Epoch} {request : RequestId}
    {caller : CallId} (h : (start config hostActive).Sent moments epoch request caller) :
    ∃ id version action, .submit request id version action caller ∈ asked moments := by
  obtain ⟨past, t, later, rfl, id, version, action, rest, htakes, -⟩ := h
  refine ⟨id, version, action, ?_⟩
  rw [asked_append]
  refine List.mem_append_left _ ((explained_run config hostActive past).commands _ ?_)
  rw [(takes_frame htakes).2.2]
  exact List.mem_cons_self ..

/-- **A run loses no caller**: whoever has asked is answered, outstanding, or
was forgotten at a moment at which nobody waited any more. -/
theorem accounts_run (config : Config) (hostActive : Bool) (moments : List Moment)
    (hrequests : (requests (asked moments)).Nodup) :
    ∃ forgotten : List CallId,
      (callers (asked moments)).Perm
          (answered (replies ((start config hostActive).run moments).2)
            ++ (((start config hostActive).run moments).1.outstanding ++ forgotten))
        ∧ ∀ caller ∈ forgotten, ∃ past t later, moments = past ++ t :: later
          ∧ caller ∈ callers (asked past) ∧ t.waiting caller = false := by
  induction moments using List.reverseRecOn with
  | nil => exact ⟨[], .refl _, nofun⟩
  | append_singleton moments t ih =>
    rw [asked_append, requests_append] at hrequests
    obtain ⟨forgotten, hperm, hforgotten⟩ := ih (List.nodup_append.mp hrequests).1
    have hexplained := explained_run config hostActive moments
    obtain ⟨dropped, hstep, hdropped⟩ := keepsCallers_step hexplained.sound t
      ((List.nodup_append.mp hrequests).1.sublist hexplained.inUse)
    refine ⟨forgotten ++ dropped, List.perm_iff_count.mpr fun caller => ?_, fun caller hc => ?_⟩
    · -- the outstanding callers of before are on one side of each account
      have hcount := hperm.count_eq caller
      have hcount' := hstep.count_eq caller
      simp only [run_concat, Step.andThen, asked_append, callers_append, replies_append,
        answered_append, List.count_append] at hcount hcount' ⊢
      omega
    · rcases List.mem_append.mp hc with hc | hc
      · obtain ⟨past, t', later, rfl, hasked, hw⟩ := hforgotten caller hc
        exact ⟨past, t', later ++ [t], by simp, hasked, hw⟩
      · obtain ⟨hout, hw⟩ := hdropped caller hc
        refine ⟨moments, t, [], rfl, ?_, hw⟩
        exact hperm.mem_iff.mpr (List.mem_append_right _ (List.mem_append_left _ hout))

/-! ### Every caller is answered once -/

/-- What a caller is told. -/
def answersTo (caller : CallId) (replies : List Manager.Reply) :
    List (Except Failure.Command Receipt) :=
  replies.filterMap fun r => if r.1 = caller then some r.2 else none

theorem mem_answersTo {caller : CallId} {rs : List Manager.Reply}
    {result : Except Failure.Command Receipt} :
    result ∈ answersTo caller rs ↔ (caller, result) ∈ rs := by
  simp only [answersTo, List.mem_filterMap]
  constructor
  · rintro ⟨⟨c, r⟩, hmem, heq⟩
    split at heq
    · rename_i hc
      cases hc
      cases heq
      exact hmem
    · cases heq
  · exact fun hmem => ⟨_, hmem, if_pos rfl⟩

theorem length_answersTo (caller : CallId) (rs : List Manager.Reply) :
    (answersTo caller rs).length = (answered rs).count caller := by
  induction rs with
  | nil => rfl
  | cons r rs ih =>
    simp only [answersTo, answered] at ih ⊢
    by_cases hc : r.1 = caller
    · simp [hc, ih]
    · simp [hc, ih]

/-- **A caller waits for the answer**: at every moment from the submission on
until an answer is given. -/
def WaitsUntilAnswered (l : Link) (moments : List Moment) (caller : CallId) : Prop :=
  ∀ past t later, moments = past ++ t :: later → caller ∈ callers (asked past) →
    answersTo caller (replies (l.run past).2) = [] → t.waiting caller = true

/-- **The caller of a submission is answered once**, in time and with good
reason. -/
structure AnsweredOnce (l : Link) (moments : List Moment) (request : RequestId)
    (caller : CallId) : Prop where
  /-- No caller is told anything twice. -/
  once : (answersTo caller (replies (l.run moments).2)).length ≤ 1
  /-- An answer other than a failed delivery is what a frame says that carries
  the identifier of the submission and arrived on the attempt that the
  submission was sent on. -/
  justified : ∀ past t later result, moments = past ++ t :: later →
    result ∈ answersTo caller (replies ((l.run past).1.step t).2) →
    (∃ text, result = .error (.delivery text))
      ∨ ∃ epoch frame rest,
        (l.run past).1.takes t.move = some (.input (.frame epoch frame), rest)
          ∧ Manager.Answers request frame result ∧ l.Sent past epoch request caller
  /-- A caller who waits and has got no answer will get one: the command still
  waits for the manager, or was sent on the attempt that is established, and
  is pending there. -/
  in_time : l.WaitsUntilAnswered moments caller →
    answersTo caller (replies (l.run moments).2) = [] →
    (l.run moments).1.manager.stopped = false
      ∧ ((∃ id version action,
          .submit request id version action caller ∈ (l.run moments).1.commands)
        ∨ ((l.run moments).1.manager.machine.isEstablished = true
          ∧ (l.run moments).1.manager.pending.get? request
            = some ⟨(l.run moments).1.manager.machine.epoch, caller⟩
          ∧ l.Sent moments (l.run moments).1.manager.machine.epoch request caller))

/-- **Whom a moment answers, and why.** -/
theorem Explained.of_mem_replies {past : List Moment} (h : l.Explained past) {caller : CallId}
    {result : Except Failure.Command Receipt}
    (hr : (caller, result) ∈ replies ((l.run past).1.step t).2) :
    (∃ text, result = .error (.delivery text))
      ∨ ∃ epoch request frame rest,
        (l.run past).1.takes t.move = some (.input (.frame epoch frame), rest)
          ∧ Manager.Answers request frame result ∧ l.Sent past epoch request caller := by
  rcases step_cases (l.run past).1 t with
    ⟨c, -, heq⟩ | ⟨message, rest, htakes, heq⟩ | ⟨-, -, haside⟩
  · rw [heq, enqueue] at hr
    split at hr
    · exact .inl (error_of_mem_unanswered hr)
    · cases hr
  · obtain ⟨hm, -, -⟩ := takes_frame htakes
    rw [heq, (told_tell _ t.now rest message).replies, hm] at hr
    rcases List.mem_append.mp hr with hr | hr
    · refine (h.sound.manager.of_mem_replies hr).imp_right ?_
      rintro ⟨p, hp, rfl, frame, rfl, hanswers⟩
      exact ⟨p.2.epoch, p.1, frame, rest, htakes, hanswers, h.sent p hp⟩
    · split at hr
      · exact .inl (error_of_mem_unanswered hr)
      · cases hr
  · rw [haside.replies] at hr
    cases hr

/-- Submissions with one caller are one submission. -/
theorem eq_of_caller {commands : List Command} (h : (callers commands).Nodup) {c c' : Command}
    {caller : CallId} (hc : c ∈ commands) (hc' : c' ∈ commands) (hcaller : c.caller? = some caller)
    (hcaller' : c'.caller? = some caller) : c = c' := by
  by_contra hne
  have : Std.Symm fun a b : Command =>
      ∀ x, a.caller? = some x → ∀ y, b.caller? = some y → x ≠ y :=
    ⟨fun a b hab x hx y hy hxy => hab y hy x hx hxy.symm⟩
  exact (List.pairwise_filterMap.mp h).forall hc hc' hne caller hcaller caller hcaller' rfl

/-- What was said stays said. -/
theorem replies_run_append (l : Link) (past later : List Moment) :
    replies (l.run past).2 <+: replies (l.run (past ++ later)).2 := by
  induction later using List.reverseRecOn with
  | nil => exact (List.append_nil past).symm ▸ List.prefix_refl _
  | append_singleton later t ih =>
    rw [← List.append_assoc, run_concat, Step.andThen, replies_append]
    exact ih.trans (List.prefix_append ..)

theorem answersTo_past {caller : CallId} {rs rs' : List Manager.Reply} (h : rs <+: rs')
    (hnil : answersTo caller rs' = []) : answersTo caller rs = [] :=
  List.prefix_nil.mp (hnil ▸ h.filterMap _)

/-- **Whoever waits and has got no answer is outstanding.** -/
theorem mem_outstanding {config : Config} {hostActive : Bool}
    (hrequests : (requests (asked moments)).Nodup) {caller : CallId}
    (hasked : caller ∈ callers (asked moments))
    (hwaits : (start config hostActive).WaitsUntilAnswered moments caller)
    (hnil : answersTo caller (replies ((start config hostActive).run moments).2) = []) :
    caller ∈ ((start config hostActive).run moments).1.outstanding := by
  obtain ⟨forgotten, hperm, hforgotten⟩ := accounts_run config hostActive moments hrequests
  -- of the three places of the account the caller's silence and patience rule out two
  rcases List.mem_append.mp (hperm.mem_iff.mp hasked) with hanswered | hrest
  · obtain ⟨⟨c, result⟩, hr, rfl⟩ := List.mem_map.mp hanswered
    have hmem := mem_answersTo.mpr hr
    rw [hnil] at hmem
    cases hmem
  · refine (List.mem_append.mp hrest).resolve_right fun hf => ?_
    obtain ⟨past, t, later, rfl, hpast, hw⟩ := hforgotten caller hf
    have hwaiting := hwaits past t later rfl hpast
      (answersTo_past (replies_run_append _ past (t :: later)) hnil)
    exact Bool.false_ne_true (hw.symm.trans hwaiting)

/-- **Every caller is answered once.** However users, attempts, timers and
the host interfere, what is pending after a moment is pending on the attempt
that is established; and whoever submits an action is told one thing, by the
end of the attempt it was sent on. Each submission has an identifier and a
caller of its own. -/
theorem submissions_answered_once (config : Config) (hostActive : Bool) (moments : List Moment)
    (hrequests : (requests (asked moments)).Nodup) (hcallers : (callers (asked moments)).Nodup) :
    (∀ request p,
      ((start config hostActive).run moments).1.manager.pending.get? request = some p →
      p.epoch = ((start config hostActive).run moments).1.manager.machine.epoch
        ∧ ((start config hostActive).run moments).1.manager.machine.isEstablished = true)
      ∧ ∀ request id version action caller,
        .submit request id version action caller ∈ asked moments →
        AnsweredOnce (start config hostActive) moments request caller := by
  have hexplained := explained_run config hostActive moments
  refine ⟨fun request p hp => hexplained.sound.manager.pending_current (Table.mem_pairs_of_get? hp),
    fun request id version action caller hsubmit => ⟨?_, ?_, fun hwaits hnil => ?_⟩⟩
  · -- a caller asks once, and is not answered more often than the account says
    obtain ⟨forgotten, hperm, -⟩ := accounts_run config hostActive moments hrequests
    have hcount := hperm.count_eq caller
    have hle := List.nodup_iff_count.mp hcallers caller
    rw [List.count_append] at hcount
    rw [length_answersTo]
    omega
  · rintro past t later result rfl hresult
    refine ((explained_run config hostActive past).of_mem_replies
      (mem_answersTo.mp hresult)).imp_right ?_
    rintro ⟨epoch, request', frame, rest, htakes, hanswers, hsent⟩
    obtain ⟨id', version', action', hsubmit'⟩ := hsent.asked
    -- the command that the frame answers is the one this caller submitted
    have hown : request' = request := by
      rw [asked_append] at hsubmit hcallers
      cases eq_of_caller hcallers (List.mem_append_left _ hsubmit') hsubmit rfl rfl
      rfl
    subst hown
    exact ⟨epoch, frame, rest, htakes, hanswers, hsent⟩
  · have hout := mem_outstanding hrequests (List.mem_filterMap.mpr ⟨_, hsubmit, rfl⟩) hwaits hnil
    refine ⟨Bool.eq_false_iff.mpr fun hs => ?_, ?_⟩
    · rw [outstanding, hexplained.sound.commands hs, Manager.awaiting,
        hexplained.sound.manager.pending_of_stopped hs] at hout
      cases hout
    · rcases List.mem_append.mp hout with hqueued | hawaiting
      · obtain ⟨c, hc, hcaller⟩ := List.mem_filterMap.mp hqueued
        cases eq_of_caller hcallers (hexplained.commands c hc) hsubmit hcaller rfl
        exact .inl ⟨id, version, action, hc⟩
      · obtain ⟨⟨request', p⟩, hp, rfl⟩ := List.mem_map.mp hawaiting
        have hsent := hexplained.sent _ hp
        obtain ⟨id', version', action', hsubmit'⟩ := hsent.asked
        cases eq_of_caller hcallers hsubmit' hsubmit rfl rfl
        obtain ⟨hepoch, hestablished⟩ := hexplained.sound.manager.pending_current hp
        refine .inr ⟨hestablished, ?_, hepoch ▸ hsent⟩
        rw [hexplained.sound.manager.distinct.get?_of_mem hp, ← hepoch]

/-- A run in which the server refuses one of two submissions and acknowledges
it later, and the connection is lost before the other one is answered. -/
def refusal : List Moment :=
  [.ask .connect, .takeCommand, .hear (.opened 1), .takeInput,
    .hear (.frame 1 (.helloAck none none)), .takeInput,
    .ask (.submit ⟨1⟩ 5 3 (.ready true) 7), .ask (.submit ⟨2⟩ 5 3 (.ready false) 8),
    .takeCommand, .takeCommand,
    .hear (.frame 1 (.error "conflict" "stale" (some ⟨1⟩))), .takeInput,
    .hear (.frame 1 (.commandAck ⟨1⟩ (some 4))), .takeInput,
    .hear (.closed 1), .takeInput].map fun move => ⟨0, [], fun _ => true, move⟩

/-- The late acknowledgement is not heard. -/
theorem submissions_answered_once_refusal :
    (requests (asked refusal)).Nodup ∧ (callers (asked refusal)).Nodup
      ∧ answersTo 7 (replies ((start .default true).run refusal).2) = [.error (.conflict "stale")]
      ∧ answersTo 8 (replies ((start .default true).run refusal).2) = [.error Manager.lost]
      ∧ AnsweredOnce (start .default true) refusal ⟨1⟩ 7
      ∧ AnsweredOnce (start .default true) refusal ⟨2⟩ 8 := by
  have hrequests : (requests (asked refusal)).Nodup := by decide
  have hcallers : (callers (asked refusal)).Nodup := by decide
  have h := submissions_answered_once .default true refusal hrequests hcallers
  exact ⟨hrequests, hcallers, by rfl, by rfl, h.2 _ 5 3 (.ready true) _ (by decide),
    h.2 _ 5 3 (.ready false) _ (by decide)⟩

end Link

end LiveSync.Connection
