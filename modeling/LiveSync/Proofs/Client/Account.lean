import LiveSync.Proofs.Client.Owners
import LiveSync.Proofs.Link.Closing
import Mathlib.Data.List.Nodup

/-!
# The account of a client

Whoever sends a command without a guess waits for the answer of the link, and
may go on waiting when the client is long gone. So the link must not lose
anybody, and the client must pass on whatever the link says.

The link keeps its own account of callers, in which a caller is found by the
identifier of a request (`Link.KeepsCallers`). It is right as long as no
identifier is given out a second time while the first one is in use. A client
counts its identifiers up, and there are `2 ^ 128` of them; what is said of
answers is therefore said of clients that have not counted further
(`Client.Accounted`).

Between the link and the caller stands the client, which takes up what leaves
the link one by one (`Client.Absorbs`). What it is told of a caller it passes
on if the caller still waits, and nobody else is concerned.
-/

namespace LiveSync

open LiveSync.Connection

/-! ### Identifiers -/

/-- **The identifiers that are in use** on a link. -/
def Connection.Link.inUse (l : Link) : List RequestId :=
  l.manager.pending.keys ++ requests l.commands

/-- The identifier with a number. -/
def RequestId.numbered (n : Nat) : RequestId := ⟨BitVec.ofNat 128 n⟩

/-- **Identifiers with different numbers** below a bound. -/
def Numbered (bound : Nat) (requests : List RequestId) : Prop :=
  ∃ numbers : List Nat, numbers.Nodup ∧ (∀ n ∈ numbers, n < bound)
    ∧ requests = numbers.map RequestId.numbered

namespace Numbered

variable {bound bound' : Nat} {requests requests' : List RequestId}

theorem nil : Numbered bound [] := ⟨[], List.nodup_nil, nofun, rfl⟩

theorem mono (h : Numbered bound requests) (hle : bound ≤ bound') : Numbered bound' requests := by
  obtain ⟨numbers, hnodup, hlt, heq⟩ := h
  exact ⟨numbers, hnodup, fun n hn => (hlt n hn).trans_le hle, heq⟩

theorem sublist (h : Numbered bound requests) (hs : requests'.Sublist requests) :
    Numbered bound requests' := by
  obtain ⟨numbers, hnodup, hlt, rfl⟩ := h
  obtain ⟨numbers', hsub, rfl⟩ := List.sublist_map_iff.mp hs
  exact ⟨numbers', hnodup.sublist hsub, fun n hn => hlt n (hsub.subset hn), rfl⟩

/-- The next number is a new one. -/
theorem concat (h : Numbered bound requests) :
    Numbered (bound + 1) (requests ++ [.numbered bound]) := by
  obtain ⟨numbers, hnodup, hlt, rfl⟩ := h
  refine ⟨numbers ++ [bound], ?_, fun n hn => ?_, by rw [List.map_append]; rfl⟩
  · refine List.nodup_append.mpr ⟨hnodup, List.nodup_singleton _, fun n hn n' hn' => ?_⟩
    exact List.mem_singleton.mp hn' ▸ (hlt n hn).ne
  · rcases List.mem_append.mp hn with hn | hn
    · exact Nat.lt_succ_of_lt (hlt n hn)
    · exact List.mem_singleton.mp hn ▸ Nat.lt_succ_self _

/-- **Different numbers are different identifiers**, as long as there are
enough of them. -/
theorem nodup (h : Numbered bound requests) (hbound : bound ≤ 2 ^ 128) : requests.Nodup := by
  obtain ⟨numbers, hnodup, hlt, rfl⟩ := h
  refine hnodup.map_on fun n hn n' hn' heq => ?_
  have hvalue := congrArg BitVec.toNat (RequestId.mk.inj heq)
  rwa [BitVec.toNat_ofNat, BitVec.toNat_ofNat, Nat.mod_eq_of_lt ((hlt n hn).trans_le hbound),
    Nat.mod_eq_of_lt ((hlt n' hn').trans_le hbound)] at hvalue

end Numbered

namespace Client

variable {c c' : Client} {s : Step}

/-! ### What leaves the link is taken up -/

/-- **A step takes up what left the link**: calls are answered and none is
made, transports are asked for as the link says, and the caller of a command
still waits, or is told what the link says and waits no more. -/
structure Absorbs (outputs : List Link.Output) (c : Client) (s : Step) : Prop where
  link : s.1.link = c.link
  fresh : s.1.fresh = c.fresh
  calls : ∀ caller what, s.1.calls.get? caller = some what → c.calls.get? caller = some what
  connects : ∀ epoch, .connect epoch ∈ s.2 → .connect epoch ∈ outputs
  commands : ∀ caller, c.calls.get? caller = some .command →
    (s.1.calls.get? caller = some .command ∧ caller ∉ Connection.answered (Link.replies outputs))
      ∨ (s.1.calls.get? caller = none
        ∧ ∃ result, (caller, result) ∈ Link.replies outputs
          ∧ .finish caller (.submitted result) ∈ s.2)

theorem absorbs_nil (c : Client) : Absorbs [] c (c, []) :=
  ⟨rfl, rfl, fun _ _ => id, nofun, fun _ h => .inl ⟨h, nofun⟩⟩

theorem Absorbs.andThen {outputs outputs' : List Link.Output} {f : Client → Step}
    (h : Absorbs outputs c s) (hf : Absorbs outputs' s.1 (f s.1)) :
    Absorbs (outputs ++ outputs') c (s.andThen f) where
  link := hf.link.trans h.link
  fresh := hf.fresh.trans h.fresh
  calls caller what hcall := h.calls caller what (hf.calls caller what hcall)
  connects epoch he := by
    rcases List.mem_append.mp he with he | he
    · exact List.mem_append_left _ (h.connects epoch he)
    · exact List.mem_append_right _ (hf.connects epoch he)
  commands caller hcall := by
    rw [Link.replies_append, answered_append]
    rcases h.commands caller hcall with ⟨hopen, hnot⟩ | ⟨hclosed, result, hr, hfinish⟩
    · rcases hf.commands caller hopen with ⟨hopen, hnot'⟩ | ⟨hclosed, result, hr, hfinish⟩
      · exact .inl ⟨hopen, fun hmem => (List.mem_append.mp hmem).elim hnot hnot'⟩
      · exact .inr ⟨hclosed, result, List.mem_append_right _ hr, List.mem_append_right _ hfinish⟩
    · refine .inr ⟨?_, result, List.mem_append_left _ hr, List.mem_append_left _ hfinish⟩
      -- a call that is over is not made again
      refine Option.eq_none_iff_forall_ne_some.mpr fun what hwhat => ?_
      cases hclosed.symm.trans (hf.calls caller what hwhat)

/-- What answers nobody is passed on, or kept. -/
theorem Absorbs.of_silent {o : Link.Output} (ho : o.reply? = none) (hlink : s.1.link = c.link)
    (hfresh : s.1.fresh = c.fresh) (hcalls : s.1.calls = c.calls)
    (hconnects : ∀ epoch, .connect epoch ∈ s.2 → .connect epoch ∈ [o]) : Absorbs [o] c s where
  link := hlink
  fresh := hfresh
  calls _ _ hcall := hcalls ▸ hcall
  connects := hconnects
  commands caller hcall := by
    refine .inl ⟨hcalls ▸ hcall, ?_⟩
    have hnone : Link.replies [o] = [] := List.filterMap_cons_none ho
    rw [hnone]
    nofun

theorem resolve_frame (c : Client) (caller : CallId) (previous : Entry)
    (result : Except Failure.Command Receipt) :
    (c.resolve caller previous result).1.link = c.link
      ∧ (c.resolve caller previous result).1.fresh = c.fresh
      ∧ (c.resolve caller previous result).1.calls = c.calls.erase caller
      ∧ (c.resolve caller previous result).2 = [.finish caller (.submitted result)] := by
  cases result <;> exact ⟨rfl, rfl, rfl, rfl⟩

theorem absorbs_answered (c : Client) (caller : CallId) (result : Except Failure.Command Receipt) :
    Absorbs [.reply caller result] c (c.answered caller result) := by
  -- whichever kind of call it is, the answer closes it, or it waits for none
  have hclosed {s : Step} (hlink : s.1.link = c.link) (hfresh : s.1.fresh = c.fresh)
      (hcalls : s.1.calls = c.calls.erase caller)
      (hs : s.2 = [.finish caller (.submitted result)]) : Absorbs [.reply caller result] c s := by
    refine ⟨hlink, hfresh, fun k what hcall => ?_, fun epoch he => ?_, fun k hcall => ?_⟩
    · exact Table.get?_of_erase (hcalls ▸ hcall)
    · rw [hs] at he
      cases List.mem_singleton.mp he
    · rw [hcalls, Table.get?_erase]
      by_cases hk : caller = k
      · subst hk
        rw [if_pos rfl]
        exact .inr ⟨rfl, result, List.mem_singleton_self _, hs ▸ List.mem_singleton_self _⟩
      · rw [if_neg hk]
        exact .inl ⟨hcall, fun hmem => hk (List.mem_singleton.mp hmem).symm⟩
  have hstill (hcall : c.calls.get? caller ≠ some .command) :
      Absorbs [.reply caller result] c c.still := by
    refine ⟨rfl, rfl, fun _ _ => id, nofun, fun k hk => .inl ⟨hk, fun hmem => ?_⟩⟩
    cases List.mem_singleton.mp hmem
    exact hcall hk
  unfold Client.answered
  split
  · exact hclosed rfl rfl rfl rfl
  · rename_i hcall
    split
    · obtain ⟨hlink, hfresh, hcalls, hs⟩ := c.resolve_frame caller _ result
      exact hclosed hlink hfresh hcalls hs
    · exact hstill fun heq => by cases hcall.symm.trans heq
  · rename_i hcommand _
    exact hstill hcommand

theorem absorbs_absorb (c : Client) (o : Link.Output) : Absorbs [o] c (c.absorb o) := by
  cases o with
  | reply caller result => exact absorbs_answered c caller result
  | report r =>
    refine .of_silent rfl ?_ ?_ ?_ nofun
    all_goals
      dsimp only [absorb, still]
      split <;> rfl
  | connect epoch => exact .of_silent rfl rfl rfl rfl fun _ h => by simpa [absorb] using h
  | publish | send | close =>
    exact .of_silent rfl rfl rfl rfl fun _ h => by simp [absorb, still] at h

theorem absorbs_onLink (c : Client) (s : Link.Step) :
    Absorbs s.2 { c with link := s.1 } (c.onLink s) := by
  unfold onLink
  generalize s.2 = outputs
  induction outputs using List.reverseRecOn with
  | nil => exact absorbs_nil _
  | append_singleton outputs o ih =>
    rw [List.foldl_append]
    exact ih.andThen (f := (absorb · o)) (absorbs_absorb _ o)

/-! ### The account -/

/-- **What a client keeps account of.** Identifiers in use are different, and
whoever waits for the answer to a command is outstanding at the link. -/
structure Accounted (c : Client) : Prop where
  link : c.link.IsTight
  numbered : Numbered c.fresh c.link.inUse
  outstanding : c.fresh ≤ 2 ^ 128 → ∀ caller, c.calls.get? caller = some .command →
    caller ∈ c.link.outstanding

theorem accounted_start (config : Config) (host : Host.Condition) :
    (start config host).Accounted where
  link := Link.isTight_start config host.isActive
  numbered := .nil
  outstanding := nofun

/-- Nobody waits for a manager that has stopped. -/
theorem Accounted.get?_ne_of_stopped (h : c.Accounted) (hfresh : c.fresh ≤ 2 ^ 128)
    (hs : c.link.manager.stopped = true) (caller : CallId) :
    c.calls.get? caller ≠ some .command := fun hcall => by
  have hmem := h.outstanding hfresh caller hcall
  rw [(h.link.atRest hs).outstanding] at hmem
  cases hmem

/-- **A step keeps the account**, and what it owes callers when the manager
stops is paid. -/
structure Accounts (c : Client) (s : Step) : Prop where
  after : s.1.Accounted
  fresh : c.fresh ≤ s.1.fresh
  /-- A manager that has stopped does not go on, and asks for no transport. -/
  stopped : c.link.manager.stopped = true →
    s.1.link.manager.stopped = true ∧ ∀ epoch, .connect epoch ∉ s.2
  /-- The command to shut down is not lost. -/
  closing : c.link.IsClosing → s.1.link.IsClosing
  /-- Whoever waits when the manager stops is told that the command failed. -/
  told : s.1.fresh ≤ 2 ^ 128 → s.1.link.manager.stopped = true →
    ∀ caller, c.calls.get? caller = some .command →
      ∃ text, .finish caller (.submitted (.error (.delivery text))) ∈ s.2

/-- **A step apart from the link**: no transport is asked for, and no new
caller waits for the answer to a command. -/
structure Apart (c : Client) (s : Step) : Prop where
  link : s.1.link = c.link
  calls : ∀ caller, s.1.calls.get? caller = some .command → c.calls.get? caller = some .command
  fresh : c.fresh ≤ s.1.fresh
  connects : ∀ epoch, .connect epoch ∉ s.2

theorem apart_of_eq (hlink : c'.link = c.link) (hcalls : c'.calls = c.calls)
    (hfresh : c.fresh ≤ c'.fresh) : c.Apart c'.still :=
  ⟨hlink, fun _ hcall => hcalls ▸ hcall, hfresh, nofun⟩

theorem Apart.andThen {f : Client → Step} (h : c.Apart s) (hf : s.1.Apart (f s.1)) :
    c.Apart (s.andThen f) where
  link := hf.link.trans h.link
  calls caller hcall := h.calls caller (hf.calls caller hcall)
  fresh := h.fresh.trans hf.fresh
  connects epoch he := (List.mem_append.mp he).elim (h.connects epoch) (hf.connects epoch)

/-- Nobody waits longer because a call is over. -/
theorem apart_of_finish {caller : CallId} {result : CallResult} (hlink : s.1.link = c.link)
    (hcalls : s.1.calls = c.calls.erase caller) (hfresh : c.fresh ≤ s.1.fresh)
    (hs : s.2 = [.finish caller result]) : c.Apart s where
  link := hlink
  calls _ hcall := Table.get?_of_erase (hcalls ▸ hcall)
  fresh := hfresh
  connects epoch he := by
    rw [hs] at he
    cases List.mem_singleton.mp he

/-- Most moves do not touch the link. -/
theorem Accounted.of_apart (h : c.Accounted) (hs : c.Apart s) : c.Accounts s where
  after := by
    refine ⟨hs.link ▸ h.link, hs.link ▸ h.numbered.mono hs.fresh, fun hbound caller hcall => ?_⟩
    rw [hs.link]
    exact h.outstanding (hs.fresh.trans hbound) caller (hs.calls caller hcall)
  fresh := hs.fresh
  stopped hstopped := ⟨hs.link ▸ hstopped, hs.connects⟩
  closing hclosing := hs.link ▸ hclosing
  told hbound hstopped caller hcall :=
    absurd hcall (h.get?_ne_of_stopped (hs.fresh.trans hbound) (hs.link ▸ hstopped) caller)

/-- Before the link moves, other things may. -/
theorem Accounts.after_change (h : c'.Accounts s) (hlink : c'.link = c.link)
    (hcalls : ∀ caller, c.calls.get? caller = some .command →
      c'.calls.get? caller = some .command)
    (hfresh : c.fresh ≤ c'.fresh) : c.Accounts s where
  after := h.after
  fresh := hfresh.trans h.fresh
  stopped hs := h.stopped (hlink ▸ hs)
  closing hclosing := h.closing (hlink ▸ hclosing)
  told hbound hs caller hcall := h.told hbound hs caller (hcalls caller hcall)

/-- **The link moves, and the client takes up what leaves it.** -/
theorem accounts_onLink (hlink : c.link.IsTight) {t : Link.Moment}
    (hwaiting : t.waiting = c.calls.contains)
    (hnumbered : Numbered c.fresh (c.link.inUse ++ requests (Link.asked [t])))
    (houtstanding : c.fresh ≤ 2 ^ 128 → ∀ caller, c.calls.get? caller = some .command →
      caller ∈ callers (Link.asked [t]) ++ c.link.outstanding) :
    c.Accounts (c.onLink (c.link.step t)) := by
  have habsorbs := absorbs_onLink c (c.link.step t)
  have hnext := hlink.step t
  have hstep {caller : CallId} (hbound : c.fresh ≤ 2 ^ 128)
      (hcall : c.calls.get? caller = some .command) :
      caller ∈ Connection.answered (Link.replies (c.link.step t).2)
        ∨ caller ∈ (c.link.step t).1.outstanding := by
    refine hlink.sound.answered_or_outstanding t ?_ (houtstanding hbound caller hcall) ?_
    · exact (hnumbered.nodup hbound).sublist (List.sublist_append_left ..)
    · rw [hwaiting, Table.contains, hcall]
      rfl
  refine ⟨⟨habsorbs.link ▸ hnext, ?_, fun hbound caller hcall => ?_⟩, habsorbs.fresh.ge,
    fun hs => ⟨?_, fun epoch he => ?_⟩, fun hclosing => ?_, fun hbound hs caller hcall => ?_⟩
  · rw [habsorbs.link, habsorbs.fresh]
    exact hnumbered.sublist (hlink.sound.in_use_step t)
  · have hopen : c.calls.get? caller = some .command := habsorbs.calls caller _ hcall
    rw [habsorbs.link]
    refine (hstep (habsorbs.fresh ▸ hbound) hopen).resolve_left ?_
    rcases habsorbs.commands caller hopen with ⟨-, hnot⟩ | ⟨hclosed, -⟩
    · exact hnot
    · cases hclosed.symm.trans hcall
  · rw [habsorbs.link]
    exact Link.stopped_step hs t
  · have hgoing : c.link.manager.stopped = false :=
      Link.fitting_step c.link t _ (habsorbs.connects epoch he)
    exact Bool.false_ne_true (hgoing.symm.trans hs)
  · rw [habsorbs.link]
    exact Link.IsClosing.step hclosing t
  · rw [habsorbs.link] at hs
    have hanswered : caller ∈ Connection.answered (Link.replies (c.link.step t).2) := by
      refine (hstep (habsorbs.fresh ▸ hbound) hcall).resolve_right fun hout => ?_
      have hout : caller ∈ (c.link.step t).1.outstanding := hout
      rw [(hnext.atRest hs).outstanding] at hout
      cases hout
    rcases habsorbs.commands caller hcall with ⟨-, hnot⟩ | ⟨-, result, hr, hfinish⟩
    · exact absurd hanswered hnot
    · obtain ⟨text, rfl⟩ := hlink.sound.error_of_stopped hs hr
      exact ⟨text, hfinish⟩

/-- What the link sees when it moves. -/
def moment (c : Client) (move : Link.Move) : Link.Moment :=
  ⟨c.now, c.engine.interests.topics, c.calls.contains, move⟩

/-- The link moves, and nobody asks for anything. -/
theorem Accounted.onLink (h : c.Accounted) (move : Link.Move)
    (hrequests : requests (Link.asked [c.moment move]) = []) :
    c.Accounts (c.onLink (c.link.step (c.moment move))) :=
  accounts_onLink h.link rfl (by rw [hrequests, List.append_nil]; exact h.numbered)
    fun hbound caller hcall => List.mem_append_right _ (h.outstanding hbound caller hcall)

/-- **A command is queued** that nobody waits for. -/
theorem Accounted.enqueue (h : c.Accounted) (command : Command)
    (hcommand : command.request? = none) : c.Accounts (c.enqueue command) :=
  h.onLink (.ask command) (List.filterMap_cons_none hcommand)

/-- **A command is queued with an identifier of its own**, for a caller whom
the account may already have. -/
theorem accounts_sendCommand (hlink : c.link.IsTight) (hnumbered : Numbered c.fresh c.link.inUse)
    {caller : CallId} (houtstanding : c.fresh ≤ 2 ^ 128 → ∀ k, c.calls.get? k = some .command →
      k = caller ∨ k ∈ c.link.outstanding) (id : EntityId) (version : Version) (action : Action) :
    c.Accounts (c.sendCommand caller id version action) := by
  have hsent : c.freshRequest.1.Accounts (c.sendCommand caller id version action) := by
    refine accounts_onLink (c := c.freshRequest.1)
      (t := c.moment (.ask (.submit (.numbered c.fresh) id version action caller))) hlink rfl
      hnumbered.concat fun hbound k hk => ?_
    exact List.mem_cons.mpr (houtstanding ((Nat.le_succ _).trans hbound) k hk)
  exact hsent.after_change rfl (fun _ hcall => hcall) (Nat.le_succ _)

/-! ### The moves -/

/-- A call of another kind is not one for the answer to a command. -/
theorem get?_of_call (what : Call) (hwhat : what ≠ .command) {caller : CallId}
    (h : (c.call what).1.calls.get? caller = some .command) :
    c.calls.get? caller = some .command := by
  have h : (c.calls.insert c.fresh what).get? caller = some .command := h
  rw [Table.get?_insert] at h
  split at h
  · exact absurd (Option.some.inj h) hwhat
  · exact h

theorem apart_startFetch (c : Client) (id : EntityId) (force : Bool) (purpose : Purpose) :
    c.Apart (c.startFetch id force purpose) :=
  ⟨rfl, fun _ hcall => hcall, Nat.le_succ _, fun _ he => by cases List.mem_singleton.mp he⟩

/-- A user waits for a fetch. -/
theorem apart_call (c : Client) (what : Call) (hwhat : what ≠ .command) :
    c.Apart (c.call what).1.still :=
  ⟨rfl, fun _ => get?_of_call what hwhat, Nat.le_succ _, nofun⟩

theorem apart_resolve (c : Client) (caller : CallId) (previous : Entry)
    (result : Except Failure.Command Receipt) : c.Apart (c.resolve caller previous result) := by
  obtain ⟨hlink, hfresh, hcalls, hs⟩ := c.resolve_frame caller previous result
  exact apart_of_finish hlink hcalls hfresh.ge hs

theorem apart_endFetch (c : Client) (f : Fetch) (result : Except Failure.Fetch FetchOutcome) :
    c.Apart (c.endFetch f result) := by
  unfold endFetch
  dsimp only
  generalize hu : (c.dropFetches fun g => g.id = f.id).onEngine
    (·.onCache (·.reconcile f.entity (c.dropFetches fun g => g.id = f.id).instant result)) = u
  have hlink : u.1.link = c.link := hu ▸ rfl
  have hcalls : u.1.calls = c.calls := hu ▸ rfl
  have hfresh : u.1.fresh = c.fresh := hu ▸ rfl
  split
  · cases u.2 <;> exact apart_of_finish hlink (congrArg (Table.erase · _) hcalls) hfresh.ge rfl
  · cases u.2 <;> exact apart_of_finish hlink (congrArg (Table.erase · _) hcalls) hfresh.ge rfl
  · obtain ⟨hlink', -, hcalls', -, -, hfresh'⟩ := u.1.endResyncFetch_frame f.entity u.2
    exact apart_of_eq (hlink'.trans hlink) (hcalls'.trans hcalls) (hfresh'.trans hfresh).ge
  · exact apart_of_eq hlink hcalls hfresh.ge

theorem Apart.startFetches (h : c.Apart s) (ids : List EntityId) :
    c.Apart (ids.foldl (fun s id => s.andThen (startFetch · id true .resync)) s) := by
  induction ids generalizing s with
  | nil => exact h
  | cons id ids ih => exact ih (h.andThen (apart_startFetch ..))

theorem apart_resynchronize (c : Client) (epoch : Epoch) : c.Apart (c.resynchronize epoch) := by
  unfold resynchronize
  dsimp only
  split
  · exact apart_of_eq rfl rfl (Nat.le_refl _)
  · refine Apart.startFetches ?_ _
    exact apart_of_eq rfl rfl (Nat.le_refl _)

theorem apart_route (c : Client) : c.Apart c.route := by
  unfold route
  split
  · exact apart_of_eq rfl rfl (Nat.le_refl _)
  · rename_i r rest _
    cases r with
    | established epoch user =>
      have hrest : c.Apart ({ c with reports := rest } : Client).still :=
        apart_of_eq rfl rfl (Nat.le_refl _)
      exact hrest.andThen (f := (resynchronize · epoch)) (apart_resynchronize ..)
    | frame f => cases f <;> exact apart_of_eq rfl rfl (Nat.le_refl _)
    | failed error => exact apart_of_eq rfl rfl (Nat.le_refl _)

theorem apart_lookAgain (c : Client) (caller : CallId) : c.Apart (c.lookAgain caller) := by
  unfold lookAgain
  split
  · split
    · exact apart_of_finish rfl rfl (Nat.le_refl _) rfl
    · split
      · exact apart_of_finish rfl rfl (Nat.le_refl _) rfl
      · exact apart_of_eq rfl rfl (Nat.le_refl _)
  · exact apart_of_eq rfl rfl (Nat.le_refl _)

theorem apart_wakeWatchdog (c : Client) (id : EntityId) : c.Apart (c.wakeWatchdog id) := by
  unfold wakeWatchdog
  dsimp only
  split
  · exact ⟨rfl, fun _ hcall => hcall, Nat.le_succ _, fun _ he => by cases List.mem_singleton.mp he⟩
  · exact apart_of_eq rfl rfl (Nat.le_refl _)

theorem apart_fetched (c : Client) (id : FetchId) (result : Except Failure.Fetch FetchOutcome) :
    c.Apart (c.fetched id result) := by
  unfold fetched
  split
  · exact apart_endFetch ..
  · exact apart_of_eq rfl rfl (Nat.le_refl _)

theorem apart_fetchTimer (c : Client) (id : FetchId) : c.Apart (c.fetchTimer id) := by
  unfold fetchTimer
  split
  · split
    · exact apart_endFetch ..
    · exact apart_of_eq rfl rfl (Nat.le_refl _)
  · exact apart_of_eq rfl rfl (Nat.le_refl _)

theorem apart_submitted (c : Client) (caller : CallId)
    (result : Except Failure.Command Receipt) : c.Apart (c.submitted caller result) := by
  unfold submitted
  split
  · exact apart_resolve ..
  · exact apart_of_eq rfl rfl (Nat.le_refl _)

theorem apart_commandTimer (c : Client) (caller : CallId) : c.Apart (c.commandTimer caller) := by
  unfold commandTimer
  split
  · split
    · exact apart_resolve ..
    · exact apart_of_eq rfl rfl (Nat.le_refl _)
  · exact apart_of_eq rfl rfl (Nat.le_refl _)

theorem apart_detect (c : Client) : c.Apart c.detect.still := by
  unfold detect
  split
  · exact apart_of_eq rfl rfl (Nat.le_refl _)
  · exact apart_of_eq rfl rfl (Nat.le_refl _)

/-- Something is queued after a change that the link does not see. -/
theorem Accounted.enqueue_after (h : c.Accounted) (hlink : c'.link = c.link)
    (hcalls : c'.calls = c.calls) (hfresh : c'.fresh = c.fresh) {command : Command}
    (hcommand : command.request? = none) : c.Accounts (c'.enqueue command) := by
  have hnext : c'.Accounted := (h.of_apart (apart_of_eq hlink hcalls hfresh.ge)).after
  exact (hnext.enqueue command hcommand).after_change hlink (fun _ hcall => hcalls ▸ hcall)
    hfresh.ge

theorem Accounted.dispatch (h : c.Accounted) (caller : CallId) (m : Mutation) (previous : Entry)
    (route : Route) : c.Accounts (c.dispatch caller m previous route) := by
  cases route with
  | live =>
    exact accounts_sendCommand h.link h.numbered
      (fun hbound k hk => .inr (h.outstanding hbound k hk)) _ _ _
  | api =>
    exact h.of_apart ⟨rfl, fun _ hcall => hcall, Nat.le_refl _,
      fun _ he => by cases List.mem_singleton.mp he⟩

theorem Accounted.enter (h : c.Accounted) (caller : CallId) : c.Accounts (c.enter caller) := by
  have hstill : c.Accounts c.still := h.of_apart (apart_of_eq rfl rfl (Nat.le_refl _))
  unfold Client.enter
  split
  · rename_i s _
    split
    · have hturn : c.Apart (c.onCoordinator (·.enter · s c.routeNow c.instant
          (c.now + c.config.commandTimeout.nanos))).1.still :=
        apart_of_eq rfl rfl (Nat.le_refl _)
      dsimp only
      split
      · exact ((h.of_apart hturn).after.dispatch caller _ _ _).after_change rfl
          (fun _ hcall => hcall) (Nat.le_refl _)
      · exact h.of_apart (apart_of_finish rfl rfl (Nat.le_refl _) rfl)
    · exact hstill
  · exact hstill

theorem Accounted.shutdown (h : c.Accounted) : c.Accounts c.shutdown := by
  unfold Client.shutdown
  split
  · refine h.enqueue_after ?_ ?_ ?_ ?_ <;> rfl
  · exact h.of_apart (apart_of_eq rfl rfl (Nat.le_refl _))

theorem Accounted.subscribe (h : c.Accounted) (id : EntityId) (seat : Option Seat) :
    c.Accounts (c.subscribe id seat) := by
  unfold Client.subscribe
  dsimp only
  split
  · refine h.enqueue_after ?_ ?_ ?_ ?_ <;> rfl
  · exact h.of_apart (apart_of_eq rfl rfl (Nat.le_refl _))

theorem Accounted.unsubscribe (h : c.Accounted) (handle : Nat) :
    c.Accounts (c.unsubscribe handle) := by
  unfold Client.unsubscribe
  split
  · dsimp only
    split
    · refine h.enqueue_after ?_ ?_ ?_ ?_ <;> rfl
    · exact h.of_apart (apart_of_eq rfl rfl (Nat.le_refl _))
  · exact h.of_apart (apart_of_eq rfl rfl (Nat.le_refl _))

theorem Accounted.manageHost (h : c.Accounted) : c.Accounts c.manageHost := by
  have hsame (host : Host) : c.Apart ({ c with host := host } : Client).still :=
    apart_of_eq rfl rfl (Nat.le_refl _)
  unfold Client.manageHost
  split
  · exact h.of_apart (apart_of_eq rfl rfl (Nat.le_refl _))
  · dsimp only
    split
    · rename_i a _
      exact ((h.of_apart (hsame _)).after.onLink (.takeHost a.active) rfl).after_change rfl
        (fun _ hcall => hcall) (Nat.le_refl _)
    · exact h.of_apart (hsame _)
    · exact h.of_apart (hsame _)

/-- **A user sends a command**, and from then on waits for the answer. -/
theorem Accounted.command (h : c.Accounted) (id : EntityId) (version : Version) (action : Action) :
    c.Accounts (c.command id version action) := by
  have hsent : (c.call .command).1.Accounts (c.command id version action) := by
    refine accounts_sendCommand (c := (c.call .command).1) h.link
      (h.numbered.mono (Nat.le_succ _)) (fun hbound k hk => ?_) _ _ _
    have hk : (c.calls.insert c.fresh .command).get? k = some .command := hk
    rw [Table.get?_insert] at hk
    split at hk
    · rename_i heq
      exact .inl heq.symm
    · exact .inr (h.outstanding ((Nat.le_succ _).trans hbound) k hk)
  refine hsent.after_change rfl (fun k hk => ?_) (Nat.le_succ _)
  show (c.calls.insert c.fresh .command).get? k = some .command
  rw [Table.get?_insert, hk, ite_self]

/-- **A move keeps the account.** -/
theorem Accounted.step (h : c.Accounted) (m : Move) : c.Accounts (c.step m) := by
  cases m with
  | tick | host | push => exact h.of_apart (apart_of_eq rfl rfl (Nat.le_refl _))
  | submit m =>
    exact h.of_apart ⟨rfl, fun _ => get?_of_call .submit nofun, Nat.le_succ _, nofun⟩
  | wait status => exact h.of_apart (c.apart_call (.wait status) nofun)
  | load id =>
    exact h.of_apart ((c.apart_call .load nofun).andThen
      (f := (startFetch · id false (.load c.fresh))) (apart_startFetch ..))
  | refresh id =>
    exact h.of_apart ((c.apart_call .refresh nofun).andThen
      (f := (startFetch · id true (.refresh c.fresh))) (apart_startFetch ..))
  | connect | disconnect => exact h.enqueue _ rfl
  | shutdown => exact h.shutdown
  | subscribe id seat => exact h.subscribe id seat
  | unsubscribe handle => exact h.unsubscribe handle
  | command id version action => exact h.command id version action
  | abandon caller =>
    exact h.of_apart ⟨rfl, fun _ => Table.get?_of_erase, Nat.le_refl _, nofun⟩
  | manageCommand => exact h.onLink .takeCommand rfl
  | manageInput => exact h.onLink .takeInput rfl
  | manageHost => exact h.manageHost
  | line epoch move => exact h.onLink (.line epoch move) rfl
  | handshakeTimer => exact h.onLink .handshakeTimer rfl
  | retryTimer => exact h.onLink .retryTimer rfl
  | route => exact h.of_apart c.apart_route
  | detect => exact h.of_apart c.apart_detect
  | enter caller => exact h.enter caller
  | lookAgain caller => exact h.of_apart (c.apart_lookAgain caller)
  | watchdog id => exact h.of_apart (c.apart_wakeWatchdog id)
  | fetched id result => exact h.of_apart (c.apart_fetched id result)
  | fetchTimer id => exact h.of_apart (c.apart_fetchTimer id)
  | submitted caller result => exact h.of_apart (c.apart_submitted caller result)
  | commandTimer caller => exact h.of_apart (c.apart_commandTimer caller)

end Client

end LiveSync
