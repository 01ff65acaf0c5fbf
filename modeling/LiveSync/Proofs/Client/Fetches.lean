import LiveSync.Proofs.Client.Changes
import LiveSync.Proofs.Client.Moments

/-!
# Fetches that are over

A fetch may take arbitrarily long, and when its answer comes at last the part
that started it may have gone on to something else. The answer must then come to
nothing. A client sees to that by forgetting the fetch: an answer is taken by the
fetch that has its number, and if there is none it is dropped.

For that no number may be given out twice, or a late answer would be taken for
that of another fetch. Numbers are counted up (`Client.Enumerated`), so a number
that was given out and is in flight no more is **over** for good
(`Client.IsOver`), in every run that follows.

One use of it is a new connection. It calls off the resynchronization of an
earlier one (`newer_connection_supersedes`), but only if there is something that it
fetches itself. Otherwise the earlier one goes on (`unsubscribed_resync_goes_on`).
-/

namespace LiveSync

open LiveSync.Connection

namespace Client

variable {c c' : Client} {m : Move} {s : Step} {id : FetchId}

/-! ### Numbers -/

/-- **Fetches have different numbers**, all of which were given out. -/
structure Enumerated (c : Client) : Prop where
  nodup : (c.fetches.map Fetch.id).Nodup
  lt : ∀ f ∈ c.fetches, f.id < c.fresh

theorem enumerated_start (config : Config) (host : Host.Condition) :
    (start config host).Enumerated where
  nodup := List.nodup_nil
  lt := nofun

theorem Enumerated.of_sublist (h : c.Enumerated) (hsub : c'.fetches.Sublist c.fetches)
    (hfresh : c.fresh ≤ c'.fresh) : c'.Enumerated where
  nodup := h.nodup.sublist (hsub.map _)
  lt f hf := (h.lt f (hsub.subset hf)).trans_le hfresh

theorem Enumerated.startFetch (h : c.Enumerated) (id : EntityId) (force : Bool)
    (purpose : Purpose) : (c.startFetch id force purpose).1.Enumerated where
  nodup := by
    simp only [Client.startFetch, List.map_append, List.map_cons, List.map_nil]
    refine List.nodup_append.mpr ⟨h.nodup, List.nodup_singleton _, fun n hn n' hn' => ?_⟩
    obtain ⟨f, hf, rfl⟩ := List.mem_map.mp hn
    exact List.mem_singleton.mp hn' ▸ (h.lt f hf).ne
  lt f hf := by
    rcases List.mem_append.mp hf with hf | hf
    · exact Nat.lt_succ_of_lt (h.lt f hf)
    · rw [List.mem_singleton.mp hf]
      exact Nat.lt_succ_self _

/-- Two fetches with one number are one fetch. -/
theorem Enumerated.eq_of_id (h : c.Enumerated) {f g : Fetch} (hf : f ∈ c.fetches)
    (hg : g ∈ c.fetches) (hid : f.id = g.id) : f = g :=
  List.inj_on_of_nodup_map h.nodup hf hg hid

/-- **A fetch is found by its number.** -/
theorem Enumerated.find?_of_mem (h : c.Enumerated) {f : Fetch} (hf : f ∈ c.fetches) :
    c.fetches.find? (fun g => g.id = f.id) = some f := by
  cases hfind : c.fetches.find? fun g => g.id = f.id with
  | none => exact absurd (decide_eq_true rfl) (List.find?_eq_none.mp hfind f hf)
  | some g =>
    have hid : g.id = f.id := by simpa using List.find?_some hfind
    rw [h.eq_of_id (List.mem_of_find?_eq_some hfind) hf hid]

/-- **A fetch after a change** was there before, or has a new number. -/
theorem Change.fetches (h : Change m c s) :
    c.fresh ≤ s.1.fresh ∧ ∀ f ∈ s.1.fetches, f ∈ c.fetches ∨ c.fresh ≤ f.id := by
  cases h with
  | aside h =>
    have hfetches : s.1.fetches = c.fetches := congrArg Core.fetches h.core
    exact ⟨h.fresh, fun f hf => .inl (hfetches ▸ hf)⟩
  | accept => exact ⟨Nat.le_refl _, fun f hf => .inl (List.mem_filter.mp hf).1⟩
  | drop p => exact ⟨Nat.le_refl _, fun f hf => .inl (List.mem_filter.mp hf).1⟩
  | fetch id force purpose =>
    refine ⟨Nat.le_succ _, fun f hf => (List.mem_append.mp hf).imp_right fun hf => ?_⟩
    rw [List.mem_singleton.mp hf]
  | tick | world | perform | hold | letGo => exact ⟨Nat.le_refl _, fun f hf => .inl hf⟩

theorem Course.fetches (h : Course m c s) :
    c.fresh ≤ s.1.fresh ∧ ∀ f ∈ s.1.fetches, f ∈ c.fetches ∨ c.fresh ≤ f.id := by
  induction h with
  | still => exact ⟨Nat.le_refl _, fun _ => .inl⟩
  | go _ change ih =>
    obtain ⟨hfresh, hmem⟩ := change.fetches
    refine ⟨ih.1.trans hfresh, fun f hf => ?_⟩
    exact (hmem f hf).elim (ih.2 f) fun hnew => .inr (ih.1.trans hnew)

theorem Enumerated.change (h : c.Enumerated) (hchange : Change m c s) : s.1.Enumerated := by
  cases hchange with
  | aside hbeside =>
    have hfetches : s.1.fetches = c.fetches := congrArg Core.fetches hbeside.core
    exact h.of_sublist (hfetches ▸ .refl _) hbeside.fresh
  | accept => exact h.of_sublist List.filter_sublist (Nat.le_refl _)
  | drop p => exact h.of_sublist List.filter_sublist (Nat.le_refl _)
  | fetch id force purpose => exact h.startFetch id force purpose
  | tick | world | perform | hold | letGo => exact h.of_sublist (.refl _) (Nat.le_refl _)

theorem Enumerated.course (h : c.Enumerated) (hcourse : Course m c s) : s.1.Enumerated := by
  induction hcourse with
  | still => exact h
  | @go s t _ change ih =>
    show t.1.Enumerated
    exact ih.change change

/-! ### Runs -/

/-- **What each move keeps of a client whose commands take turns, a run keeps.** -/
theorem InTurn.run_induction {P : Client → Prop} (h : c.InTurn)
    (step : ∀ d m, d.InTurn → P d → P (d.step m).1) (hc : P c) (moves : List Move) :
    P (c.run moves).1 := by
  induction moves using List.reverseRecOn with
  | nil => exact hc
  | append_singleton moves m ih =>
    rw [run_concat]
    exact step _ m (inTurn_run h moves) ih

theorem enumerated_run (config : Config) (host : Host.Condition) (moves : List Move) :
    ((start config host).run moves).1.Enumerated :=
  (inTurn_start config host).run_induction (fun _ m hturn hd => hd.course (hturn.course m))
    (enumerated_start config host) moves

/-- **A fetch after a run** was there before, or has a new number. -/
theorem InTurn.fetches_run (h : c.InTurn) (moves : List Move) :
    c.fresh ≤ (c.run moves).1.fresh
      ∧ ∀ f ∈ (c.run moves).1.fetches, f ∈ c.fetches ∨ c.fresh ≤ f.id := by
  refine h.run_induction (P := fun d => c.fresh ≤ d.fresh
    ∧ ∀ f ∈ d.fetches, f ∈ c.fetches ∨ c.fresh ≤ f.id) (fun d m hturn hd => ?_)
    ⟨Nat.le_refl _, fun _ => .inl⟩ moves
  obtain ⟨hfresh, hmem⟩ := (hturn.course m).fetches
  exact ⟨hd.1.trans hfresh,
    fun f hf => (hmem f hf).elim (hd.2 f) fun hnew => .inr (hd.1.trans hnew)⟩

/-! ### Answers that come to nothing -/

/-- **A fetch is over**: its number was given out, and it is in flight no more. -/
structure IsOver (c : Client) (id : FetchId) : Prop where
  lt : id < c.fresh
  ne : ∀ f ∈ c.fetches, f.id ≠ id

/-- **A fetch that is over stays over.** -/
theorem IsOver.run (h : c.IsOver id) (hturn : c.InTurn) (moves : List Move) :
    (c.run moves).1.IsOver id := by
  obtain ⟨hfresh, hmem⟩ := hturn.fetches_run moves
  refine ⟨h.lt.trans_le hfresh, fun f hf => ?_⟩
  rcases hmem f hf with hold | hnew
  · exact h.ne f hold
  · exact (h.lt.trans_le hnew).ne'

/-- **Whatever becomes of the fetch, the client takes no notice.** -/
def Ignores (c : Client) (id : FetchId) : Prop :=
  (∀ result, c.step (.fetched id result) = c.still) ∧ c.step (.fetchTimer id) = c.still

theorem IsOver.ignores (h : c.IsOver id) : c.Ignores id := by
  have hnone : c.fetches.find? (fun f => f.id = id) = none :=
    List.find?_eq_none.mpr fun f hf heq => h.ne f hf (of_decide_eq_true heq)
  refine ⟨fun result => ?_, ?_⟩
  · simp only [step, fetched, hnone]
  · simp only [step, fetchTimer, hnone]

/-! ### A newer connection -/

/-- **The fetches of a resynchronization** that starts now. -/
def resyncFetches (c : Client) (ids : List EntityId) : List Fetch :=
  (ids.zipIdx c.fresh).map fun p => ⟨p.2, p.1, c.now + c.config.fetchTimeout.nanos, .resync⟩

/-- What it asks for: every entity once, and none of them conditionally. -/
def resyncActions (c : Client) (ids : List EntityId) : List ClientAction :=
  (ids.zipIdx c.fresh).map fun p => .fetch p.2 p.1 none

theorem foldl_startFetch (c : Client) (ids : List EntityId) (actions : List ClientAction) :
    ids.foldl (fun s id => Step.andThen s (startFetch · id true .resync)) (c, actions)
      = ({ c with
          fetches := c.fetches ++ c.resyncFetches ids
          fresh := c.fresh + ids.length }, actions ++ c.resyncActions ids) := by
  induction ids generalizing c actions with
  | nil => simp [resyncFetches, resyncActions]
  | cons id ids ih =>
    rw [List.foldl_cons, Step.andThen, ih]
    simp only [startFetch, resyncFetches, resyncActions, List.zipIdx_cons, List.map_cons,
      List.append_assoc, List.singleton_append, List.length_cons, Nat.add_assoc, Nat.add_comm 1]
    rfl

/-- **What a new connection starts**, if there is something to fetch. The fetches
of an earlier resynchronization are called off. -/
theorem resynchronize_eq (c : Client) (epoch : Epoch)
    (hne : c.engine.interests.topics.map Topic.entityId ≠ []) :
    c.resynchronize epoch
      = ({ c.setGlobalError none with
          resync := some (.start epoch (c.engine.interests.topics.map Topic.entityId))
          fetches := (c.dropFetches (·.purpose = .resync)).fetches
            ++ c.resyncFetches (c.engine.interests.topics.map Topic.entityId)
          fresh := c.fresh + (c.engine.interests.topics.map Topic.entityId).length },
        c.resyncActions (c.engine.interests.topics.map Topic.entityId)) := by
  unfold resynchronize
  dsimp only
  split
  · rename_i hnil
    exact absurd hnil hne
  · rw [foldl_startFetch]
    rfl

/-- **What is in flight after it** was so before, for another purpose, or is new. -/
theorem mem_fetches_resynchronize (c : Client) (epoch : Epoch)
    (hne : c.engine.interests.topics.map Topic.entityId ≠ []) :
    ∀ f ∈ (c.resynchronize epoch).1.fetches,
      f ∈ c.fetches ∧ f.purpose ≠ .resync ∨ c.fresh ≤ f.id := by
  intro f hf
  rw [resynchronize_eq c epoch hne] at hf
  rcases List.mem_append.mp hf with hf | hf
  · obtain ⟨hmem, hpurpose⟩ := mem_dropFetches.mp hf
    exact .inl ⟨hmem, of_decide_eq_false hpurpose⟩
  · obtain ⟨p, hp, rfl⟩ := List.mem_map.mp hf
    exact .inr (List.le_snd_of_mem_zipIdx hp)

/-- What the router does when it takes up that a connection was established. -/
theorem step_route_established {epoch : Epoch} {user : Option Int64} {rest : List Report}
    (hreports : c.reports = .established epoch user :: rest) :
    c.step .route = ({ c with reports := rest } : Client).resynchronize epoch := by
  simp only [step, route, hreports]

/-- **A newer connection supersedes an older resynchronization**, if there is
something for it to fetch. Once it has been taken up that it was established, the
resynchronization under way is its own; and whatever happens from then on, no
resynchronization that was under way at any time before applies what it fetches,
or shows an error: its fetches are over, whatever becomes of them, and those that
are in flight for a resynchronization were started for this connection or for a
later one. -/
theorem newer_connection_supersedes (config : Config) (host : Host.Condition)
    (past between later : List Move) {epoch : Epoch} {user : Option Int64} {rest : List Report}
    (hreports : ((start config host).run (past ++ between)).1.reports
      = .established epoch user :: rest)
    (htopics : ((start config host).run (past ++ between)).1.engine.interests.topics ≠ []) :
    let earlier := ((start config host).run past).1
    let before := ((start config host).run (past ++ between)).1
    let after := (before.step .route).1
    let now := (after.run later).1
    after.resync = some (.start epoch (before.engine.interests.topics.map Topic.entityId))
      ∧ (∀ f ∈ earlier.fetches, f.purpose = .resync → now.Ignores f.id)
      ∧ ∀ f ∈ now.fetches, f.purpose = .resync → before.fresh ≤ f.id := by
  intro earlier before after now
  have hturn : before.InTurn := inTurn_run (inTurn_start config host) _
  have hnext : after.InTurn := hturn.step .route
  have hne : before.engine.interests.topics.map Topic.entityId ≠ [] := by simpa using htopics
  have hrun : before = (earlier.run between).1 := run_append _ past between
  have hroute : after = (({ before with reports := rest } : Client).resynchronize epoch).1 :=
    congrArg Prod.fst (step_route_established hreports)
  have hmem : ∀ f ∈ after.fetches, f ∈ before.fetches ∧ f.purpose ≠ .resync
      ∨ before.fresh ≤ f.id := by
    rw [hroute]
    exact mem_fetches_resynchronize { before with reports := rest } epoch hne
  refine ⟨?_, fun f hf hresync => ?_, fun f hf hresync => ?_⟩
  · rw [hroute, resynchronize_eq { before with reports := rest } epoch hne]
  · -- nothing that was in flight for an earlier resynchronization is in flight after the route
    have hearlier := (inTurn_run (inTurn_start config host) past).fetches_run between
    have hlt : f.id < before.fresh :=
      hrun ▸ ((enumerated_run config host past).lt f hf).trans_le hearlier.1
    have hover : after.IsOver f.id := by
      refine ⟨hlt.trans_le (hturn.course .route).fetches.1, fun g hg hid => ?_⟩
      rcases hmem g hg with ⟨hold, hpurpose⟩ | hnew
      · rcases hearlier.2 g (hrun ▸ hold) with hmem | hnew
        · exact hpurpose ((enumerated_run config host past).eq_of_id hmem hf hid ▸ hresync)
        · exact absurd (hid ▸ hnew) (Nat.not_le.mpr ((enumerated_run config host past).lt f hf))
      · exact absurd (hid ▸ hnew) (Nat.not_le.mpr hlt)
    exact (hover.run hnext later).ignores
  · rcases (hnext.fetches_run later).2 f hf with hold | hnew
    · exact (hmem f hold).resolve_left fun h => h.2 hresync
    · exact (hturn.course .route).fetches.1.trans hnew

/-- The moves of a handshake with a number. -/
def handshake (epoch : Epoch) : List Move :=
  [.connect, .manageCommand, .line epoch (.answered none), .manageInput,
    .line epoch (.incoming (.text "\x7b\"type\":\"hello_ack\"\x7d")), .manageInput]

/-- An entity is subscribed to, a first connection is established, and that is taken
up. -/
def firstConnection : List Move :=
  [.subscribe 7 none, .manageCommand] ++ handshake 1 ++ [.route]

/-- A second connection is established. -/
def secondConnection : List Move := [.disconnect, .manageCommand] ++ handshake 3

/-- An entity is subscribed to over two connections, and the fetch that was made for
the first one is answered after the second one has been taken up. -/
theorem newer_connection_supersedes_reconnected :
    ((start .default .initial).run (firstConnection ++ secondConnection)).1.reports
        = [.established 3 none]
      ∧ ((start .default .initial).run
        (firstConnection ++ secondConnection)).1.engine.interests.topics ≠ []
      ∧ ⟨0, 7, 10_000_000_000, .resync⟩
        ∈ ((start .default .initial).run firstConnection).1.fetches
      ∧ ((((start .default .initial).run (firstConnection ++ secondConnection)).1.step
        .route).1.run [.tick 1]).1.Ignores 0 := by
  have hreports : ((start .default .initial).run
      (firstConnection ++ secondConnection)).1.reports = [.established 3 none] := by
    decide +kernel
  have htopics : ((start .default .initial).run
      (firstConnection ++ secondConnection)).1.engine.interests.topics ≠ [] := by
    decide +kernel
  have hfetch : ⟨0, 7, 10_000_000_000, .resync⟩
      ∈ ((start .default .initial).run firstConnection).1.fetches := by decide +kernel
  have hsuperseded := newer_connection_supersedes .default .initial firstConnection
    secondConnection [.tick 1] hreports htopics
  have hignores := hsuperseded.2.1 _ hfetch rfl
  exact ⟨hreports, htopics, hfetch, hignores⟩

/-- The entity is no longer subscribed to when the second connection comes, so that
connection has nothing to fetch. The fetch that was made for the first one goes on:
what it brings is applied, and if it fails that is shown. -/
theorem unsubscribed_resync_goes_on :
    let before := ((start .default .initial).run
      (firstConnection ++ [.unsubscribe 0, .manageCommand] ++ secondConnection)).1
    let after := (before.step .route).1
    let answered := (after.step (.fetched 0 (.ok (.modified (.http 7 6 .null none ⟨0, 0⟩))))).1
    let failed := (after.step (.fetched 0 (.error (.notFound 7)))).1
    before.reports = [.established 3 none] ∧ after.reports = []
      ∧ after.engine.cache.version? 7 = none ∧ answered.engine.cache.version? 7 = some 6
      ∧ after.engine.notice.shown = none ∧ failed.engine.notice.shown ≠ none := by
  decide +kernel

end Client

end LiveSync
