import LiveSync.Http.Api
import LiveSync.Proofs.Cache.Newest
import LiveSync.Proofs.Entity.Validator

/-!
# Fetched states and their validators

A response carries a state and, as a rule, an entity tag. The version of the
state and the validator that is kept with it can both come from two places, the
tag and something else: the version from the body, the validator from the entity
and the version. If the two were paired wrongly, the server would later answer
that nothing has changed to a client that does not have the state.

The pairs that occur are `Api.IsSnapshot`: a tag of the server's shape gives
both, any other tag is kept beside the version of the body, and a state without a
tag gets the token that is derived from its version. That the constructor of
fetched states may replace a tag (`Entry.fetchedValidator`) never shows, because
a tag is only replaced if it names another version.

The validator is read back from the server's entry of the cache and not from
what is shown, so guesses do not matter for it, and no more does what is put back
when they are taken back: the entry that was applied stays, up to its time, until
a newer one of the server takes its place (`Ledger.advances_of_applied`).
-/

namespace LiveSync

theorem Json.int64?_eq_some_iff {v : Json} {w : Int64} :
    v.int64? = some w ↔ v = Json.ofInt64 w := by
  constructor
  · intro h
    obtain ⟨n, hn, hw⟩ := Option.bind_eq_some_iff.mp h
    cases v with
    | int m =>
      obtain rfl := Option.some.inj hn
      rw [Json.ofInt64, (Word.int64?_eq_some_iff _ _).mp hw]
    | null | bool | float | str | arr | obj => cases hn
  · rintro rfl
    exact Json.int64?_ofInt64 w

/-! ### The entry stays -/

namespace Ledger

open Cache Entry

variable {id : EntityId} {e : Entry} {op : Op}

theorem authoritative?_of_isApplied {l : Ledger} (hl : l.Sound)
    (h : (l.cache.apply e).result.isApplied = true) :
    (l.cache.apply e).state.authoritative? e.entityId = some e := by
  rw [hl.cache.result_apply] at h
  rw [hl.cache.authoritative?_apply, if_pos rfl]
  cases ha : l.cache.authoritative? e.entityId with
  | none => rfl
  | some a =>
    rw [ha, Option.elim_some] at h
    split at h
    · rename_i hlt
      rw [adopt, if_pos hlt]
    · cases h

/-- **An entry that was applied advances** with the server's entry: at any later
time the server's entry is the same, up to its time, or a newer one. -/
theorem advances_of_applied (before : List Op) (hop : op.offer? = some e)
    (h : ((run before).cache.apply e).result.isApplied = true) (later : List Op) :
    ∃ a, (run (before ++ op :: later)).cache.authoritative? e.entityId = some a
      ∧ e.Advances a := by
  induction later using List.reverseRecOn with
  | nil =>
    refine ⟨e, ?_, .inl (.refl e)⟩
    rw [run_concat, step_of_offer? hop]
    exact authoritative?_of_isApplied (sound_run before) h
  | append_singleton later next ih =>
    obtain ⟨a, ha, hadv⟩ := ih
    obtain ⟨a', ha', hadv'⟩ := ((sound_run (before ++ op :: later)).step next).2 _ a ha
    rw [← List.cons_append, ← List.append_assoc, run_concat]
    exact ⟨a', ha', hadv.trans hadv'⟩

end Ledger

/-! ### What a response carries -/

namespace Http.Api

open Ledger Cache

variable {api : Api} {id : EntityId} {now : Instant} {r : Response} {body : Json}
  {tag : Option Validator} {version : Version}

/-- **What a successful fetch comes to**: a success is none of the answers that
are told apart by their codes. -/
theorem fetched_of_isSuccess (h : r.status.isSuccess = true) (hbody : bodyOf? r = some body)
    (htag : entityTag? r = tag) :
    api.fetched id now (.answered r)
      = (stateVersion? tag body).elim (.error (.decode versionMissing)) fun version =>
        .ok (.modified (.http id version (wrapped body) tag now)) := by
  have hne (s : Status) (hs : s.isSuccess = false) : r.status ≠ s := by
    rintro rfl
    exact Bool.false_ne_true (hs.symm.trans h)
  rw [fetched, if_neg (hne 304 rfl), if_neg (hne 404 rfl), if_neg (hne 401 rfl), h, stateOf, hbody,
    htag]
  dsimp only
  cases stateVersion? tag body <;> rfl

/-- A tag that is all visible is taken as it is. -/
theorem entityTag?_eq (htag : r.header? "etag" = tag.map Validator.text)
    (hvisible : ∀ t ∈ tag, t.text.toList.all Response.isVisible = true) : entityTag? r = tag := by
  rw [entityTag?, htag]
  cases tag with
  | none => rfl
  | some t => exact if_pos (hvisible t rfl)

theorem bodyVersion?_eq_some_iff :
    bodyVersion? body = some version ↔ body.get? "version" = some (.ofInt64 version) := by
  rw [bodyVersion?, Option.bind_eq_some_iff]
  constructor
  · rintro ⟨v, hv, hw⟩
    rw [hv, Json.int64?_eq_some_iff.mp hw]
  · intro h
    exact ⟨_, h, Json.int64?_ofInt64 version⟩

/-- **The state that a response carries**, given its tag and its body. -/
structure IsSnapshot (id : EntityId) (now : Instant) (tag : Option Validator) (body : Json)
    (e : Entry) : Prop where
  entityId : e.entityId = id
  provenance : e.provenance = .http
  receivedAt : e.receivedAt = now
  /-- A tag of the server's shape names the version, whatever the body says. -/
  version_of_tag : ∀ t ∈ tag, ∀ i v, t.Names i v → e.version = v
  version_of_body : (∀ t ∈ tag, ∀ i v, ¬ t.Names i v) →
    body.get? "version" = some (.ofInt64 e.version)
  /-- The tag is the validator, and without a tag the server's token is. -/
  validator : e.validator = some (tag.getD (.derive id e.version))
  payload : e.payload = if (body.get? "viewer").isSome then body
    else .obj [("game", body), ("viewer", .null)]

/-- A tag of the server's shape decides the version. -/
theorem stateVersion?_of_names {t : Validator} {i : EntityId} (h : t.Names i version)
    (body : Json) : stateVersion? (some t) body = some version := by
  rw [stateVersion?, Option.bind_some, Validator.version?_eq_some_iff.mpr ⟨i, h⟩]
  rfl

/-- Without a tag of the server's shape the body decides the version. -/
theorem stateVersion?_of_not_names (h : ∀ t ∈ tag, ∀ i v, ¬ t.Names i v) (body : Json) :
    stateVersion? tag body = bodyVersion? body := by
  have hnone : tag.bind Validator.version? = none :=
    Option.bind_eq_none_iff.mpr fun t ht => Validator.version?_eq_none_iff.mpr (h t ht)
  rw [stateVersion?, hnone]
  rfl

theorem names_cases (tag : Option Validator) :
    (∃ t i v, tag = some t ∧ t.Names i v) ∨ ∀ t ∈ tag, ∀ i v, ¬ t.Names i v := by
  by_cases h : ∃ t i v, tag = some t ∧ t.Names i v
  · exact .inl h
  · exact .inr fun t ht i v hv => h ⟨t, i, v, ht, hv⟩

/-- **When a response carries a state.** -/
theorem exists_stateVersion?_iff (tag : Option Validator) (body : Json) :
    (∃ version, stateVersion? tag body = some version)
      ↔ (∃ t ∈ tag, ∃ i v, t.Names i v) ∨ ∃ v, body.get? "version" = some (.ofInt64 v) := by
  rcases names_cases tag with ⟨t, i, v, rfl, hv⟩ | hno
  · exact iff_of_true ⟨v, stateVersion?_of_names hv body⟩ (.inl ⟨t, rfl, i, v, hv⟩)
  · simp only [stateVersion?_of_not_names hno, bodyVersion?_eq_some_iff]
    exact ⟨.inr, fun h => h.resolve_left fun ⟨t, ht, i, v, hv⟩ => hno t ht i v hv⟩

/-- A state's tag is kept, since it names no version but the state's. -/
theorem fetchedValidator_of_stateVersion? (h : stateVersion? tag body = some version) :
    Entry.fetchedValidator id version tag = tag.getD (.derive id version) := by
  cases tag with
  | none => rfl
  | some t =>
    unfold Entry.fetchedValidator
    dsimp only [Option.getD_some]
    split
    · rfl
    · rename_i v hv
      rw [stateVersion?, Option.bind_some, hv] at h
      obtain rfl := Option.some.inj h
      exact if_pos rfl

theorem isSnapshot_http (h : stateVersion? tag body = some version) :
    IsSnapshot id now tag body (.http id version (wrapped body) tag now) where
  entityId := rfl
  provenance := rfl
  receivedAt := rfl
  version_of_tag t ht i v hv := by
    rw [ht, stateVersion?_of_names hv] at h
    exact (Option.some.inj h).symm
  version_of_body hno := by
    rw [stateVersion?_of_not_names hno] at h
    exact bodyVersion?_eq_some_iff.mp h
  validator := congrArg some (fetchedValidator_of_stateVersion? h)
  payload := rfl

/-! ### What a request sends -/

/-- A request carries the validator that it was made for. -/
theorem header?_fetchRequest? {validator : Option Validator} {request : Request}
    (h : api.fetchRequest? id validator = some request) :
    request.header? .ifNoneMatch = validator.map Validator.text := by
  unfold fetchRequest? Request.make? at h
  split at h
  · cases h
  · obtain ⟨-, hrequest⟩ := Option.ite_none_right_eq_some.mp h
    obtain rfl := Option.some.inj hrequest
    unfold Request.header? headers
    cases api.bearer <;> cases validator <;> rfl

/-- **A fetched state keeps its validator.** A successful response with a body of
JSON carries a state if and only if its tag has the server's shape or the body
names a version; otherwise it cannot be decoded. The state's version, validator
and payload are those of `IsSnapshot`. Once the state was applied to a cache, and
whatever happens to the cache then, each fetch that is not forced sends exactly
that validator, until a newer state of the server has taken the state's place. -/
theorem fetched_state_keeps_validator (api : Api) (id : EntityId) (now : Instant) (r : Response)
    (body : Json) (tag : Option Validator) (hstatus : r.status.isSuccess = true)
    (hbody : bodyOf? r = some body) (htag : r.header? "etag" = tag.map Validator.text)
    (hvisible : ∀ t ∈ tag, t.text.toList.all Response.isVisible = true) :
    let outcome := api.fetched id now (.answered r)
    ((∃ e, outcome = .ok (.modified e))
        ↔ (∃ t ∈ tag, ∃ i v, t.Names i v) ∨ ∃ v, body.get? "version" = some (.ofInt64 v))
      ∧ ((∀ e, outcome ≠ .ok (.modified e)) → outcome = .error (.decode versionMissing))
      ∧ ∀ e, outcome = .ok (.modified e) → IsSnapshot id now tag body e
        ∧ ∀ before o, ((run before).cache.reconcile id now outcome).result = .ok (.applied o) →
          o.isApplied = true →
          let op : Op := .background (.fetched id e.version e.payload tag now)
          (run (before ++ [op])).cache = ((run before).cache.reconcile id now outcome).state
            ∧ ∀ later, let c := (run (before ++ op :: later)).cache
              (∃ a, c.authoritative? id = some a ∧ e.version < a.version)
                ∨ c.fetchValidator id false = e.validator
                  ∧ ∀ request, api.fetchRequest? id (c.fetchValidator id false) = some request →
                    request.header? .ifNoneMatch = e.validator.map Validator.text := by
  intro outcome
  have houtcome : outcome = _ := fetched_of_isSuccess hstatus hbody (entityTag?_eq htag hvisible)
  rw [← exists_stateVersion?_iff, houtcome]
  cases hv : stateVersion? tag body with
  | none => exact ⟨⟨nofun, nofun⟩, fun _ => rfl, nofun⟩
  | some version =>
    refine ⟨iff_of_true ⟨_, rfl⟩ ⟨version, rfl⟩, fun hno => absurd rfl (hno _), ?_⟩
    rintro _ ⟨⟩
    refine ⟨isSnapshot_http hv, ?_⟩
    rintro before _ ⟨⟩ happlied op
    refine ⟨run_concat before op ▸ rfl, fun later => ?_⟩
    have hoffer : op.offer? = some (.http id version (wrapped body) tag now) := rfl
    obtain ⟨a, ha, hsame | hnewer⟩ := advances_of_applied before hoffer happlied later
    · have hsent : (run (before ++ op :: later)).cache.fetchValidator id false
          = some (Entry.fetchedValidator id version tag) := by
        rw [fetchValidator, if_neg Bool.false_ne_true, show authoritative? _ id = some a from ha]
        exact hsame.validator.symm
      refine .inr ⟨hsent, fun request hrequest => ?_⟩
      rw [header?_fetchRequest? hrequest, hsent]
      rfl
    · exact .inl ⟨a, ha, hnewer⟩

/-- A state comes with a weak token. The token is sent again after a guess on the
state was written and taken back, and an older state was pushed. -/
theorem fetched_state_keeps_validator_weak :
    let api : Api := ⟨.default, none⟩
    let r : Response := ⟨200, [("ETag", "W/\"game-7-v5\"")], "\x7b\"round\":3\x7d"⟩
    let tag : Validator := ⟨"W/\"game-7-v5\""⟩
    let state : Json := .obj [("game", .obj [("round", .int 3)]), ("viewer", .null)]
    let ops : List Op :=
      [.background (.fetched 7 5 state (some tag) ⟨0, 0⟩), .guess 7 (fun _ => .null) ⟨1, 0⟩,
        .background (.push 7 4 .null ⟨2, 0⟩), .takeBack 0]
    api.fetched 7 ⟨0, 0⟩ (.answered r) = .ok (.modified (.http 7 5 state (some tag) ⟨0, 0⟩))
      ∧ (run ops).cache.fetchValidator 7 false = some tag := by
  intro api r tag state ops
  have hbody : bodyOf? ⟨200, [("ETag", "W/\"game-7-v5\"")], "\x7b\"round\":3\x7d"⟩
      = some (.obj [("round", .int 3)]) := by decide +kernel
  have hnames : tag.Names 7 5 := Validator.parse?_eq_some_iff.mp (by decide +kernel)
  have hvisible : ∀ t ∈ some tag, t.text.toList.all Response.isVisible = true := by
    rintro _ ⟨⟩
    decide +kernel
  have hfetched : api.fetched 7 ⟨0, 0⟩ (.answered r)
      = .ok (.modified (.http 7 5 state (some tag) ⟨0, 0⟩)) := by decide +kernel
  obtain ⟨-, -, hkept⟩ := fetched_state_keeps_validator api 7 ⟨0, 0⟩ r _ (some tag) rfl hbody
    (by decide +kernel) hvisible
  obtain ⟨hsnapshot, hlater⟩ := hkept _ hfetched
  have happlied : ((run []).cache.reconcile 7 ⟨0, 0⟩ (api.fetched 7 ⟨0, 0⟩ (.answered r))).result
      = .ok (.applied .created) := by
    rw [hfetched]
    rfl
  obtain ⟨-, hkeep⟩ := hlater [] .created happlied rfl
  refine ⟨hfetched, ?_⟩
  rcases hkeep [.guess 7 (fun _ => .null) ⟨1, 0⟩, .background (.push 7 4 .null ⟨2, 0⟩), .takeBack 0]
    with ⟨a, ha, hnewer⟩ | ⟨hsent, -⟩
  · -- nothing newer was sent
    obtain rfl := Option.some.inj ha
    exact absurd hnewer (by decide)
  · exact hsent.trans hsnapshot.validator

end Http.Api

end LiveSync
