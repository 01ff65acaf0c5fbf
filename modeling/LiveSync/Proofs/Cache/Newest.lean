import LiveSync.Proofs.Cache.Soundness

/-!
# The newest state that was offered

Of all the states that the server has sent of an entity the cache keeps one:
the newest, and of several with the same version the first
(`Entry.IsNewest`). Nothing else matters for it. In which order the states
came in, what was guessed in the meantime, and what was taken back late or
twice leaves no trace in the server's entry but its time.

The reason is that reconciling compares with the version that the shown
entry rests on. In a sound cache that is the version of the server's entry,
whatever is shown.
-/

namespace LiveSync

/-! ### The first of the greatest version -/

namespace Entry

variable {a e m : Entry} {offers : List Entry}

/-- **The first entry of the greatest version.** -/
def IsNewest (offers : List Entry) (e : Entry) : Prop :=
  ∃ before after, offers = before ++ e :: after
    ∧ (∀ o ∈ before, o.version < e.version) ∧ ∀ o ∈ after, o.version ≤ e.version

/-- Adopts one entry after another. -/
def newest (offers : List Entry) : Option Entry :=
  offers.foldl (fun a e => some (adopt a e)) none

theorem newest_concat (offers : List Entry) (e : Entry) :
    newest (offers ++ [e]) = some (adopt (newest offers) e) := by
  rw [newest, List.foldl_append]
  rfl

theorem newest_eq_none_iff : newest offers = none ↔ offers = [] := by
  constructor
  · intro h
    induction offers using List.reverseRecOn with
    | nil => rfl
    | append_singleton offers e _ =>
      rw [newest_concat] at h
      nomatch h
  · rintro rfl
    rfl

theorem IsNewest.mem (h : IsNewest offers e) : e ∈ offers := by
  obtain ⟨before, after, rfl, -, -⟩ := h
  exact List.mem_append_right _ List.mem_cons_self

theorem IsNewest.version_le (h : IsNewest offers e) {o : Entry} (ho : o ∈ offers) :
    o.version ≤ e.version := by
  obtain ⟨before, after, rfl, hb, ha⟩ := h
  rcases List.mem_append.mp ho with ho | ho
  · exact Int64.le_of_lt (hb o ho)
  · rcases List.mem_cons.mp ho with rfl | ho
    · exact Int64.le_refl _
    · exact ha o ho

theorem IsNewest.version_eq (h : IsNewest offers e) (h' : IsNewest offers m) :
    e.version = m.version :=
  Int64.le_antisymm (h'.version_le h.mem) (h.version_le h'.mem)

theorem isNewest_singleton (e : Entry) : IsNewest [e] e := ⟨[], [], rfl, nofun, nofun⟩

/-- One offer more is the newest if it is newer, and changes nothing
otherwise. -/
theorem IsNewest.concat (h : IsNewest offers a) (e : Entry) :
    IsNewest (offers ++ [e]) (adopt (some a) e) := by
  show IsNewest _ (if a.version < e.version then e else a)
  split
  · rename_i hv
    exact ⟨offers, [], rfl, fun o ho => Int64.lt_of_le_of_lt (h.version_le ho) hv, nofun⟩
  · rename_i hv
    obtain ⟨before, after, rfl, hb, ha⟩ := h
    refine ⟨before, after ++ [e], by simp, hb, fun o ho => ?_⟩
    rcases List.mem_append.mp ho with ho | ho
    · exact ha o ho
    · obtain rfl := List.mem_singleton.mp ho
      exact Int64.not_lt.mp hv

theorem isNewest_newest (h : newest offers = some e) : IsNewest offers e := by
  induction offers using List.reverseRecOn generalizing e with
  | nil => nomatch h
  | append_singleton offers o ih =>
    rw [newest_concat] at h
    obtain rfl := Option.some.inj h
    cases hn : newest offers with
    | none =>
      rw [newest_eq_none_iff.mp hn]
      exact isNewest_singleton o
    | some m => exact (ih hn).concat o

/-- What is adopted depends on the server's entry only up to its time. -/
theorem Agree.adopt {a b : Option Entry} (h : Agree a b) (e : Entry) :
    (adopt a e).Same (adopt b e) := by
  cases h with
  | none => exact .refl e
  | @some a b h =>
    show (if a.version < e.version then e else a).Same (if b.version < e.version then e else b)
    rw [h.version]
    split
    · exact .refl e
    · exact h

/-! ### The same offers in another order -/

/-- **Each of the one is also one of the other**, up to its time. -/
def SameOffers (offers offers' : List Entry) : Prop :=
  (∀ e ∈ offers, ∃ e' ∈ offers', e.Same e') ∧ ∀ e' ∈ offers', ∃ e ∈ offers, e.Same e'

/-- If a version has one entry only, the newest does not depend on the
order. -/
theorem SameOffers.agree_newest {offers offers' : List Entry} (h : SameOffers offers offers')
    (hv : ∀ e ∈ offers, ∀ m ∈ offers, e.version = m.version → e.Same m) :
    Agree (newest offers) (newest offers') := by
  cases hn : newest offers with
  | none =>
    obtain rfl := newest_eq_none_iff.mp hn
    have hnil : offers' = [] := List.eq_nil_iff_forall_not_mem.mpr fun e' he' => by
      obtain ⟨e, he, -⟩ := h.2 e' he'
      nomatch he
    rw [newest_eq_none_iff.mpr hnil]
    exact .none
  | some m =>
    have hm := isNewest_newest hn
    cases hn' : newest offers' with
    | none =>
      obtain ⟨e', he', -⟩ := h.1 m hm.mem
      rw [newest_eq_none_iff.mp hn'] at he'
      nomatch he'
    | some m' =>
      have hm' := isNewest_newest hn'
      -- each of the two newest is offered on the other side too
      obtain ⟨e', he', hme'⟩ := h.1 m hm.mem
      obtain ⟨e, he, hem'⟩ := h.2 m' hm'.mem
      have hle : m.version ≤ e.version := by
        rw [hme'.version, hem'.version]
        exact hm'.version_le he'
      exact .some ((hv m hm.mem e he (Int64.le_antisymm hle (hm.version_le he))).trans hem')

end Entry

/-! ### Runs -/

namespace Cache

variable {c : Cache}

/-- The server's state that an operation offers, if it offers one. -/
def Op.offer? : Op → Option Entry
  | .background b => b.offer?
  | .guess _ _ _ | .takeBack _ | .clearPending _ => none

/-- **What a run offers for an entity**, in its order. -/
def offers (id : EntityId) (ops : List Op) : List Entry :=
  (ops.filterMap Op.offer?).filter fun e => e.entityId = id

theorem meet_of_offer? {b : Background} {e : Entry} (h : b.offer? = some e) :
    c.meet b = (c.apply e).state := by
  cases b <;> cases h <;> rfl

theorem Sound.quiet_meet (h : c.Sound) {b : Background} (hb : b.offer? = none) :
    c.Quiet (c.meet b) := by
  cases b with
  | push id version payload now => nomatch hb
  | fetched id version payload validator now => nomatch hb
  | notModified id now => exact (h.markNotModified id now).2
  | revert id base => exact (h.revert id base).2

/-- The answer to what comes in, read off the server's entry. -/
theorem Sound.result_apply (h : c.Sound) (e : Entry) :
    (c.apply e).result
      = (c.authoritative? e.entityId).elim .created fun a =>
          if a.version < e.version then .replaced a.version else .stale a.version := by
  rw [Cache.apply, authoritative?]
  cases hs : c.slot? e.entityId with
  | none => rfl
  | some s =>
    simp only [(h _ s hs).baseVersion_current, Option.map_some, Option.elim_some]
    split <;> rfl

end Cache

namespace Ledger

open Cache Entry

variable {l : Ledger} {op : Op}

/-- An operation that offers nothing leaves the server's entries as they
are, up to their time. -/
theorem Sound.quiet_step (h : l.Sound) (hop : op.offer? = none) :
    l.cache.Quiet (l.step op).cache := by
  cases op with
  | background b => exact h.cache.quiet_meet hop
  | guess id edit now => exact (h.cache.beginOptimistic id edit now).2
  | takeBack ticket =>
    rw [Ledger.step]
    split
    · rename_i p hp
      exact (h.cache.rollback (h.handedOut p (List.mem_of_getElem? hp))).2
    · exact .refl _
  | clearPending id => exact (h.cache.clearPending id).2

theorem step_of_offer? {e : Entry} (hop : op.offer? = some e) :
    (l.step op).cache = (l.cache.apply e).state := by
  cases op with
  | background b => exact meet_of_offer? hop
  | guess id edit now => nomatch hop
  | takeBack ticket => nomatch hop
  | clearPending id => nomatch hop

/-- The server's entry is what adopting all that was offered leads to. -/
theorem agree_newest_offers (id : EntityId) (ops : List Op) :
    Agree (newest (offers id ops)) ((run ops).cache.authoritative? id) := by
  induction ops using List.reverseRecOn with
  | nil => exact .none
  | append_singleton ops op ih =>
    have hsound := sound_run ops
    rw [run_concat]
    cases hop : op.offer? with
    | none =>
      have hoffers : offers id (ops ++ [op]) = offers id ops := by simp [offers, hop]
      rw [hoffers]
      exact ih.trans (hsound.quiet_step hop id)
    | some e =>
      rw [step_of_offer? hop, hsound.cache.authoritative?_apply]
      split
      · rename_i hid
        have hoffers : offers id (ops ++ [op]) = offers id ops ++ [e] := by
          simp [offers, hop, hid]
        rw [hoffers, newest_concat]
        exact .some (ih.adopt e)
      · rename_i hid
        have hoffers : offers id (ops ++ [op]) = offers id ops := by simp [offers, hop, hid]
        rw [hoffers]
        exact ih

/-- **The server's entry is the newest that was offered**, up to its time.
Hence two runs with the same offers agree on it, whatever their order and
whatever was guessed in between, and the answer to an offer tells how its
version compares with the newest one so far. -/
theorem authoritative_isNewest (id : EntityId) :
    (∀ ops, (offers id ops = [] ∧ (run ops).cache.authoritative? id = none)
      ∨ ∃ e a, (run ops).cache.authoritative? id = some a
          ∧ IsNewest (offers id ops) e ∧ e.Same a)
    ∧ (∀ ops ops', SameOffers (offers id ops) (offers id ops') →
        (∀ e ∈ offers id ops, ∀ m ∈ offers id ops, e.version = m.version → e.Same m) →
        Agree ((run ops).cache.authoritative? id) ((run ops').cache.authoritative? id))
    ∧ ∀ ops e, e.entityId = id →
        (offers id ops = [] → ((run ops).cache.apply e).result = .created)
        ∧ ∀ m, IsNewest (offers id ops) m →
            ((run ops).cache.apply e).result
              = if m.version < e.version then .replaced m.version else .stale m.version := by
  refine ⟨fun ops => ?_, fun ops ops' hsame hv => ?_, fun ops e hid => ?_⟩
  · have hagree := agree_newest_offers id ops
    cases hn : newest (offers id ops) with
    | none =>
      rw [hn] at hagree
      exact .inl ⟨newest_eq_none_iff.mp hn, agree_none_left.mp hagree⟩
    | some e =>
      obtain ⟨a, ha, hs⟩ := agree_some_left.mp (hn ▸ hagree)
      exact .inr ⟨e, a, ha, isNewest_newest hn, hs⟩
  · exact (agree_newest_offers id ops).symm.trans
      ((hsame.agree_newest hv).trans (agree_newest_offers id ops'))
  · have hagree := agree_newest_offers id ops
    rw [(sound_run ops).cache.result_apply, hid]
    constructor
    · intro hnil
      rw [newest_eq_none_iff.mpr hnil] at hagree
      rw [agree_none_left.mp hagree]
      rfl
    · intro m hm
      cases hn : newest (offers id ops) with
      | none =>
        have hmem := hm.mem
        rw [newest_eq_none_iff.mp hn] at hmem
        nomatch hmem
      | some e' =>
        obtain ⟨a, ha, hs⟩ := agree_some_left.mp (hn ▸ hagree)
        have hav : a.version = m.version :=
          hs.version.symm.trans ((isNewest_newest hn).version_eq hm)
        rw [ha, Option.elim_some, hav]

/-- Versions 3 and 5, and a guess that is taken back in between. -/
theorem authoritative_isNewest_two_orders :
    let ops : List Op :=
      [.background (.push 1 3 .null ⟨0, 0⟩), .guess 1 id ⟨1, 0⟩,
        .background (.push 1 5 (.bool true) ⟨2, 0⟩), .takeBack 0]
    let ops' : List Op :=
      [.background (.push 1 5 (.bool true) ⟨7, 0⟩), .guess 1 id ⟨8, 0⟩, .takeBack 0,
        .background (.push 1 3 .null ⟨9, 0⟩)]
    SameOffers (offers 1 ops) (offers 1 ops')
      ∧ Agree ((run ops).cache.authoritative? 1) ((run ops').cache.authoritative? 1)
      ∧ ((run ops).cache.apply (.push 1 4 .null ⟨3, 0⟩)).result = .stale 5 := by
  intro ops ops'
  have ho : offers 1 ops = [.push 1 3 .null ⟨0, 0⟩, .push 1 5 (.bool true) ⟨2, 0⟩] := rfl
  have ho' : offers 1 ops' = [.push 1 5 (.bool true) ⟨7, 0⟩, .push 1 3 .null ⟨9, 0⟩] := rfl
  have hsame : SameOffers (offers 1 ops) (offers 1 ops') := by
    rw [ho, ho']
    constructor <;> simp [same_iff, Entry.push]
  have h := authoritative_isNewest 1
  refine ⟨hsame, h.2.1 ops ops' hsame ?_, ?_⟩
  · rw [ho]
    simp [same_iff, Entry.push]
  · have hm : IsNewest (offers 1 ops) (.push 1 5 (.bool true) ⟨2, 0⟩) :=
      ⟨[.push 1 3 .null ⟨0, 0⟩], [], ho, by simp [Entry.push], nofun⟩
    exact (h.2.2 ops (.push 1 4 .null ⟨3, 0⟩) rfl).2 _ hm

end Ledger

end LiveSync
