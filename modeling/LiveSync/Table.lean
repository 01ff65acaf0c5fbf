/-!
# Tables

A **table** is a finite map written as a list of pairs, in the order in
which its keys first came in. The order is part of the value: the topics
a client is interested in are replayed in it, and so every table of the
client – cached slots, turn watches, interests, gates – says its order
instead of leaving it to a hash.

`Table.insert` keeps the place of a key it already has and appends one it
has not; `Table.erase` closes the gap. `Table.get?` reads the first pair
of a key, and a table built by these two never has a second one
(`Table.Distinct`).

The small lemmas say what each operation does to the view
`Table.get?`; nobody has to unfold the list after them.
-/

namespace LiveSync

/-- **A finite map in order of arrival.** -/
structure Table (κ α : Type) where
  /-- The pairs, oldest key first. -/
  pairs : List (κ × α)
deriving Repr, DecidableEq

namespace Table

variable {κ α : Type} [DecidableEq κ]

/-- The table with no key. -/
def empty : Table κ α := ⟨[]⟩

instance : Inhabited (Table κ α) := ⟨empty⟩

/-- The keys, in order of arrival. -/
def keys (t : Table κ α) : List κ := t.pairs.map Prod.fst

/-- How many keys there are. -/
def size (t : Table κ α) : Nat := t.pairs.length

/-- The value at `k`, if `k` is a key. -/
def get? (t : Table κ α) (k : κ) : Option α :=
  (t.pairs.find? (fun p => p.1 = k)).map Prod.snd

/-- Whether `k` is a key. -/
def contains (t : Table κ α) (k : κ) : Bool := (t.get? k).isSome

/-- Writes `v` at `k` in a list of pairs: in place, or at the end. -/
def insertPairs (k : κ) (v : α) : List (κ × α) → List (κ × α)
  | [] => [(k, v)]
  | p :: rest => if p.1 = k then (k, v) :: rest else p :: insertPairs k v rest

/-- Writes `v` at `k`. A new key comes last, a known one stays where it is. -/
def insert (t : Table κ α) (k : κ) (v : α) : Table κ α :=
  ⟨insertPairs k v t.pairs⟩

/-- Takes `k` out; the keys after it move up. -/
def erase (t : Table κ α) (k : κ) : Table κ α :=
  ⟨t.pairs.filter (fun p => p.1 ≠ k)⟩

/-- Keeps the pairs that satisfy `p`. -/
def filter (t : Table κ α) (p : κ → α → Bool) : Table κ α :=
  ⟨t.pairs.filter (fun q => p q.1 q.2)⟩

/-- No key occurs twice. -/
def Distinct (t : Table κ α) : Prop := t.keys.Nodup

/-! ### What the operations do to a reading -/

@[simp] theorem get?_empty (k : κ) : (empty : Table κ α).get? k = none := rfl

theorem find?_insertPairs (k j : κ) (v : α) (ps : List (κ × α)) :
    ((insertPairs k v ps).find? (fun p => p.1 = j)).map Prod.snd
      = if k = j then some v
        else (ps.find? (fun p => p.1 = j)).map Prod.snd := by
  induction ps with
  | nil => by_cases h : k = j <;> simp [insertPairs, h]
  | cons p ps ih =>
    by_cases hp : p.1 = k <;> by_cases hj : k = j <;>
      by_cases hpj : p.1 = j <;> simp_all [insertPairs]

/-- **Reading after a write** gives what was written at that key and what
was there before at any other. -/
theorem get?_insert (t : Table κ α) (k j : κ) (v : α) :
    (t.insert k v).get? j = if k = j then some v else t.get? j :=
  find?_insertPairs k j v t.pairs

@[simp] theorem get?_insert_self (t : Table κ α) (k : κ) (v : α) :
    (t.insert k v).get? k = some v := by
  simp [get?_insert]

theorem get?_insert_of_ne (t : Table κ α) {k j : κ} (v : α) (h : k ≠ j) :
    (t.insert k v).get? j = t.get? j := by
  simp [get?_insert, h]

/-- **Writing what is there** changes nothing. -/
theorem insert_of_get? {t : Table κ α} {k : κ} {v : α} (h : t.get? k = some v) :
    t.insert k v = t := by
  rcases t with ⟨ps⟩
  unfold get? at h
  unfold insert
  induction ps with
  | nil => cases h
  | cons p ps ih =>
    by_cases hp : p.1 = k
    · have hv : p.2 = v := by simpa [hp] using h
      rw [insertPairs, if_pos hp, ← hp, ← hv]
    · have hrest := ih (by simpa [hp] using h)
      rw [insertPairs, if_neg hp, (Table.mk.inj hrest)]

/-- **Reading after an erasure** gives nothing at that key and what was
there before at any other. -/
theorem get?_erase (t : Table κ α) (k j : κ) :
    (t.erase k).get? j = if k = j then none else t.get? j := by
  rcases t with ⟨ps⟩
  unfold get? erase
  induction ps with
  | nil => simp
  | cons p ps ih =>
    by_cases hp : p.1 = k <;> by_cases hj : k = j <;>
      by_cases hpj : p.1 = j <;> simp_all

@[simp] theorem get?_erase_self (t : Table κ α) (k : κ) :
    (t.erase k).get? k = none := by
  simp [get?_erase]

theorem get?_erase_of_ne (t : Table κ α) {k j : κ} (h : k ≠ j) :
    (t.erase k).get? j = t.get? j := by
  simp [get?_erase, h]

/-- What can be read after an erasure could be read before. -/
theorem get?_of_erase {t : Table κ α} {k j : κ} {v : α} (h : (t.erase k).get? j = some v) :
    t.get? j = some v := by
  rw [get?_erase] at h
  split at h
  · cases h
  · exact h

/-! ### Keys -/

theorem map_fst_insertPairs (k : κ) (v : α) (ps : List (κ × α)) :
    (insertPairs k v ps).map Prod.fst
      = if k ∈ ps.map Prod.fst then ps.map Prod.fst
        else ps.map Prod.fst ++ [k] := by
  induction ps with
  | nil => simp [insertPairs]
  | cons p ps ih =>
    by_cases hp : p.1 = k
    · simp [insertPairs, hp]
    · have hk : ¬ k = p.1 := fun h => hp h.symm
      simp only [insertPairs, hp, if_false, List.map_cons, ih, List.mem_cons, hk, false_or]
      split <;> simp

/-- A write keeps the keys and their order, and puts a new key last. -/
theorem keys_insert (t : Table κ α) (k : κ) (v : α) :
    (t.insert k v).keys = if k ∈ t.keys then t.keys else t.keys ++ [k] :=
  map_fst_insertPairs k v t.pairs

/-- An erasure filters the keys. -/
theorem keys_erase (t : Table κ α) (k : κ) :
    (t.erase k).keys = t.keys.filter (fun j => j ≠ k) := by
  simp only [keys, erase, List.filter_map]
  rfl

/-- `k` is a key exactly when something is read there. -/
theorem mem_keys_iff (t : Table κ α) (k : κ) :
    k ∈ t.keys ↔ (t.get? k).isSome := by
  rcases t with ⟨ps⟩
  unfold keys get?
  induction ps with
  | nil => simp
  | cons p ps ih =>
    by_cases hp : p.1 = k
    · simp [hp]
    · have hk : ¬ k = p.1 := fun h => hp h.symm
      simp [hp, hk]

/-- A write at a key that is there keeps the keys. -/
theorem keys_insert_of_get? {t : Table κ α} {k : κ} {w : α} (h : t.get? k = some w) (v : α) :
    (t.insert k v).keys = t.keys := by
  rw [keys_insert, if_pos ((t.mem_keys_iff k).mpr (by rw [h]; rfl))]

theorem Distinct.insert {t : Table κ α} (h : t.Distinct) (k : κ) (v : α) :
    (t.insert k v).Distinct := by
  unfold Distinct at *
  rw [keys_insert]
  split
  · exact h
  · rename_i hk
    rw [List.nodup_append]
    refine ⟨h, by simp, ?_⟩
    intro a ha b hb
    simp at hb
    subst hb
    intro hab
    exact hk (hab ▸ ha)

theorem Distinct.erase {t : Table κ α} (h : t.Distinct) (k : κ) :
    (t.erase k).Distinct := by
  unfold Distinct at *
  rw [keys_erase]
  exact h.filter _

omit [DecidableEq κ] in
/-- The empty table is distinct. -/
theorem distinct_empty : (empty : Table κ α).Distinct := List.nodup_nil

omit [DecidableEq κ] in
theorem Distinct.filter {t : Table κ α} (h : t.Distinct) (p : κ → α → Bool) :
    (t.filter p).Distinct :=
  h.sublist (List.filter_sublist.map Prod.fst)

/-- **Reading what is kept** of a distinct table. -/
theorem Distinct.get?_filter {t : Table κ α} (h : t.Distinct) (p : κ → α → Bool) (k : κ) :
    (t.filter p).get? k = (t.get? k).filter (p k) := by
  rcases t with ⟨ps⟩
  unfold Table.filter get?
  induction ps with
  | nil => rfl
  | cons q ps ih =>
    obtain ⟨hnew, hrest⟩ := List.nodup_cons.mp h
    by_cases hq : q.1 = k
    · subst hq
      have hnone : (ps.filter fun r => p r.1 r.2).find? (fun r => r.1 = q.1) = none := by
        refine List.find?_eq_none.mpr fun r hr heq => hnew ?_
        exact List.mem_map.mpr ⟨r, (List.mem_filter.mp hr).1, of_decide_eq_true heq⟩
      cases hp : p q.1 q.2 <;> simp [hp, hnone, Option.filter]
    · have hrec := ih hrest
      cases hp : p q.1 q.2 <;> simpa [hp, hq] using hrec

/-! ### Pairs -/

/-- A new key comes last, with its value. -/
theorem pairs_insert_of_not_mem {t : Table κ α} {k : κ} (h : k ∉ t.keys) (v : α) :
    (t.insert k v).pairs = t.pairs ++ [(k, v)] := by
  rcases t with ⟨ps⟩
  unfold insert
  induction ps with
  | nil => rfl
  | cons p ps ih =>
    simp only [keys, List.map_cons, List.mem_cons, not_or] at h ih
    simp only [insertPairs, if_neg (Ne.symm h.1), List.cons_append, ih h.2]

/-- A write adds no pair but its own. -/
theorem mem_pairs_insert {t : Table κ α} {k : κ} {v : α} {p : κ × α}
    (h : p ∈ (t.insert k v).pairs) : p = (k, v) ∨ p ∈ t.pairs := by
  rcases t with ⟨ps⟩
  unfold insert at h
  induction ps with
  | nil => exact .inl (List.mem_singleton.mp h)
  | cons q ps ih =>
    simp only [insertPairs] at h
    split at h
    · exact (List.mem_cons.mp h).imp_right (List.mem_cons_of_mem q)
    · rcases List.mem_cons.mp h with rfl | h
      · exact .inr (List.mem_cons_self ..)
      · exact (ih h).imp_right (List.mem_cons_of_mem q)

/-- What is read is a pair of the table. -/
theorem mem_pairs_of_get? {t : Table κ α} {k : κ} {v : α} (h : t.get? k = some v) :
    (k, v) ∈ t.pairs := by
  obtain ⟨p, hp, rfl⟩ := Option.map_eq_some_iff.mp h
  have hk : p.1 = k := by simpa using List.find?_some hp
  rw [← hk]
  exact List.mem_of_find?_eq_some hp

/-- Every pair of a distinct table can be read. -/
theorem Distinct.get?_of_mem {t : Table κ α} (h : t.Distinct) {k : κ} {v : α}
    (hp : (k, v) ∈ t.pairs) : t.get? k = some v := by
  rcases t with ⟨ps⟩
  induction ps with
  | nil => cases hp
  | cons p ps ih =>
    obtain ⟨hnew, hrest⟩ := List.nodup_cons.mp h
    rcases List.mem_cons.mp hp with rfl | hp
    · simp [get?]
    · have hne : p.1 ≠ k := fun he => hnew (he ▸ List.mem_map_of_mem (f := Prod.fst) hp)
      simpa [get?, hne] using ih hrest hp

/-- **An erasure takes one pair out** of a distinct table. -/
theorem Distinct.perm_erase {t : Table κ α} (h : t.Distinct) {k : κ} {v : α}
    (hk : t.get? k = some v) : t.pairs.Perm ((k, v) :: (t.erase k).pairs) := by
  have hp := mem_pairs_of_get? hk
  clear hk
  rcases t with ⟨ps⟩
  unfold Table.erase
  induction ps with
  | nil => cases hp
  | cons p ps ih =>
    obtain ⟨hnew, hrest⟩ := List.nodup_cons.mp h
    rcases List.mem_cons.mp hp with rfl | hp
    · have hall : ps.filter (fun q => decide (q.1 ≠ k)) = ps := by
        refine List.filter_eq_self.mpr fun q hq => decide_eq_true ?_
        rintro rfl
        exact hnew (List.mem_map.mpr ⟨q, hq, rfl⟩)
      rw [List.filter_cons_of_neg (by simp), hall]
    · have hne : p.1 ≠ k := fun he => hnew (he ▸ List.mem_map_of_mem (f := Prod.fst) hp)
      rw [List.filter_cons_of_pos (by simpa using hne)]
      exact ((ih hrest hp).cons p).trans (.swap _ _ _)

omit [DecidableEq κ] in
/-- What keeps the order of the pairs keeps a table distinct. -/
theorem Distinct.of_sublist {t t' : Table κ α} (h : t.Distinct)
    (hs : t'.pairs.Sublist t.pairs) : t'.Distinct :=
  h.sublist (hs.map Prod.fst)

end Table

end LiveSync
