import LiveSync.Json.Shape
import Mathlib.Data.List.Induction

/-!
# Members of a settled object

A settled object lists its members by name, and no name twice. It is therefore
determined by what `Json.member?` finds in it, and what that finds under a name is
the last member of that name of the object as it was written (`Json.last?`).

So is what a reader of typed values gets to see (`Json.Fields.called`): of two objects
that agree on the last members of some names it sees the same under these names,
once they are settled (`called_orderMembers_congr`). A field is read from the values
under its names and leaves the members as they are (`Fields.bind_required`,
`Fields.bind_defaulted`), so that each field of a settled object can be read for
itself.
-/

namespace LiveSync.Json

open Fields

variable {ms ns : List (String × Json)} {m : String × Json} {key : String} {v : Json}

/-! ### The last member of a name -/

/-- **The value of the last member** called `key`. -/
def last? (key : String) (members : List (String × Json)) : Option Json :=
  member? key members.reverse

theorem member?_append (key : String) (ms ns : List (String × Json)) :
    member? key (ms ++ ns) = (member? key ms).or (member? key ns) := by
  induction ms with
  | nil => rfl
  | cons m ms ih =>
    rw [List.cons_append, member?, member?, ih]
    split <;> rfl

theorem last?_concat (key : String) (ms : List (String × Json)) (m : String × Json) :
    last? key (ms ++ [m]) = if m.1 = key then some m.2 else last? key ms := by
  rw [last?, List.reverse_append]
  rfl

theorem member?_map_snd (f : Json → Json) (key : String) (ms : List (String × Json)) :
    member? key (ms.map fun m => (m.1, f m.2)) = (member? key ms).map f := by
  induction ms with
  | nil => rfl
  | cons m ms ih =>
    rw [List.map_cons, member?, member?, ih]
    split <;> rfl

theorem member?_called (key : String) (names : List String) (ms : List (String × Json)) :
    member? key (called names ms) = if key ∈ names then member? key ms else none := by
  induction ms with
  | nil => exact (ite_self _).symm
  | cons m ms ih =>
    rw [called, List.filter_cons, ← called]
    by_cases hm : m.1 ∈ names <;> by_cases hkey : m.1 = key <;> simp_all [member?]

theorem last?_called {names : List String} (h : key ∈ names) (ms : List (String × Json)) :
    last? key (called names ms) = last? key ms := by
  rw [last?, called, ← List.filter_reverse]
  exact (member?_called key names ms.reverse).trans (if_pos h)

/-! ### Members in order -/

/-- **Members listed by name**, no name twice. -/
def Ordered (ms : List (String × Json)) : Prop := ms.Pairwise fun m n => m.1 < n.1

theorem Ordered.called (h : Ordered ms) (names : List String) : Ordered (called names ms) :=
  h.filter _

theorem member?_eq_none_iff : member? key ms = none ↔ ∀ m ∈ ms, m.1 ≠ key := by
  induction ms with
  | nil => exact ⟨fun _ => nofun, fun _ => rfl⟩
  | cons m ms ih =>
    rw [member?, List.forall_mem_cons, ← ih]
    split <;> simp_all

theorem Ordered.ne_of_mem (h : Ordered (m :: ms)) : ∀ n ∈ ms, n.1 ≠ m.1 := by
  rintro n hn heq
  exact String.lt_irrefl m.1 (heq ▸ (List.pairwise_cons.mp h).1 n hn)

/-- No name is found that comes before the first one. -/
theorem Ordered.le_of_isSome (h : Ordered (m :: ms))
    (hkey : (member? key (m :: ms)).isSome = true) : m.1 ≤ key := by
  refine String.not_lt.mp fun hlt => ?_
  have hnone : member? key (m :: ms) = none := by
    refine member?_eq_none_iff.mpr fun n hn heq => ?_
    rcases List.mem_cons.mp hn with rfl | hn
    · exact String.lt_irrefl _ (heq ▸ hlt)
    · exact String.lt_asymm hlt (heq ▸ (List.pairwise_cons.mp h).1 n hn)
  rw [hnone] at hkey
  cases hkey

/-- **Members listed by name are known by their values.** -/
theorem Ordered.ext (hms : Ordered ms) (hns : Ordered ns)
    (h : ∀ key, member? key ms = member? key ns) : ms = ns := by
  induction ms generalizing ns with
  | nil =>
    cases ns with
    | nil => rfl
    | cons n ns => exact absurd (h n.1) (by simp [member?])
  | cons m ms ih =>
    cases ns with
    | nil => exact absurd (h m.1) (by simp [member?])
    | cons n ns =>
      -- the first name of either list is found in the other
      have hname : m.1 = n.1 :=
        String.le_antisymm (hms.le_of_isSome (by rw [h n.1]; simp [member?]))
          (hns.le_of_isSome (by rw [← h m.1]; simp [member?]))
      have hvalue : m.2 = n.2 := by
        have hfirst := h m.1
        simpa [member?, hname] using hfirst
      have hrest : ms = ns := by
        refine ih hms.of_cons hns.of_cons fun key => ?_
        by_cases hkey : m.1 = key
        · rw [member?_eq_none_iff.mpr (hkey ▸ hms.ne_of_mem),
            member?_eq_none_iff.mpr (hkey ▸ hname ▸ hns.ne_of_mem)]
        · have hlater := h key
          rwa [member?, if_neg hkey, member?, if_neg (hname ▸ hkey)] at hlater
      rw [hrest, Prod.ext hname hvalue]

/-! ### Ordering members -/

theorem member?_insertMember (key j : String) (v : Json) (ms : List (String × Json)) :
    member? j (insertMember key v ms) = if key = j then some v else member? j ms := by
  induction ms with
  | nil => rfl
  | cons m ms ih =>
    obtain ⟨k, w⟩ := m
    rw [insertMember]
    split
    · rfl
    · split
      · rename_i hk
        subst hk
        rw [member?, member?]
        split <;> rfl
      · rename_i hk
        simp only [member?, ih]
        by_cases hj : key = j
        · have hkj : k ≠ j := fun hkj => hk (hj.trans hkj.symm)
          simp only [if_pos hj, if_neg hkj]
        · simp only [if_neg hj]

/-- A member that is written twice is written once. -/
theorem insertMember_insertMember (key : String) (v w : Json) (ms : List (String × Json)) :
    insertMember key w (insertMember key v ms) = insertMember key w ms := by
  induction ms with
  | nil => simp [insertMember]
  | cons m ms ih =>
    obtain ⟨k, u⟩ := m
    by_cases hlt : key < k
    · simp [insertMember, hlt]
    · by_cases heq : key = k
      · simp [insertMember, heq]
      · simp [insertMember, hlt, heq, ih]

theorem mem_insertMember (h : m ∈ insertMember key v ms) : m = (key, v) ∨ m ∈ ms := by
  induction ms with
  | nil => exact .inl (List.mem_singleton.mp h)
  | cons n ms ih =>
    rw [insertMember.eq_def] at h
    grind

theorem Ordered.insertMember (h : Ordered ms) (key : String) (v : Json) :
    Ordered (insertMember key v ms) := by
  induction ms with
  | nil => exact List.pairwise_singleton _ _
  | cons m ms ih =>
    obtain ⟨hm, hms⟩ := List.pairwise_cons.mp h
    rw [Json.insertMember]
    split
    · rename_i hlt
      refine List.pairwise_cons.mpr ⟨fun n hn => ?_, h⟩
      rcases List.mem_cons.mp hn with rfl | hn
      · exact hlt
      · exact String.lt_trans hlt (hm n hn)
    · split
      · rename_i heq
        exact List.pairwise_cons.mpr ⟨fun n hn => heq ▸ hm n hn, hms⟩
      · rename_i hlt hne
        have hgt : m.1 < key := by
          rcases Std.lt_trichotomy key m.1 with h | h | h
          · exact absurd h hlt
          · exact absurd h hne
          · exact h
        refine List.pairwise_cons.mpr ⟨fun n hn => ?_, ih hms⟩
        rcases mem_insertMember hn with rfl | hn
        · exact hgt
        · exact hm n hn

theorem orderMembers_concat (ms : List (String × Json)) (m : String × Json) :
    orderMembers (ms ++ [m]) = insertMember m.1 m.2 (orderMembers ms) := by
  rw [orderMembers, List.foldl_append]
  rfl

theorem mem_orderMembers (h : m ∈ orderMembers ms) : m ∈ ms := by
  induction ms using List.reverseRecOn with
  | nil => exact h
  | append_singleton ms n ih =>
    rw [orderMembers_concat] at h
    rcases mem_insertMember h with rfl | h
    · exact List.mem_append_right ms List.mem_cons_self
    · exact List.mem_append_left [n] (ih h)

theorem ordered_orderMembers (ms : List (String × Json)) : Ordered (orderMembers ms) := by
  induction ms using List.reverseRecOn with
  | nil => exact List.Pairwise.nil
  | append_singleton ms m ih =>
    rw [orderMembers_concat]
    exact ih.insertMember m.1 m.2

/-- **Of equal names the last one is kept.** -/
theorem member?_orderMembers (key : String) (ms : List (String × Json)) :
    member? key (orderMembers ms) = last? key ms := by
  induction ms using List.reverseRecOn with
  | nil => rfl
  | append_singleton ms m ih => rw [orderMembers_concat, member?_insertMember, last?_concat, ih]

/-- **Members in order stay as they are.** -/
theorem Ordered.orderMembers_eq (h : Ordered ms) : orderMembers ms = ms := by
  refine (ordered_orderMembers ms).ext h fun key => ?_
  rw [member?_orderMembers]
  induction ms with
  | nil => rfl
  | cons m ms ih =>
    rw [last?, List.reverse_cons, member?_append, ← last?, ih h.of_cons, member?, member?, member?]
    split
    · rename_i hkey
      rw [member?_eq_none_iff.mpr (hkey ▸ h.ne_of_mem)]
      rfl
    · exact Option.or_none

/-! ### What a reader gets to see -/

/-- **A reader sees the last members** of the names that it asks for. -/
theorem called_orderMembers_congr {names : List String}
    (h : ∀ key ∈ names, last? key ms = last? key ns) :
    called names (orderMembers ms) = called names (orderMembers ns) := by
  refine ((ordered_orderMembers ms).called names).ext ((ordered_orderMembers ns).called names)
    fun key => ?_
  rw [member?_called, member?_called, member?_orderMembers, member?_orderMembers]
  split
  · exact h key ‹_›
  · rfl

theorem called_singleton (h : Ordered ms) (key : String) :
    called [key] ms = (member? key ms).toList.map fun v => (key, v) := by
  induction ms with
  | nil => rfl
  | cons m ms ih =>
    rw [called, List.filter_cons, ← called, ih h.of_cons, member?]
    by_cases hkey : m.1 = key
    · have hnone := member?_eq_none_iff.mpr (hkey ▸ h.ne_of_mem)
      rw [if_pos (by simpa using hkey), if_pos hkey, hnone, ← hkey]
      rfl
    · rw [if_neg (by simpa using hkey), if_neg hkey]

/-! ### Settling -/

theorem settleItems_eq_map (items : List Json) : settleItems items = items.map settle := by
  induction items with
  | nil => rfl
  | cons v items ih => rw [settleItems, ih, List.map_cons]

theorem settleMembers_eq_map (ms : List (String × Json)) :
    settleMembers ms = ms.map fun m => (m.1, m.2.settle) := by
  induction ms with
  | nil => rfl
  | cons m ms ih => rw [settleMembers, ih, List.map_cons]

theorem settleMembers_eq_self (h : ∀ m ∈ ms, m.2.settle = m.2) : settleMembers ms = ms := by
  induction ms with
  | nil => rfl
  | cons m ms ih =>
    obtain ⟨hm, hms⟩ := List.forall_mem_cons.mp h
    rw [settleMembers, ih hms, hm]

theorem last?_settleMembers (key : String) (ms : List (String × Json)) :
    last? key (settleMembers ms) = (last? key ms).map settle := by
  rw [settleMembers_eq_map, last?, ← List.map_reverse]
  exact member?_map_snd settle key ms.reverse

/-! ### Reading a settled object -/

namespace Fields

variable {α β : Type}

/-- **What stands under some names.** -/
def under (names : List String) (ms : List (String × Json)) : List Json :=
  (called names ms).map Prod.snd

/-- A field that has to be there is read from what stands under its names. -/
def demand (read : Json → Option α) : List Json → Option α
  | [v] => read v
  | _ => none

/-- A field that may be left out is read from what stands under its names. -/
def allow (value : α) (read : Json → Option α) : List Json → Option α
  | [] => some value
  | [v] => read v
  | _ :: _ :: _ => none

theorem mem_of_demand {read : Json → Option α} {vs : List Json} {x : α}
    (h : demand read vs = some x) : ∃ v ∈ vs, read v = some x := by
  rcases vs with _ | ⟨v, _ | _⟩
  · cases h
  · exact ⟨v, List.mem_cons_self, h⟩
  · cases h

theorem demand_of_allow {value : α} {read : Json → Option α} {vs : List Json} {x : α}
    (h : allow value read vs = some x) : x = value ∨ demand read vs = some x := by
  rcases vs with _ | ⟨v, _ | _⟩
  · exact .inl (Option.some.inj h).symm
  · exact .inr h
  · cases h

@[simp] theorem demand_toList (read : Json → Option α) (v : Option Json) :
    demand read v.toList = v.bind read := by
  cases v <;> rfl

@[simp] theorem allow_toList (value : α) (read : Json → Option α) (v : Option Json) :
    allow value read v.toList = v.elim (some value) read := by
  cases v <;> rfl

/-- **A field is read** from what stands under its names, and what is read after
it is read from the same members. -/
theorem bind_required (names : List String) (read : Json → Option α)
    (ms : List (String × Json)) (next : α × Fields → Option β) :
    (required names read (.named ms)).bind next
      = (demand read (under names ms)).bind fun x => next (x, .named ms) := by
  rw [required, take?, under]
  rcases called names ms with _ | ⟨m, _ | ⟨n, rest⟩⟩
  · rfl
  · exact Option.bind_map
  · rfl

/-- A field that may be left out is read from what stands under its names. -/
theorem bind_defaulted (value : α) (names : List String) (read : Json → Option α)
    (ms : List (String × Json)) (next : α × Fields → Option β) :
    (defaulted value names read (.named ms)).bind next
      = (allow value read (under names ms)).bind fun x => next (x, .named ms) := by
  rw [defaulted, take?, under]
  rcases called names ms with _ | ⟨m, _ | ⟨n, rest⟩⟩
  · rfl
  · exact Option.bind_map
  · rfl

end Fields

theorem called_settled (key : String) (ms : List (String × Json)) :
    called [key] (orderMembers (settleMembers ms))
      = (last? key ms).toList.map fun v => (key, v.settle) := by
  rw [called_singleton (ordered_orderMembers _), member?_orderMembers, last?_settleMembers]
  cases last? key ms <;> rfl

/-- **Under one name** stands the last member, settled. -/
theorem under_settled (key : String) (ms : List (String × Json)) :
    under [key] (orderMembers (settleMembers ms)) = ((last? key ms).map settle).toList := by
  rw [under, called_settled]
  cases last? key ms <;> rfl

/-- **Under several names**, only one of which has members, stands the last of these. -/
theorem under_settled_sole {names : List String} (hkey : key ∈ names)
    (h : ∀ other ∈ names, other = key ∨ last? other ms = none) :
    under names (orderMembers (settleMembers ms)) = ((last? key ms).map settle).toList := by
  rw [← under_settled]
  refine congrArg (List.map Prod.snd) (List.filter_congr fun m hm => ?_)
  refine decide_eq_decide.mpr ⟨fun hmem => ?_, fun hmem => List.mem_singleton.mp hmem ▸ hkey⟩
  refine List.mem_singleton.mpr ((h m.1 hmem).resolve_right fun hlast => ?_)
  have hnone : member? m.1 (orderMembers (settleMembers ms)) = none := by
    rw [member?_orderMembers, last?_settleMembers, hlast]
    rfl
  exact member?_eq_none_iff.mp hnone m hm rfl

/-- The tag of a settled object. -/
theorem tagged?_settled {tag kind : String} (h : last? tag ms = some (.str kind)) (depth : Depth)
    (variants : List String) :
    tagged? depth tag variants (.obj (orderMembers (settleMembers ms)))
      = some (kind, .named (orderMembers (settleMembers ms))) := by
  rw [tagged?, called_settled, h]
  rfl

end LiveSync.Json
