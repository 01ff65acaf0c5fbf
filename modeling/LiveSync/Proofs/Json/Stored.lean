import LiveSync.Json.Reader
import LiveSync.Proofs.Json.Values

/-!
# What is read can be stored

A reader takes no integer that is beyond 64 bits: a numeral with more digits is a
double. What is read has therefore but to be settled to be a value of the kind that
is stored and sent (`stored_settle_of_parse?`).
-/

namespace LiveSync.Json

variable {v : Json} {d : Nat} {cs rest : List Char}

/-! ### Numerals -/

namespace Numeral

theorem absorb_le {s : Nat} (ds : List Char) (h : s ≤ maxSignificand) :
    (absorb s ds).1 ≤ maxSignificand := by
  induction ds generalizing s with
  | nil => exact h
  | cons c ds ih =>
    rw [absorb]
    split
    · exact ih ‹_›
    · exact h

theorem fits_of_double? {negative : Bool} {s : Nat} {e : Int}
    (h : double? negative s e = some v) : v.all fits = true := by
  rw [double?] at h
  split at h
  · cases h
  · obtain ⟨y, -, rfl⟩ := Option.map_eq_some_iff.mp h
    rfl

theorem fits_of_integer? {negative : Bool} {s : Nat} (hs : s ≤ maxSignificand)
    (h : integer? negative s = some v) : v.all fits = true := by
  rw [maxSignificand] at hs
  rw [integer?] at h
  split at h
  · split at h
    · obtain rfl := Option.some.inj h
      exact (plain_int 0 (by omega) (by omega)).fits
    · exact fits_of_double? h
  · obtain rfl := Option.some.inj h
    exact (plain_int 0 (by omega) (by omega)).fits

/-- **No number is too large.** -/
theorem fits_of_value? {x : Numeral} (h : value? x = some v) : v.all fits = true := by
  have hs : (absorb 0 x.whole).1 ≤ maxSignificand := absorb_le x.whole (Nat.zero_le _)
  rw [value?] at h
  dsimp only at h
  split at h
  · exact fits_of_integer? hs h
  · exact fits_of_double? h

end Numeral

/-! ### Values -/

namespace Reader

theorem fits_of_scalar (h : scalar .read cs = some (v, rest)) : v.all fits = true := by
  rw [scalar.eq_def] at h
  split at h
  iterate 4
    · obtain ⟨x, -, hx⟩ := Option.map_eq_some_iff.mp h
      cases hx
      rfl
  · split at h
    · cases h
    · obtain ⟨w, hw, hx⟩ := Option.map_eq_some_iff.mp h
      cases hx
      exact Numeral.fits_of_value? hw

/-- What holds of whatever an item reader reads holds of all items. -/
theorem forall_items {item : Scan Json} {P : Json → Prop}
    (hitem : ∀ cs v rest, item cs = some (v, rest) → P v) {n : Nat} {vs : List Json}
    (h : items item n cs = some (vs, rest)) : ∀ v ∈ vs, P v := by
  induction n generalizing cs vs rest with
  | zero => cases h
  | succ n ih =>
    rw [items] at h
    split at h
    · cases h
    · rename_i v rest' hv
      have hfirst := hitem _ _ _ hv
      split at h
      · obtain ⟨⟨more, rest''⟩, hmore, hx⟩ := Option.map_eq_some_iff.mp h
        cases hx
        exact List.forall_mem_cons.mpr ⟨hfirst, ih hmore⟩
      · cases h
        exact List.forall_mem_singleton.mpr hfirst
      · cases h

theorem forall_members {item : Scan Json} {P : Json → Prop}
    (hitem : ∀ cs v rest, item cs = some (v, rest) → P v) {n : Nat} {ms : List (String × Json)}
    (h : members (fun _ => item) n cs = some (ms, rest)) : ∀ m ∈ ms, P m.2 := by
  induction n generalizing cs ms rest with
  | zero => cases h
  | succ n ih =>
    rw [members] at h
    split at h
    · cases h
    · split at h
      · cases h
      · rename_i v rest' hv
        have hfirst := hitem _ _ _ hv
        split at h
        · obtain ⟨⟨more, rest''⟩, hmore, hx⟩ := Option.map_eq_some_iff.mp h
          cases hx
          exact List.forall_mem_cons.mpr ⟨hfirst, ih hmore⟩
        · cases h
          exact List.forall_mem_singleton.mpr hfirst
        · cases h

/-- **No integer in a value that was read is too large.** -/
theorem fits_of_value (h : value .read d cs = some (v, rest)) : v.all fits = true := by
  induction d generalizing cs v rest with
  | zero =>
    rw [value.eq_def] at h
    dsimp only at h
    split at h
    · cases h
    · cases h
    · exact fits_of_scalar h
  | succ d ih =>
    have hitem : ∀ cs v rest, value .read d cs = some (v, rest) → v.all fits = true :=
      fun _ _ _ => ih
    rw [value.eq_def] at h
    dsimp only at h
    split at h
    · obtain ⟨⟨vs, rest'⟩, hvs, hx⟩ := Option.map_eq_some_iff.mp h
      cases hx
      refine all_arr_iff.mpr ⟨rfl, ?_⟩
      rw [array] at hvs
      split at hvs
      · cases hvs
        exact nofun
      · exact forall_items hitem hvs
    · obtain ⟨⟨ms, rest'⟩, hms, hx⟩ := Option.map_eq_some_iff.mp h
      cases hx
      refine all_obj_iff.mpr ⟨rfl, ?_⟩
      rw [object] at hms
      split at hms
      · cases hms
        exact nofun
      · exact forall_members hitem hms
    · exact fits_of_scalar h

end Reader

theorem fits_of_parse? {text : String} (h : parse? text = some v) : v.all fits = true := by
  rw [parse?, Reader.complete.eq_def] at h
  split at h
  · rename_i w rest hw
    split at h
    · cases h
      exact Reader.fits_of_value hw
    · cases h
  · cases h

/-! ### Settling -/

/-- Settling a value makes no integer larger. -/
theorem fits_settle (h : v.all fits = true) : v.settle.all fits = true := by
  induction v using Json.induction with
  | null | bool | int | float | str => exact h
  | arr items ih =>
    rw [settle, settleItems_eq_map]
    refine all_arr_iff.mpr ⟨rfl, List.forall_mem_map.mpr fun v hv => ?_⟩
    exact ih v hv ((all_arr_iff.mp h).2 v hv)
  | obj ms ih =>
    rw [settle, settleMembers_eq_map]
    refine all_obj_iff.mpr ⟨rfl, fun m hm => ?_⟩
    obtain ⟨n, hn, rfl⟩ := List.mem_map.mp (mem_orderMembers hm)
    exact ih n hn ((all_obj_iff.mp h).2 n hn)

/-- **What was read is stored** once it is settled. -/
theorem stored_settle_of_parse? {text : String} (h : parse? text = some v) : v.settle.Stored :=
  ⟨settle_settle v, fits_settle (fits_of_parse? h)⟩

/-- The members of a stored object hold stored values. -/
theorem Stored.of_mem {ms : List (String × Json)} {m : String × Json} (h : (obj ms).Stored)
    (hm : m ∈ ms) : m.2.Stored := by
  refine ⟨?_, (all_obj_iff.mp h.fits).2 m hm⟩
  have hms : orderMembers (settleMembers ms) = ms := by
    have hsettled := h.settled
    rw [settle] at hsettled
    exact obj.inj hsettled
  rw [← hms] at hm
  have hmem := mem_orderMembers hm
  rw [settleMembers_eq_map] at hmem
  obtain ⟨n, -, rfl⟩ := List.mem_map.mp hmem
  exact settle_settle n.2

/-- An object is stored if its members hold stored values. -/
theorem stored_object {ms : List (String × Json)} (h : ∀ m ∈ ms, m.2.Stored) :
    (object ms).Stored := by
  have hsettled : settleMembers (orderMembers ms) = orderMembers ms :=
    settleMembers_eq_self fun m hm => (h m (mem_orderMembers hm)).settled
  refine ⟨?_, all_obj_iff.mpr ⟨rfl, fun m hm => (h m (mem_orderMembers hm)).fits⟩⟩
  rw [object, settle, hsettled, (ordered_orderMembers ms).orderMembers_eq]

end LiveSync.Json
