import LiveSync.Proofs.Json.Members

/-!
# All of a value

What holds of every value is shown along its shape: of `null`, the truth values,
the numbers and the strings, of an array if it holds of its items, and of an object
if it holds of the values of its members (`Json.induction`). Likewise a test is
extended to everything inside a value (`Json.all`), and the arrays and objects that
are nested in one another are counted (`Json.nesting`).

The values that are stored and sent are those that are settled and whose integers
fit 64 bits (`Json.Stored`).
-/

namespace LiveSync.Json

open Fields

variable {p : Json → Bool} {items : List Json} {ms : List (String × Json)} {v : Json}

/-- **What holds of every value**, shown along its shape. -/
@[elab_as_elim]
theorem induction {motive : Json → Prop} (null : motive .null) (bool : ∀ b, motive (.bool b))
    (int : ∀ n, motive (.int n)) (float : ∀ x, motive (.float x)) (str : ∀ s, motive (.str s))
    (arr : ∀ items, (∀ v ∈ items, motive v) → motive (.arr items))
    (obj : ∀ ms : List (String × Json), (∀ m ∈ ms, motive m.2) → motive (.obj ms)) (v : Json) :
    motive v := by
  refine Json.rec (motive_1 := motive) (motive_2 := fun items => ∀ v ∈ items, motive v)
    (motive_3 := fun ms => ∀ m ∈ ms, motive m.2) (motive_4 := fun m => motive m.2)
    null bool int float str arr obj ?_ ?_ ?_ ?_ ?_ v
  · exact nofun
  · exact fun v items hv hitems => List.forall_mem_cons.mpr ⟨hv, hitems⟩
  · exact nofun
  · exact fun m ms hm hms => List.forall_mem_cons.mpr ⟨hm, hms⟩
  · exact fun _ _ hv => hv

/-! ### Tests -/

mutual

/-- **Whether a test holds** of a value and of everything inside it. -/
def all (p : Json → Bool) : Json → Bool
  | .arr items => p (.arr items) && allItems p items
  | .obj members => p (.obj members) && allMembers p members
  | v => p v

/-- Whether a test holds of all items and of everything inside them. -/
def allItems (p : Json → Bool) : List Json → Bool
  | [] => true
  | v :: rest => all p v && allItems p rest

/-- Whether a test holds of all members and of everything inside them. -/
def allMembers (p : Json → Bool) : List (String × Json) → Bool
  | [] => true
  | (_, v) :: rest => all p v && allMembers p rest

end

theorem allItems_iff : allItems p items = true ↔ ∀ v ∈ items, v.all p = true := by
  induction items with
  | nil => simp [allItems]
  | cons v items ih => rw [allItems, Bool.and_eq_true, ih, List.forall_mem_cons]

theorem allMembers_iff : allMembers p ms = true ↔ ∀ m ∈ ms, m.2.all p = true := by
  induction ms with
  | nil => simp [allMembers]
  | cons m ms ih => rw [allMembers, Bool.and_eq_true, ih, List.forall_mem_cons]

theorem all_arr_iff :
    (arr items).all p = true ↔ p (.arr items) = true ∧ ∀ v ∈ items, v.all p = true := by
  rw [all, Bool.and_eq_true, allItems_iff]

theorem all_obj_iff :
    (obj ms).all p = true ↔ p (.obj ms) = true ∧ ∀ m ∈ ms, m.2.all p = true := by
  rw [all, Bool.and_eq_true, allMembers_iff]

/-- Whether a value is not a double. -/
def isNoFloat : Json → Bool
  | .float _ => false
  | _ => true

/-- Whether a value is not an integer that is beyond 64 bits. -/
def fits : Json → Bool
  | .int n => decide (-0x8000000000000000 ≤ n ∧ n < 0x10000000000000000)
  | _ => true

/-! ### Nesting -/

mutual

/-- **How many arrays and objects are nested** in one another. -/
def nesting : Json → Nat
  | .arr items => nestingItems items + 1
  | .obj members => nestingMembers members + 1
  | _ => 0

/-- The deepest nesting among items. -/
def nestingItems : List Json → Nat
  | [] => 0
  | v :: rest => max (nesting v) (nestingItems rest)

/-- The deepest nesting among the values of members. -/
def nestingMembers : List (String × Json) → Nat
  | [] => 0
  | (_, v) :: rest => max (nesting v) (nestingMembers rest)

end

theorem nestingItems_le_iff {d : Nat} : nestingItems items ≤ d ↔ ∀ v ∈ items, v.nesting ≤ d := by
  induction items with
  | nil => simp [nestingItems]
  | cons v items ih => rw [nestingItems, Nat.max_le, ih, List.forall_mem_cons]

theorem nestingMembers_le_iff {d : Nat} : nestingMembers ms ≤ d ↔ ∀ m ∈ ms, m.2.nesting ≤ d := by
  induction ms with
  | nil => simp [nestingMembers]
  | cons m ms ih => rw [nestingMembers, Nat.max_le, ih, List.forall_mem_cons]

/-! ### Plain values -/

/-- **A value that a text can hold exactly**: no double is in it, its integers fit 64
bits, and at most so many arrays and objects are nested in one another. -/
structure Plain (depth : Nat) (v : Json) : Prop where
  noFloat : v.all isNoFloat = true
  fits : v.all fits = true
  nesting : v.nesting ≤ depth

theorem plain_arr_iff {d : Nat} : Plain (d + 1) (.arr items) ↔ ∀ v ∈ items, Plain d v := by
  constructor
  · rintro ⟨hfloat, hfits, hnesting⟩ v hv
    exact ⟨(all_arr_iff.mp hfloat).2 v hv, (all_arr_iff.mp hfits).2 v hv,
      nestingItems_le_iff.mp (Nat.le_of_succ_le_succ hnesting) v hv⟩
  · intro h
    exact ⟨all_arr_iff.mpr ⟨rfl, fun v hv => (h v hv).noFloat⟩,
      all_arr_iff.mpr ⟨rfl, fun v hv => (h v hv).fits⟩,
      Nat.succ_le_succ (nestingItems_le_iff.mpr fun v hv => (h v hv).nesting)⟩

theorem plain_obj_iff {d : Nat} : Plain (d + 1) (.obj ms) ↔ ∀ m ∈ ms, Plain d m.2 := by
  constructor
  · rintro ⟨hfloat, hfits, hnesting⟩ m hm
    exact ⟨(all_obj_iff.mp hfloat).2 m hm, (all_obj_iff.mp hfits).2 m hm,
      nestingMembers_le_iff.mp (Nat.le_of_succ_le_succ hnesting) m hm⟩
  · intro h
    exact ⟨all_obj_iff.mpr ⟨rfl, fun m hm => (h m hm).noFloat⟩,
      all_obj_iff.mpr ⟨rfl, fun m hm => (h m hm).fits⟩,
      Nat.succ_le_succ (nestingMembers_le_iff.mpr fun m hm => (h m hm).nesting)⟩

@[simp] theorem plain_str (d : Nat) (s : String) : Plain d (.str s) := ⟨rfl, rfl, Nat.zero_le d⟩

@[simp] theorem plain_bool (d : Nat) (b : Bool) : Plain d (.bool b) := ⟨rfl, rfl, Nat.zero_le d⟩

theorem plain_int (d : Nat) {n : Int} (hlow : -0x8000000000000000 ≤ n)
    (hhigh : n < 0x10000000000000000) : Plain d (.int n) :=
  ⟨rfl, decide_eq_true ⟨hlow, hhigh⟩, Nat.zero_le d⟩

@[simp] theorem plain_ofInt64 (d : Nat) (n : Int64) : Plain d (ofInt64 n) :=
  plain_int d n.le_toInt (Int.lt_trans n.toInt_lt (by decide))

@[simp] theorem plain_ofUInt32 (d : Nat) (n : UInt32) : Plain d (ofUInt32 n) := by
  have := n.toNat_lt
  exact plain_int d (by omega) (by omega)

@[simp] theorem plain_ofUInt8 (d : Nat) (n : UInt8) : Plain d (ofUInt8 n) := by
  have := n.toNat_lt
  exact plain_int d (by omega) (by omega)

@[simp] theorem plain_ofOption {α : Type} {d : Nat} {write : α → Json}
    (h : ∀ x, Plain d (write x)) (o : Option α) : Plain d (ofOption write o) := by
  cases o with
  | none => exact ⟨rfl, rfl, Nat.zero_le d⟩
  | some x => exact h x

/-! ### Stored values -/

/-- **A settled value is not changed** by being settled once more. -/
theorem settle_settle (v : Json) : v.settle.settle = v.settle := by
  induction v using induction with
  | null | bool | int | float | str => rfl
  | arr items ih =>
    rw [settle, settle, settleItems_eq_map, settleItems_eq_map, List.map_map]
    exact congrArg arr (List.map_congr_left ih)
  | obj ms ih =>
    have hsettled : settleMembers (orderMembers (settleMembers ms))
        = orderMembers (settleMembers ms) := by
      refine settleMembers_eq_self fun m hm => ?_
      have hmem := mem_orderMembers hm
      rw [settleMembers_eq_map] at hmem
      obtain ⟨n, hn, rfl⟩ := List.mem_map.mp hmem
      exact ih n hn
    rw [settle, settle, hsettled, (ordered_orderMembers _).orderMembers_eq]

@[simp] theorem settle_str (s : String) : (Json.str s).settle = .str s := rfl

@[simp] theorem settle_ofInt64 (n : Int64) : (ofInt64 n).settle = ofInt64 n := rfl

@[simp] theorem settle_ofUInt32 (n : UInt32) : (ofUInt32 n).settle = ofUInt32 n := rfl

/-- **A value that is stored and sent.** -/
structure Stored (v : Json) : Prop where
  settled : v.settle = v
  fits : v.all fits = true

end LiveSync.Json
