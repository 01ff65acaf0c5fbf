/-!
# Numbers of fixed width

Identifiers, versions, seats and counters arrive as whole numbers of no
particular size and are kept in words. A number that does not fit its
word is refused; it is never cut down to one.

Each reader is characterised by the number its word stands for, so that a
fact about words can be stated on `Int` or `Nat`.
-/

namespace LiveSync.Word

/-- The signed 64-bit word for `n`, if there is one. -/
def int64? (n : Int) : Option Int64 :=
  if -0x8000000000000000 ≤ n ∧ n < 0x8000000000000000 then some (Int64.ofInt n) else none

/-- The unsigned 8-bit word for `n`, if there is one. -/
def uint8? (n : Int) : Option UInt8 :=
  if 0 ≤ n ∧ n < 0x100 then some (UInt8.ofNat n.toNat) else none

/-- The unsigned 16-bit word for `n`, if there is one. -/
def uint16? (n : Int) : Option UInt16 :=
  if 0 ≤ n ∧ n < 0x10000 then some (UInt16.ofNat n.toNat) else none

/-- The unsigned 32-bit word for `n`, if there is one. -/
def uint32? (n : Int) : Option UInt32 :=
  if 0 ≤ n ∧ n < 0x100000000 then some (UInt32.ofNat n.toNat) else none

/-- The unsigned 64-bit word for `n`, if there is one. -/
def uint64? (n : Int) : Option UInt64 :=
  if 0 ≤ n ∧ n < 0x10000000000000000 then some (UInt64.ofNat n.toNat) else none

/-- **A signed word is read exactly from the number it stands for.** -/
theorem int64?_eq_some_iff (n : Int) (w : Int64) : int64? n = some w ↔ w.toInt = n := by
  unfold int64?
  constructor
  · intro h
    split at h
    · rename_i hn
      cases h
      rw [Int64.toInt_ofInt_of_le] <;> simp <;> omega
    · cases h
  · rintro rfl
    have h1 := w.le_toInt
    have h2 := w.toInt_lt
    rw [if_pos (by constructor <;> simpa using by assumption), Int64.ofInt_toInt]

/-- An 8-bit word is read exactly from the number it stands for. -/
theorem uint8?_eq_some_iff (n : Int) (w : UInt8) : uint8? n = some w ↔ (w.toNat : Int) = n := by
  unfold uint8?
  have h := w.toNat_lt
  split
  · simp [← UInt8.toNat_inj]; omega
  · simp; omega

/-- A 16-bit word is read exactly from the number it stands for. -/
theorem uint16?_eq_some_iff (n : Int) (w : UInt16) :
    uint16? n = some w ↔ (w.toNat : Int) = n := by
  unfold uint16?
  have h := w.toNat_lt
  split
  · simp [← UInt16.toNat_inj]; omega
  · simp; omega

/-- A 32-bit word is read exactly from the number it stands for. -/
theorem uint32?_eq_some_iff (n : Int) (w : UInt32) :
    uint32? n = some w ↔ (w.toNat : Int) = n := by
  unfold uint32?
  have h := w.toNat_lt
  split
  · simp [← UInt32.toNat_inj]; omega
  · simp; omega

/-- A 64-bit word is read exactly from the number it stands for. -/
theorem uint64?_eq_some_iff (n : Int) (w : UInt64) :
    uint64? n = some w ↔ (w.toNat : Int) = n := by
  unfold uint64?
  have h := w.toNat_lt
  split
  · simp [← UInt64.toNat_inj]; omega
  · simp; omega

end LiveSync.Word
