/-!
# Decimal digits

Whole numbers are written in base ten without leading zeros, a negative
one after a minus sign. Reading is more generous than writing: any
non-empty run of ASCII digits denotes a number, leading zeros included,
and a digit of another script denotes none.

`toNat?_ofNat` says that what was written is read back.
-/

namespace LiveSync.Decimal

/-- The digits of a natural number. -/
def ofNat (n : Nat) : List Char := Nat.toDigits 10 n

/-- The text of an integer. -/
def ofInt : Int → List Char
  | .ofNat n => ofNat n
  | .negSucc n => '-' :: ofNat (n + 1)

/-- **The number a run of digits denotes**, or nothing when there is no
digit or something else than one. -/
def toNat? (cs : List Char) : Option Nat :=
  if cs ≠ [] ∧ cs.all Char.isDigit then some (Nat.ofDigitChars 10 cs 0) else none

/-- The digits of `n`, filled up with zeros on the left to `width` places. -/
def padded (width n : Nat) : List Char :=
  let ds := ofNat n
  List.replicate (width - ds.length) '0' ++ ds

/-- The text of a natural number. -/
def natText (n : Nat) : String := String.ofList (ofNat n)

/-- The text of an integer. -/
def intText (n : Int) : String := String.ofList (ofInt n)

theorem ofNat_ne_nil (n : Nat) : ofNat n ≠ [] := Nat.toDigits_ne_nil

theorem isDigit_of_mem_ofNat {n : Nat} {c : Char} (h : c ∈ ofNat n) : c.isDigit = true :=
  Nat.isDigit_of_mem_toDigits (by decide) (by decide) h

/-- **What was written is read back.** -/
theorem toNat?_ofNat (n : Nat) : toNat? (ofNat n) = some n := by
  have hall : (ofNat n).all Char.isDigit = true :=
    List.all_eq_true.2 fun _ h => isDigit_of_mem_ofNat h
  rw [toNat?, if_pos ⟨ofNat_ne_nil n, hall⟩]
  exact congrArg some (Nat.ofDigitChars_toDigits (by decide) (by decide))

/-- A run of digits is what can be read, and nothing else is. -/
theorem isSome_toNat?_iff (cs : List Char) :
    (toNat? cs).isSome ↔ cs ≠ [] ∧ ∀ c ∈ cs, c.isDigit = true := by
  unfold toNat?
  split <;> simp_all

example : toNat? "007".toList = some 7 ∧ toNat? [] = none := by decide

end LiveSync.Decimal
