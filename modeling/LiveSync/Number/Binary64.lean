/-!
# Finite double-precision numbers

A **double** is `± m · 2^q` with `m < 2^53`, either normal (`2^52 ≤ m`) or
at the least exponent `q = -1074`; the zeros are `± 0 · 2^(-1074)`. There
is no infinity among them: what is too large has no double, and the
operations say so by returning nothing.

Every operation is the exact one followed by one rounding to the nearest
double, a tie going to the even significand. The exact side is a quotient
of natural numbers, so nothing here depends on a machine's arithmetic.
-/

namespace LiveSync

/-- **A finite double**, `± significand · 2 ^ exponent`. -/
structure Binary64 where
  /-- Whether the sign is minus; the two zeros differ in it. -/
  negative : Bool
  /-- The significand, below `2 ^ 53`. -/
  significand : Nat
  /-- The power of two it is multiplied with. -/
  exponent : Int
deriving Repr, DecidableEq, Inhabited

/-- `num / den` rounded to a whole number, a tie to the even one. -/
def roundDiv (num den : Nat) : Nat :=
  let q := num / den
  let r := num % den
  if 2 * r < den ∨ (2 * r = den ∧ q % 2 = 0) then q else q + 1

namespace Binary64

/-- The least exponent; below `2 ^ 52` of it lie the subnormal numbers. -/
def minExponent : Int := -1074

/-- The greatest exponent. -/
def maxExponent : Int := 971

/-- The least significand of a normal number, `2 ^ 52`. -/
def leastNormal : Nat := 0x10000000000000

/-- The zero of either sign. -/
def zero (negative : Bool) : Binary64 := ⟨negative, 0, minExponent⟩

/-- `num / den` divided by `2 ^ e`, again as a quotient. -/
def scaled (num den : Nat) (e : Int) : Nat × Nat :=
  if 0 ≤ e then (num, den * Nat.pow 2 e.toNat) else (num * Nat.pow 2 (-e).toNat, den)

/-- The exponent at which `num / den` has a significand of 53 bits, or the
least exponent when that would lie below it. -/
def exponentOf (num den : Nat) : Int :=
  let e : Int := (num.log2 : Int) - den.log2 - 52
  let q := scaled num den e
  max minExponent (if q.1 / q.2 < leastNormal then e - 1 else e)

/-- **The double nearest to `± num / den`**, or nothing when it would be
infinite. -/
def ofRatio? (negative : Bool) (num den : Nat) : Option Binary64 :=
  if num = 0 then some (zero negative)
  else
    let e := exponentOf num den
    let q := scaled num den e
    let m := roundDiv q.1 q.2
    if m = 2 * leastNormal then
      if e + 1 ≤ maxExponent then some ⟨negative, leastNormal, e + 1⟩ else none
    else if e ≤ maxExponent then some ⟨negative, m, e⟩ else none

/-- The magnitude as a quotient. -/
def ratio (x : Binary64) : Nat × Nat :=
  if 0 ≤ x.exponent then (x.significand * Nat.pow 2 x.exponent.toNat, 1)
  else (x.significand, Nat.pow 2 (-x.exponent).toNat)

/-- Whether the number is a zero. -/
def isZero (x : Binary64) : Bool := x.significand = 0

/-- The double nearest to a natural number. -/
def ofNat? (n : Nat) : Option Binary64 := ofRatio? false n 1

/-- The magnitude of `x` times that of `y`. -/
def mul? (x y : Binary64) : Option Binary64 :=
  ofRatio? false (x.ratio.1 * y.ratio.1) (x.ratio.2 * y.ratio.2)

/-- The magnitude of `x` divided by that of `y`. -/
def div? (x y : Binary64) : Option Binary64 :=
  ofRatio? false (x.ratio.1 * y.ratio.2) (x.ratio.2 * y.ratio.1)

/-- The double nearest to `10 ^ k`. -/
def tenTo? (k : Nat) : Option Binary64 := ofNat? (Nat.pow 10 k)

end Binary64

end LiveSync
