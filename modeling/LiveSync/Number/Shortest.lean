import LiveSync.Number.Binary64
import LiveSync.Text.Decimal

/-!
# The shortest decimal of a double

A double is written with the fewest digits that read back as it. Of two
decimals of that length the nearer one is taken, and of two equally near
ones the one with the even last digit.

The reals that round to `m · 2^q` form an interval: half a unit to either
side, a quarter below a power of two, its ends included exactly when `m`
is even. For `1, 2, … 17` digits the two neighbours of the value on that
decimal grid are tested against the interval, in whole numbers only. If
any point of a grid lies in the interval then so does a neighbour of the
value, so the first grid with a hit has the fewest digits.
-/

namespace LiveSync.Shortest

/-- A positive decimal, `digits · 10 ^ exponent`. -/
structure Scientific where
  digits : Nat
  exponent : Int
deriving Repr, DecidableEq, Inhabited

/-- The interval of reals that round to a double, over one denominator. -/
structure Interval where
  /-- Lower end, the value itself and upper end, all over `den`. -/
  low : Nat
  value : Nat
  high : Nat
  den : Nat
  /-- Whether the ends belong to it. -/
  closed : Bool

/-- The interval that rounds to `m · 2 ^ q`. -/
def interval (m : Nat) (q : Int) : Interval :=
  let atPower := m = Binary64.leastNormal ∧ q > Binary64.minExponent
  let lowStep := if atPower then 1 else 2
  -- four units to the significand, so that a quarter is a whole number
  let scale : Nat × Nat := if 0 ≤ q then (Nat.pow 2 q.toNat, 4) else (1, 4 * Nat.pow 2 (-q).toNat)
  { low := (4 * m - lowStep) * scale.1
    value := 4 * m * scale.1
    high := (4 * m + 2) * scale.1
    den := scale.2
    closed := m % 2 = 0 }

/-- Whether `d · 10 ^ k` lies in the interval. -/
def Interval.holds (i : Interval) (d : Nat) (k : Int) : Bool :=
  let x := if 0 ≤ k then d * Nat.pow 10 k.toNat * i.den else d * i.den
  let unit := if 0 ≤ k then 1 else Nat.pow 10 (-k).toNat
  if i.closed then i.low * unit ≤ x && x ≤ i.high * unit
  else i.low * unit < x && x < i.high * unit

/-- How many places the least power of ten above `num / den` has to the
left of the point: `p` with `10^(p-1) ≤ num/den < 10^p`. -/
def places (num den : Nat) : Int :=
  if den ≤ num then ((Decimal.ofNat (num / den)).length : Int)
  else
    let rec go : Nat → Nat → Int → Int
      | 0, _, p => p
      | fuel + 1, n, p => if den ≤ n * 10 then p else go fuel (n * 10) (p - 1)
    go 400 num 0

/-- The neighbour with `n` digits that is to be written, if one of the two
lies in the interval. -/
def candidate? (i : Interval) (p : Int) (n : Nat) : Option Scientific :=
  let k := p - n
  let num := if 0 ≤ k then i.value else i.value * Nat.pow 10 (-k).toNat
  let den := if 0 ≤ k then i.den * Nat.pow 10 k.toNat else i.den
  let d := num / den
  let r := num % den
  let below := i.holds d k
  let above := i.holds (d + 1) k
  if below && (!above || 2 * r < den || (2 * r = den && d % 2 = 0)) then some ⟨d, k⟩
  else if above then some ⟨d + 1, k⟩
  else none

/-- Moves trailing zeros of the digits into the exponent. -/
def stripZeros : Nat → Scientific → Scientific
  | 0, d => d
  | fuel + 1, d =>
    if d.digits ≠ 0 ∧ d.digits % 10 = 0 then
      stripZeros fuel ⟨d.digits / 10, d.exponent + 1⟩
    else d

/-- **The shortest decimal** that rounds to `m · 2 ^ q`, for `m` positive. -/
def ofPositive (m : Nat) (q : Int) : Scientific :=
  let i := interval m q
  let p := places i.value i.den
  let hits := (List.range 17).filterMap (fun n => candidate? i p (n + 1))
  stripZeros 20 (hits.headD ⟨m, 0⟩)

end LiveSync.Shortest
