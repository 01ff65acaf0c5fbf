import LiveSync.Json.Basic
import LiveSync.Text.Decimal

/-!
# JSON numerals

A numeral is a minus sign or none, a whole part without superfluous
zeros, a fraction and an exponent. `Numeral.scan` splits one off a text;
`Numeral.value?` says which number it denotes.

A numeral with neither fraction nor exponent denotes an integer while its
digits fit an unsigned 64-bit word (with a minus sign, while it is at
least `-2^63`); `-0` is the double `-0.0`.

Every other numeral is read in two roundings, not in one. As many leading
digits as fit an unsigned 64-bit word are taken as a whole number and
rounded to a double; that double is then multiplied or divided once by a
power of ten, itself a double. Powers beyond `10^308` are divided off in
steps of `10^308`. Most numerals come out as their nearest double, a few
one unit beside it, and what would be infinite is refused.
-/

namespace LiveSync.Json

/-- **A numeral**, split into its parts. -/
structure Numeral where
  negative : Bool
  /-- The digits before the point. -/
  whole : List Char
  /-- The digits after the point, if there is one. -/
  fraction : Option (List Char)
  /-- The sign and digits of the exponent, if there is one. -/
  exponent : Option (Bool × List Char)
deriving Repr, DecidableEq

namespace Numeral

/-- Splits the leading digits off. -/
def digits (cs : List Char) : List Char × List Char :=
  (cs.takeWhile Char.isDigit, cs.dropWhile Char.isDigit)

/-- The whole part: a zero, or digits that do not start with one. -/
def scanWhole (cs : List Char) : Option (List Char × List Char) :=
  match digits cs with
  | ([], _) => none
  | ('0' :: _ :: _, _) => none
  | found => some found

/-- The fraction: a point, and at least one digit after it. -/
def scanFraction : List Char → Option (Option (List Char) × List Char)
  | '.' :: cs =>
    match digits cs with
    | ([], _) => none
    | (ds, rest) => some (some ds, rest)
  | cs => some (none, cs)

/-- The sign of an exponent; whether it is a minus. -/
def scanSign : List Char → Bool × List Char
  | '+' :: cs => (false, cs)
  | '-' :: cs => (true, cs)
  | cs => (false, cs)

/-- The digits of an exponent whose letter was read. -/
def scanPower (cs : List Char) : Option (Option (Bool × List Char) × List Char) :=
  match digits (scanSign cs).2 with
  | ([], _) => none
  | (ds, rest) => some (some ((scanSign cs).1, ds), rest)

/-- The exponent: its letter, a sign or none, and at least one digit. -/
def scanExponent : List Char → Option (Option (Bool × List Char) × List Char)
  | 'e' :: cs => scanPower cs
  | 'E' :: cs => scanPower cs
  | cs => some (none, cs)

/-- Whether a text goes on with a minus sign, and what follows it. -/
def scanMinus : List Char → Bool × List Char
  | '-' :: cs => (true, cs)
  | cs => (false, cs)

/-- **Splits a numeral off the start of a text.** -/
def scan (cs : List Char) : Option (Numeral × List Char) := do
  let (negative, cs) := scanMinus cs
  let (whole, cs) ← scanWhole cs
  let (fraction, cs) ← scanFraction cs
  let (exponent, cs) ← scanExponent cs
  return (⟨negative, whole, fraction, exponent⟩, cs)

/-- The greatest significand that is kept exactly. -/
def maxSignificand : Nat := 0xFFFFFFFFFFFFFFFF

/-- Takes digits into a significand while it stays small enough, and gives
back the digits that no longer fit. -/
def absorb (s : Nat) : List Char → Nat × List Char
  | [] => (s, [])
  | c :: rest =>
    let t := s * 10 + (c.toNat - '0'.toNat)
    if t ≤ maxSignificand then absorb t rest else (s, c :: rest)

/-- Divides a double by `10^308` until the exponent is within the table of
powers, and then multiplies or divides by the power that is left. -/
def scale? : Nat → Binary64 → Int → Option Binary64
  | 0, x, _ => some x
  | fuel + 1, x, e =>
    if e.natAbs ≤ 308 then
      match Binary64.tenTo? e.natAbs with
      | none => none
      | some p => if 0 ≤ e then x.mul? p else x.div? p
    else if x.isZero then some x
    else if 0 ≤ e then none
    else
      match Binary64.tenTo? 308 with
      | none => none
      | some p =>
        match x.div? p with
        | none => none
        | some y => scale? fuel y (e + 308)

/-- The double for `± significand · 10 ^ exponent`. Three divisions by
`10^308` take any significand to zero, so four rounds are enough. -/
def double? (negative : Bool) (significand : Nat) (exponent : Int) : Option Json :=
  match Binary64.ofNat? significand with
  | none => none
  | some x =>
    (scale? 4 x exponent).map fun y => .float { y with negative := negative }

/-- The value of a numeral without fraction and exponent whose digits fit a
word. -/
def integer? (negative : Bool) (n : Nat) : Option Json :=
  if negative then
    if n ≠ 0 ∧ n ≤ 0x8000000000000000 then some (.int (-n)) else double? true n 0
  else some (.int n)

/-- The exponent that was written, zero when none was. -/
def power (x : Numeral) : Int :=
  match x.exponent with
  | none => 0
  | some (minus, ds) =>
    let n : Int := Nat.ofDigitChars 10 ds 0
    if minus then -n else n

/-- **The number a numeral denotes**, or nothing when it is too large. -/
def value? (x : Numeral) : Option Json :=
  let (s, left) := absorb 0 x.whole
  match x.fraction, x.exponent, left with
  | none, none, [] => integer? x.negative s
  | fraction, _, _ =>
    let ds := fraction.getD []
    let (t, rest) := absorb s ds
    let taken : Int := ds.length - rest.length
    double? x.negative t (left.length - taken + x.power)

end Numeral

end LiveSync.Json
