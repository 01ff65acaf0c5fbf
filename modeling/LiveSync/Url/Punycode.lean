/-!
# Punycode

A label of a domain name that is not of ASCII can be written in ASCII: the
prefix `xn--`, the characters of it that are of ASCII, a hyphen, and then
the others in the order of their code points, each as the distance from
the one before. A distance is a number of variable length in base 36,
least digit first, whose digits end with the first below its threshold.
The thresholds move with the distances that were seen.

`decode?` takes what follows the prefix.
-/

namespace LiveSync.Punycode

/-- The value of a digit: letters of either case, then decimal digits. -/
def digit? (c : Char) : Option Nat :=
  if 'a' ≤ c ∧ c ≤ 'z' then some (c.toNat - 'a'.toNat)
  else if 'A' ≤ c ∧ c ≤ 'Z' then some (c.toNat - 'A'.toNat)
  else if '0' ≤ c ∧ c ≤ '9' then some (c.toNat - '0'.toNat + 26)
  else none

/-- A digit at position `k` is the last of its number if it is below this. -/
def threshold (k bias : Nat) : Nat := min 26 (max 1 (k - bias))

/-- Divides a distance by 35 until it is at most 455, and counts the
positions that takes. -/
def settle (delta k : Nat) : Nat × Nat :=
  if 455 < delta then settle (delta / 35) (k + 36) else (delta, k)
termination_by delta
decreasing_by exact Nat.div_lt_self (by omega) (by omega)

/-- The bias after a distance, when so many characters are known. -/
def adapt (delta count : Nat) (first : Bool) : Nat :=
  let d := if first then delta / 700 else delta / 2
  let (d, k) := settle (d + d / count) 0
  k + 36 * d / (d + 38)

/-- What is known between two digits. -/
structure State where
  /-- The characters so far. -/
  chars : List Char
  /-- The code point of the last one that was inserted. -/
  point : Nat
  /-- Where it was inserted, counted on from the end of the last distance. -/
  index : Nat
  bias : Nat
  /-- The part of the running distance that was read. -/
  delta : Nat
  /-- What a digit counts at the current position. -/
  weight : Nat
  /-- The position of the next digit. -/
  position : Nat

/-- Reads a digit, and inserts a character if it is the last of its number. -/
def step (s : State) (c : Char) : Option State := do
  let d ← digit? c
  let delta := s.delta + d * s.weight
  let t := threshold s.position s.bias
  if d < t then
    let count := s.chars.length + 1
    let index := s.index + delta
    let point := s.point + index / count
    guard point.isValidChar
    return {
      chars := s.chars.insertIdx (index % count) (Char.ofNat point)
      point := point
      index := index % count + 1
      bias := adapt delta count (s.index = 0)
      delta := 0, weight := 1, position := 36 }
  else
    return { s with delta, weight := s.weight * (36 - t), position := s.position + 36 }

/-- The part before the last hyphen and the part after it; all is after it
if there is no hyphen, and also if nothing would be before it. -/
def splitLast (cs : List Char) : List Char × List Char :=
  let tail := cs.reverse.takeWhile (· ≠ '-')
  match cs.take (cs.length - tail.length - 1) with
  | [] => ([], cs)
  | basic => (basic, tail.reverse)

/-- **The label that is written so**, if there is one. -/
def decode? (cs : List Char) : Option (List Char) := do
  let (basic, digits) := splitLast cs
  guard (basic.all (·.toNat < 0x80))
  let s ← digits.foldlM step ⟨basic, 0x80, 0, 72, 0, 1, 36⟩
  guard (s.position = 36)
  return s.chars

end LiveSync.Punycode
