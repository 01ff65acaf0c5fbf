import LiveSync.Text.Decimal
import LiveSync.Url.Percent

/-!
# Numeric hosts

An address of version 4 is up to four numbers between dots. Each but the
last is a byte, and the last fills the bytes that are left, so `1.2.3`
is `1.2.0.3`. A number may be hexadecimal (after `0x`) or octal (after a
further zero).

An address of version 6 is eight groups of up to four hexadecimal digits
between colons. One run of groups that are zero may be left out, which
leaves two colons in a row, and the last two groups may be written as an
address of version 4 with four plain decimal bytes.
-/

namespace LiveSync

/-- The parts of a text between the characters that are told apart; one
more than there are such characters. -/
def splitWhere (sep : Char → Bool) : List Char → List (List Char)
  | [] => [[]]
  | c :: cs =>
    if sep c then [] :: splitWhere sep cs
    else
      match splitWhere sep cs with
      | part :: parts => (c :: part) :: parts
      | [] => [[c]]

/-- The number that digits of a base denote, the empty text being zero. -/
def numberInBase? (base : Nat) (cs : List Char) : Option Nat :=
  cs.foldlM (fun n c =>
    match Percent.hexValue? c with
    | some d => if d < base then some (n * base + d) else none
    | none => none) 0

namespace IPv4

/-- A number of an address: hexadecimal, octal or decimal. -/
def number? : List Char → Option Nat
  | [] => none
  | '0' :: 'x' :: ds => numberInBase? 16 ds
  | '0' :: 'X' :: ds => numberInBase? 16 ds
  | '0' :: d :: ds => numberInBase? 8 (d :: ds)
  | ds => numberInBase? 10 ds

/-- The parts between the dots; a dot at the end is passed over. -/
def parts (cs : List Char) : List (List Char) :=
  let ps := splitWhere (· = '.') cs
  if ps.getLast? = some [] then ps.dropLast else ps

/-- **Whether a text has to be an address**: its last part is a number, or
at least all digits. -/
def isMeant (cs : List Char) : Bool :=
  match (parts cs).getLast? with
  | none => false
  | some last => (last ≠ [] && last.all Char.isDigit) || (number? last).isSome

/-- **The address that a text denotes.** -/
def parse? (cs : List Char) : Option Nat := do
  let ps := parts cs
  guard (ps.length ≤ 4)
  let ns ← ps.mapM number?
  let last ← ns.getLast?
  let bytes := ns.dropLast
  guard (bytes.all (· ≤ 255) && last < Nat.pow 256 (4 - bytes.length))
  return bytes.foldr (fun b rest => b * 0x1000000 + rest / 256) 0 + last

/-- A byte in plain decimal, without a zero in front. -/
def byte? (cs : List Char) : Option Nat := do
  let n ← Decimal.toNat? cs
  guard (n ≤ 255 && (cs.length = 1 || cs.head? ≠ some '0'))
  return n

/-- The four bytes of an address that is written plainly. -/
def dotted? (cs : List Char) : Option (List Nat) := do
  let bytes ← (splitWhere (· = '.') cs).mapM byte?
  guard (bytes.length = 4)
  return bytes

end IPv4

namespace IPv6

/-- A group: one to four hexadecimal digits. -/
def group? (cs : List Char) : Option Nat := do
  guard (cs ≠ [] && cs.length ≤ 4)
  numberInBase? 16 cs

/-- The groups that parts denote, the last one of which may be two groups
that are written as an address of version 4 if that is allowed here. -/
def groups? (dotted : Bool) : List (List Char) → Option (List Nat)
  | [] => some []
  | [part] =>
    match group? part, IPv4.dotted? part with
    | some g, _ => some [g]
    | none, some [a, b, c, d] => if dotted then some [a * 256 + b, c * 256 + d] else none
    | none, _ => none
  | part :: parts => do return (← group? part) :: (← groups? dotted parts)

/-- The groups of a text, which may be empty. -/
def run? (dotted : Bool) (cs : List Char) : Option (List Nat) :=
  if cs = [] then some [] else groups? dotted (splitWhere (· = ':') cs)

/-- What is before and after the first two colons in a row. -/
def splitGap : List Char → Option (List Char × List Char)
  | ':' :: ':' :: cs => some ([], cs)
  | c :: cs => (splitGap cs).map fun p => (c :: p.1, p.2)
  | [] => none

/-- **The address that a text denotes**, as its eight groups. -/
def parse? (cs : List Char) : Option (List Nat) :=
  match splitGap cs with
  | none => do
    let gs ← run? true cs
    guard (gs.length = 8)
    return gs
  | some (before, after) => do
    let front ← run? false before
    let back ← run? true after
    guard (front.length + back.length ≤ 7)
    return front ++ List.replicate (8 - front.length - back.length) 0 ++ back

end IPv6

end LiveSync
