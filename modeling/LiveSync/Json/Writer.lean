import LiveSync.Json.Basic
import LiveSync.Number.Shortest

/-!
# Writing JSON text

The written form is compact: no blanks, members in the order of the
value. A string escapes the quote, the backslash and the control
characters below U+0020, five of those by a letter and the others by four
lower-case hexadecimal digits; every other character stands for itself.

A double has its shortest digits (`Shortest`). It is positional from
`10^-5` up to `10^16`, with `.0` after a whole number, and otherwise has
an exponent without plus sign.
-/

namespace LiveSync.Json

namespace Writer

/-- A lower-case hexadecimal digit. -/
def hexDigit (n : Nat) : Char :=
  if n < 10 then Char.ofNat ('0'.toNat + n) else Char.ofNat ('a'.toNat + n - 10)

/-- A character inside a string. -/
def charText (c : Char) : List Char :=
  if c = '"' then ['\\', '"']
  else if c = '\\' then ['\\', '\\']
  else if c = '\x08' then ['\\', 'b']
  else if c = '\x0c' then ['\\', 'f']
  else if c = '\n' then ['\\', 'n']
  else if c = '\r' then ['\\', 'r']
  else if c = '\t' then ['\\', 't']
  else if c.toNat < 0x20 then
    ['\\', 'u', '0', '0', hexDigit (c.toNat / 16), hexDigit (c.toNat % 16)]
  else [c]

/-- A string between its quotes. -/
def stringText (s : String) : List Char :=
  '"' :: (s.toList.flatMap charText ++ ['"'])

/-- The shape in which a double is written: positional while the point
falls within `minPlaces < places ≤ maxPlaces`. -/
structure DoubleFormat where
  /-- Positional notation ends at this many places before the point. -/
  maxPlaces : Int
  /-- Positional notation begins above this many places. -/
  minPlaces : Int

/-- Payloads write doubles positionally from `10^-5` up to `10^16`. -/
def doubleFormat : DoubleFormat := ⟨16, -5⟩

/-- The text of a positive decimal. -/
def scientificText (format : DoubleFormat) (d : Shortest.Scientific) : List Char :=
  let ds := Decimal.ofNat d.digits
  let places : Int := ds.length + d.exponent
  if 0 ≤ d.exponent ∧ places ≤ format.maxPlaces then
    ds ++ List.replicate d.exponent.toNat '0' ++ ['.', '0']
  else if 0 < places ∧ places ≤ format.maxPlaces then
    ds.take places.toNat ++ '.' :: ds.drop places.toNat
  else if format.minPlaces < places ∧ places ≤ 0 then
    '0' :: '.' :: (List.replicate (-places).toNat '0' ++ ds)
  else
    let power := 'e' :: Decimal.ofInt (places - 1)
    match ds with
    | [c] => c :: power
    | c :: rest => c :: '.' :: (rest ++ power)
    | [] => power

/-- The text of a double. -/
def doubleText (x : Binary64) : List Char :=
  let magnitude :=
    if x.isZero then ['0', '.', '0']
    else scientificText doubleFormat (Shortest.ofPositive x.significand x.exponent)
  if x.negative then '-' :: magnitude else magnitude

mutual

/-- **The text of a value.** -/
def value : Json → List Char
  | .null => ['n', 'u', 'l', 'l']
  | .bool true => ['t', 'r', 'u', 'e']
  | .bool false => ['f', 'a', 'l', 's', 'e']
  | .int n => Decimal.ofInt n
  | .float x => doubleText x
  | .str s => stringText s
  | .arr [] => ['[', ']']
  | .arr (v :: rest) => '[' :: (value v ++ moreItems rest)
  | .obj [] => ['\x7b', '\x7d']
  | .obj ((k, v) :: rest) =>
    '\x7b' :: (stringText k ++ ':' :: (value v ++ moreMembers rest))

/-- The items after the first, and the closing bracket. -/
def moreItems : List Json → List Char
  | [] => [']']
  | v :: rest => ',' :: (value v ++ moreItems rest)

/-- The members after the first, and the closing brace. -/
def moreMembers : List (String × Json) → List Char
  | [] => ['\x7d']
  | (k, v) :: rest => ',' :: (stringText k ++ ':' :: (value v ++ moreMembers rest))

end

end Writer

/-- **The compact text of a value.** -/
def render (v : Json) : String := String.ofList (Writer.value v)

end LiveSync.Json
