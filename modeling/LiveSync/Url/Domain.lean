import LiveSync.Url.Address
import LiveSync.Url.Punycode

/-!
# Domain names

A domain name is looked at after its characters were brought to the form
they have in a name: percent encoding is undone, letters of ASCII become
small, full width forms become their ASCII counterparts, the full stops of
other scripts become dots, and characters that are not seen are left out.
A character that has no place in a name refuses it, and so do, after all
this, a blank or a delimiter of ASCII, and a label that starts with a
combining mark or is written in Punycode without a need.

The tables hold the characters that are treated specially; a character in
none of them stands for itself.
-/

namespace LiveSync.Domain

/-- Whether a code point is in one of the ranges. -/
def inRanges (ranges : List (Nat × Nat)) (n : Nat) : Bool :=
  ranges.any fun r => r.1 ≤ n && n ≤ r.2

/-- The characters that are not seen: soft hyphen, zero width space,
word joiner, variation selectors and their like. -/
def unseen : List (Nat × Nat) :=
  [(0xAD, 0xAD), (0x34F, 0x34F), (0x180B, 0x180D), (0x180F, 0x180F), (0x200B, 0x200B),
    (0x2060, 0x2060), (0x2064, 0x2064), (0xFE00, 0xFE0F), (0xFEFF, 0xFEFF),
    (0xE0100, 0xE01EF)]

/-- The characters that stand for a blank, alone or with a mark on it. -/
def blank : List (Nat × Nat) :=
  [(0xA0, 0xA0), (0xA8, 0xA8), (0xAF, 0xAF), (0xB4, 0xB4), (0xB8, 0xB8), (0x2D8, 0x2DD),
    (0x37A, 0x37A), (0x384, 0x385), (0x2000, 0x200A), (0x2017, 0x2017), (0x202F, 0x202F),
    (0x203E, 0x203E), (0x205F, 0x205F), (0x3000, 0x3000)]

/-- The characters that have no place in a name: controls, marks of
direction, joiners, private use and what is not assigned for good. -/
def refused : List (Nat × Nat) :=
  [(0x80, 0x9F), (0x61C, 0x61C), (0x1680, 0x1680), (0x180E, 0x180E), (0x200C, 0x200F),
    (0x2028, 0x202E), (0x2061, 0x2063), (0x2065, 0x206F), (0x2FF0, 0x2FFF),
    (0xE000, 0xF8FF), (0xFDD0, 0xFDEF), (0xFFF0, 0xFFFF), (0x1D173, 0x1D17A),
    (0xE0000, 0xE00FF), (0xE01F0, 0x10FFFF)]

/-- The marks that combine with the letter before them. -/
def combining : List (Nat × Nat) :=
  [(0x300, 0x36F), (0x483, 0x489), (0x591, 0x5BD), (0x64B, 0x65F), (0x1AB0, 0x1AFF),
    (0x1DC0, 0x1DFF), (0x20D0, 0x20F0), (0x3099, 0x309A), (0xFE20, 0xFE2F)]

/-- A code point whose last four digits are `FFFE` or `FFFF`. -/
def isNoncharacter (n : Nat) : Bool := 0xFFFE ≤ n % 0x10000

/-- **The form of a character in a name**, or nothing if it has no place
there. -/
def form? (c : Char) : Option (List Char) :=
  let n := c.toNat
  if n < 0x80 then some [c.toLower]
  else if inRanges unseen n then some []
  else if inRanges blank n then some [' ']
  else if 0xFF01 ≤ n && n ≤ 0xFF5E then some [(Char.ofNat (n - 0xFEE0)).toLower]
  else if n = 0x3002 || n = 0xFF61 || n = 0x2024 then some ['.']
  else if inRanges refused n || isNoncharacter n then none
  else some [c]

/-- The blanks and delimiters of ASCII, which stand in no name. -/
def isDelimiter (c : Char) : Bool :=
  Percent.isControl c || c ∈ " %#/:<>?@[\\]^|".toList

/-- Whether a label may stand in a name. What is written in Punycode has to
need it, and to be in its form already. -/
def isLabel (label : List Char) : Bool :=
  let starts (cs : List Char) : Bool := !(cs.head?.any fun c => inRanges combining c.toNat)
  if "xn--".toList.isPrefixOf label then
    match Punycode.decode? (label.drop 4) with
    | none => false
    | some cs =>
      starts cs && cs.any (0x80 ≤ ·.toNat) && cs.all fun c => form? c = some [c] && c ≠ '.'
  else starts label

/-- **The name that a text denotes**, in small letters. It may be empty. -/
def parse? (cs : List Char) : Option (List Char) := do
  let name := (← (← Percent.decode? cs).mapM form?).flatten
  guard (!name.any isDelimiter && (splitWhere (· = '.') name).all isLabel)
  return name

end LiveSync.Domain
