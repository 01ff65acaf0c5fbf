import LiveSync.Number.Word
import LiveSync.Url.Address
import LiveSync.Yaml.Node

/-!
# Numbers in scalars

A scalar is a **whole number** if it is written plainly, or as a literal
block with the tag of integers, and its text is one: digits in base ten
without a zero in front, or `0x`, `0o` or `0b` and digits of the base, all
perhaps behind a plus sign. A quoted scalar is a text, whatever is in it.
-/

namespace LiveSync.Yaml

/-- The tag of integers. -/
def integerTag : String := "tag:yaml.org,2002:int"

/-- Digits of a base, at least one. -/
def digits? (base : Nat) (cs : List Char) : Option Nat :=
  if cs = [] then none else numberInBase? base cs

/-- **The number that a text is.** -/
def naturalOf? (cs : List Char) : Option Nat :=
  match if cs.head? = some '+' then cs.tail else cs with
  | '0' :: 'x' :: ds => digits? 16 ds
  | '0' :: 'o' :: ds => digits? 8 ds
  | '0' :: 'b' :: ds => digits? 2 ds
  | ['0'] => some 0
  | '0' :: _ => none
  | ds => digits? 10 ds

namespace Scalar

/-- Whether the text of a scalar may be a number. -/
def mayBeNumber (s : Scalar) : Bool :=
  s.style = .plain || (s.style = .literal && s.tag = some integerTag)

/-- **The number that a scalar is.** -/
def natural? (s : Scalar) : Option Nat :=
  if s.mayBeNumber then naturalOf? s.text.toList else none

end Scalar

namespace Node

/-- The scalar that a node is. -/
def scalar? : Node → Option Scalar
  | .scalar s => some s
  | _ => none

/-- The text of a scalar. -/
def text? (n : Node) : Option String := n.scalar?.map Scalar.text

/-- The number that a node is. -/
def natural? (n : Node) : Option Nat := n.scalar?.bind Scalar.natural?

/-- A number of 32 bits. -/
def uint32? (n : Node) : Option UInt32 := n.natural?.bind fun x => Word.uint32? x

/-- A number of 64 bits. -/
def uint64? (n : Node) : Option UInt64 := n.natural?.bind fun x => Word.uint64? x

end Node

end LiveSync.Yaml
