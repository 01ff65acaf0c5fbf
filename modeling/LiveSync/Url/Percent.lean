/-!
# Percent encoding

A character that may not stand where it is wanted is written as the bytes
of its UTF-8 form, each as a percent sign and two hexadecimal digits.
Which characters those are depends on the place; a character outside ASCII
is always one of them. A percent sign itself is left alone, so encoding
does not change what was encoded already.

`decodeBytes_encodeByte` says that an encoded byte is read back.
-/

namespace LiveSync.Percent

/-- The upper case hexadecimal digit of a number below sixteen. -/
def hexDigit (n : Nat) : Char := Char.ofNat (if n < 10 then 0x30 + n else 0x37 + n)

/-- The value of a hexadecimal digit of either case. -/
def hexValue? (c : Char) : Option Nat :=
  if '0' ≤ c ∧ c ≤ '9' then some (c.toNat - 0x30)
  else if 'a' ≤ c ∧ c ≤ 'f' then some (c.toNat - 0x57)
  else if 'A' ≤ c ∧ c ≤ 'F' then some (c.toNat - 0x37)
  else none

/-- The hexadecimal digit that a byte is, as a character of ASCII. -/
def byteValue? (b : UInt8) : Option Nat := hexValue? (Char.ofNat b.toNat)

/-- A byte in its encoded form. -/
def encodeByte (b : UInt8) : List Char :=
  ['%', hexDigit (b.toNat / 16), hexDigit (b.toNat % 16)]

/-- A character in its encoded form. -/
def encodeChar (c : Char) : List Char := (String.utf8EncodeChar c).flatMap encodeByte

/-- **Encodes the characters that are refused** and those outside ASCII. -/
def encode (refused : Char → Bool) (cs : List Char) : List Char :=
  cs.flatMap fun c => if c.toNat < 0x80 && !refused c then [c] else encodeChar c

/-- **Decodes bytes.** A percent sign that two hexadecimal digits do not
follow stands for itself. -/
def decodeBytes : List UInt8 → List UInt8
  | 0x25 :: h :: l :: rest =>
    match byteValue? h, byteValue? l with
    | some high, some low => UInt8.ofNat (high * 16 + low) :: decodeBytes rest
    | _, _ => 0x25 :: decodeBytes (h :: l :: rest)
  | b :: rest => b :: decodeBytes rest
  | [] => []

/-- **Decodes a text**, or finds that its bytes are none of a text. -/
def decode? (cs : List Char) : Option (List Char) :=
  let bytes := decodeBytes (cs.flatMap String.utf8EncodeChar)
  (String.fromUTF8? ⟨bytes.toArray⟩).map String.toList

/-- A control character of ASCII. -/
def isControl (c : Char) : Bool := c.toNat < 0x20 || c.toNat = 0x7F

theorem hexValue?_hexDigit {n : Nat} (h : n < 16) : hexValue? (hexDigit n) = some n := by
  have all : ∀ m ∈ List.range 16, hexValue? (hexDigit m) = some m := by decide
  exact all n (List.mem_range.2 h)

theorem byteValue?_hexDigit {n : Nat} (h : n < 16) :
    byteValue? (UInt8.ofNat (hexDigit n).toNat) = some n := by
  have all : ∀ m ∈ List.range 16, byteValue? (UInt8.ofNat (hexDigit m).toNat) = some m := by
    decide
  exact all n (List.mem_range.2 h)

/-- **An encoded byte is read back.** -/
theorem decodeBytes_encodeByte (b : UInt8) (rest : List UInt8) :
    decodeBytes ((encodeByte b).map (fun c => UInt8.ofNat c.toNat) ++ rest)
      = b :: decodeBytes rest := by
  have hb : b.toNat < 256 := b.toNat_lt
  have high := byteValue?_hexDigit (n := b.toNat / 16) (by omega)
  have low := byteValue?_hexDigit (n := b.toNat % 16) (by omega)
  have sum : b.toNat / 16 * 16 + b.toNat % 16 = b.toNat := by omega
  simp [encodeByte, decodeBytes, high, low, sum]

theorem encode_nil (refused : Char → Bool) : encode refused [] = [] := rfl

theorem encode_append (refused : Char → Bool) (xs ys : List Char) :
    encode refused (xs ++ ys) = encode refused xs ++ encode refused ys := by
  simp [encode]

end LiveSync.Percent
