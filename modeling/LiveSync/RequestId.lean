import LiveSync.Json.Reader

/-!
# Request identifiers

A command carries an identifier by which its answer is recognised: 128
bits, written as 32 lower-case hexadecimal digits in five groups. Four
shapes are read, with digits of either case: the written one, that one in
braces or behind `urn:uuid:`, and the bare digits.
-/

namespace LiveSync

/-- **The identifier of a request.** -/
structure RequestId where
  bits : BitVec 128
deriving DecidableEq, Repr, Inhabited

namespace RequestId

/-- The value of hexadecimal digits. -/
def hexNumber? (cs : List Char) : Option Nat :=
  cs.foldlM (fun n c => (Json.Reader.hexDigit? c).map (n * 16 + ·)) 0

/-- The digits of a text whose dashes part groups of 8, 4, 4, 4 and 12. -/
def ungroup? (cs : List Char) : Option (List Char) :=
  if cs.length = 36 ∧ [8, 13, 18, 23].all (fun i => cs[i]? = some '-') then
    some (cs.take 8 ++ (cs.drop 9).take 4 ++ (cs.drop 14).take 4 ++ (cs.drop 19).take 4
      ++ cs.drop 24)
  else none

/-- The hexadecimal digits of a text of one of the four shapes. -/
def digits? (cs : List Char) : Option (List Char) :=
  if cs.length = 32 then some cs
  else if cs.length = 38 ∧ cs.head? = some '\x7b' ∧ cs.getLast? = some '\x7d' then
    ungroup? ((cs.drop 1).take 36)
  else if cs.take 9 = ['u', 'r', 'n', ':', 'u', 'u', 'i', 'd', ':'] then ungroup? (cs.drop 9)
  else ungroup? cs

/-- **Reads an identifier.** -/
def parse? (text : String) : Option RequestId := do
  let n ← hexNumber? (← digits? text.toList)
  return ⟨BitVec.ofNat 128 n⟩

/-- The lower-case hexadecimal digits of the lowest `count` groups of four
bits. -/
def hexText : Nat → Nat → List Char
  | 0, _ => []
  | count + 1, n => hexText count (n / 16) ++ [Nat.digitChar (n % 16)]

/-- **The written form.** -/
def text (id : RequestId) : String :=
  let ds := hexText 32 id.bits.toNat
  String.ofList <|
    ds.take 8 ++ '-' :: (ds.drop 8).take 4 ++ '-' :: (ds.drop 12).take 4
      ++ '-' :: (ds.drop 16).take 4 ++ '-' :: ds.drop 20

end RequestId

end LiveSync
