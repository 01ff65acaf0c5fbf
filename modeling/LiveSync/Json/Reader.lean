import LiveSync.Json.Numeral

/-!
# Reading JSON text

The reader is strict: no byte order mark, no trailing comma, nothing after
the value but blanks, no control character in a string, and no escape
that names half a surrogate pair. At most 127 arrays and objects may be
nested in one another.

The recursion is on that bound. `Reader.value` at bound `d + 1` reads the
items of an array with `Reader.value` at bound `d`, so a text nests as
deeply as the bound allows and no deeper.

A record has known fields, and what stands in a field it does not know is
passed over without being read (`Json.parseRecord?`): it has to be well
formed, but may be nested without limit, hold numbers that are too large,
and name half a surrogate pair.
-/

namespace LiveSync.Json

/-- Reads something off the start of a text and gives back the rest. -/
abbrev Scan (α : Type) := List Char → Option (α × List Char)

namespace Reader

/-- The four blanks of JSON. -/
def isSpace (c : Char) : Bool := c == ' ' || c == '\n' || c == '\t' || c == '\r'

/-- A text without the blanks it starts with. -/
def blanks (cs : List Char) : List Char := cs.dropWhile isSpace

/-! ### Strings -/

/-- The value of a hexadecimal digit of either case. -/
def hexDigit? (c : Char) : Option Nat :=
  if '0' ≤ c ∧ c ≤ '9' then some (c.toNat - '0'.toNat)
  else if 'a' ≤ c ∧ c ≤ 'f' then some (c.toNat - 'a'.toNat + 10)
  else if 'A' ≤ c ∧ c ≤ 'F' then some (c.toNat - 'A'.toNat + 10)
  else none

/-- The value of four hexadecimal digits. -/
def hex4? (a b c d : Char) : Option Nat := do
  return (((← hexDigit? a) * 16 + (← hexDigit? b)) * 16 + (← hexDigit? c)) * 16
    + (← hexDigit? d)

/-- The character that a one-letter escape stands for. -/
def shortEscape? : Char → Option Char
  | '"' => some '"'
  | '\\' => some '\\'
  | '/' => some '/'
  | 'b' => some '\x08'
  | 'f' => some '\x0c'
  | 'n' => some '\n'
  | 'r' => some '\r'
  | 't' => some '\t'
  | _ => none

/-- Whether a UTF-16 unit is the first half of a pair. -/
def isHighHalf (n : Nat) : Bool := 0xD800 ≤ n && n ≤ 0xDBFF

/-- Whether a UTF-16 unit is the second half of a pair. -/
def isLowHalf (n : Nat) : Bool := 0xDC00 ≤ n && n ≤ 0xDFFF

/-- The character of a pair of UTF-16 units. -/
def pairChar (high low : Nat) : Char :=
  Char.ofNat (0x10000 + (high - 0xD800) * 0x400 + (low - 0xDC00))

/-- Puts a character in front of a string that was read. -/
def consChar (c : Char) (r : Option (List Char × List Char)) :
    Option (List Char × List Char) :=
  r.map fun p => (c :: p.1, p.2)

/-- **The characters of a string** whose opening quote was read. -/
def chars : Scan (List Char)
  | [] => none
  | '"' :: rest => some ([], rest)
  | '\\' :: 'u' :: a :: b :: c :: d :: rest =>
    match hex4? a b c d with
    | none => none
    | some n =>
      if isLowHalf n then none
      else if isHighHalf n then
        match rest with
        | '\\' :: 'u' :: a' :: b' :: c' :: d' :: rest =>
          match hex4? a' b' c' d' with
          | none => none
          | some m => if isLowHalf m then consChar (pairChar n m) (chars rest) else none
        | _ => none
      else consChar (Char.ofNat n) (chars rest)
  | '\\' :: e :: rest =>
    match shortEscape? e with
    | none => none
    | some c => consChar c (chars rest)
  | c :: rest => if c.toNat < 0x20 then none else consChar c (chars rest)

/-- Passes over the characters of a string whose opening quote was read.
Escapes have to be well formed, but need not name a character. -/
def skipChars : Scan (List Char)
  | [] => none
  | '"' :: rest => some ([], rest)
  | '\\' :: 'u' :: a :: b :: c :: d :: rest =>
    if (hex4? a b c d).isSome then skipChars rest else none
  | '\\' :: e :: rest => if (shortEscape? e).isSome then skipChars rest else none
  | c :: rest => if c.toNat < 0x20 then none else skipChars rest

/-! ### Values -/

/-- How the leaves of a text are read. -/
structure Leaves where
  /-- A string whose opening quote was read. -/
  text : Scan (List Char)
  /-- The value of a numeral. -/
  number : Numeral → Option Json

/-- Leaves that are read. -/
def Leaves.read : Leaves := ⟨chars, Numeral.value?⟩

/-- Leaves that are passed over. -/
def Leaves.skipped : Leaves := ⟨skipChars, fun _ => some .null⟩

/-- The rest of a text that starts with the given characters. -/
def afterWord : List Char → List Char → Option (List Char)
  | [], rest => some rest
  | w :: ws, c :: rest => if c = w then afterWord ws rest else none
  | _ :: _, [] => none

/-- A value that is neither array nor object. -/
def scalar (leaves : Leaves) : Scan Json
  | '"' :: rest => (leaves.text rest).map fun p => (.str (String.ofList p.1), p.2)
  | 'n' :: rest => (afterWord ['u', 'l', 'l'] rest).map fun r => (.null, r)
  | 't' :: rest => (afterWord ['r', 'u', 'e'] rest).map fun r => (.bool true, r)
  | 'f' :: rest => (afterWord ['a', 'l', 's', 'e'] rest).map fun r => (.bool false, r)
  | cs =>
    match Numeral.scan cs with
    | none => none
    | some (x, rest) => (leaves.number x).map fun v => (v, rest)

/-- The items of an array up to its closing bracket, one at least. -/
def items (item : Scan Json) : Nat → Scan (List Json)
  | 0, _ => none
  | n + 1, cs =>
    match item (blanks cs) with
    | none => none
    | some (v, rest) =>
      match blanks rest with
      | ',' :: rest => (items item n rest).map fun p => (v :: p.1, p.2)
      | ']' :: rest => some ([v], rest)
      | _ => none

/-- A member's name and the colon after it. -/
def name (cs : List Char) : Option (String × List Char) :=
  match blanks cs with
  | '"' :: rest =>
    match chars rest with
    | none => none
    | some (k, rest) =>
      match blanks rest with
      | ':' :: rest => some (String.ofList k, rest)
      | _ => none
  | _ => none

/-- The members of an object up to its closing brace, one at least. How a
value is read may depend on its name. -/
def members (item : String → Scan Json) : Nat → Scan (List (String × Json))
  | 0, _ => none
  | n + 1, cs =>
    match name cs with
    | none => none
    | some (k, rest) =>
      match item k (blanks rest) with
      | none => none
      | some (v, rest) =>
        match blanks rest with
        | ',' :: rest => (members item n rest).map fun p => ((k, v) :: p.1, p.2)
        | '\x7d' :: rest => some ([(k, v)], rest)
        | _ => none

/-- The items of an array whose opening bracket was read. -/
def array (item : Scan Json) (cs : List Char) : Option (List Json × List Char) :=
  match blanks cs with
  | ']' :: rest => some ([], rest)
  | _ => items item cs.length cs

/-- The members of an object whose opening brace was read. -/
def object (item : String → Scan Json) (cs : List Char) :
    Option (List (String × Json) × List Char) :=
  match blanks cs with
  | '\x7d' :: rest => some ([], rest)
  | _ => members item cs.length cs

/-- **A value that starts the text**, with at most `depth` arrays and
objects nested. -/
def value (leaves : Leaves) : Nat → Scan Json
  | 0, cs =>
    match cs with
    | '[' :: _ | '\x7b' :: _ => none
    | cs => scalar leaves cs
  | depth + 1, cs =>
    match cs with
    | '[' :: rest =>
      (array (value leaves depth) rest).map fun p => (.arr p.1, p.2)
    | '\x7b' :: rest =>
      (object (fun _ => value leaves depth) rest).map fun p => (.obj p.1, p.2)
    | cs => scalar leaves cs

/-- What was read, if only blanks are left. -/
def complete (r : Option (Json × List Char)) : Option Json :=
  match r with
  | some (v, rest) => if blanks rest = [] then some v else none
  | none => none

end Reader

/-- How many arrays and objects may be nested in a text. -/
def maxDepth : Nat := 127

/-- **The value of a JSON text**, its members as they were written. -/
def parse? (text : String) : Option Json :=
  Reader.complete (Reader.value .read maxDepth (Reader.blanks text.toList))

/-- **The value of a record's text.** Members whose name is not `known`
are passed over and come out as `null`. -/
def parseRecord? (known : List String) (text : String) : Option Json :=
  match Reader.blanks text.toList with
  | '\x7b' :: rest =>
    let item (k : String) : Scan Json :=
      if k ∈ known then Reader.value .read (maxDepth - 1)
      else Reader.value .skipped rest.length
    Reader.complete ((Reader.object item rest).map fun p => (.obj p.1, p.2))
  | cs => Reader.complete (Reader.value .read maxDepth cs)

end LiveSync.Json
