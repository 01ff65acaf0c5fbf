/-!
# The text of a YAML stream

A stream is a text of printable characters. Line ends of all kinds are one
character here, and every character knows its **place**: indentation decides
about structure, and a key has to end on the line on which it begins.
-/

namespace LiveSync.Yaml

/-- A character that may stand in a stream. -/
def isPrintable (c : Char) : Bool :=
  let n := c.toNat
  n = 0x9 || n = 0xA || n = 0xD || (0x20 ≤ n && n ≤ 0x7E) || n = 0x85
    || (0xA0 ≤ n && n ≤ 0xD7FF) || (0xE000 ≤ n && n ≤ 0xFFFD) || 0x10000 ≤ n

/-- A blank within a line. -/
def isBlank (c : Char) : Bool := c = ' ' || c = '\t'

/-- The end of a line. -/
def isBreak (c : Char) : Bool := c = '\n' || c = '\u2028' || c = '\u2029'

/-- A blank or the end of a line. -/
def isGap (c : Char) : Bool := isBlank c || isBreak c

/-- A character of a name: of an anchor, of a tag handle, of a directive. -/
def isNameChar (c : Char) : Bool := c.isAlphanum || c = '_' || c = '-'

/-- Brings line ends to one form. Those of Unicode that separate lines or
paragraphs keep theirs. -/
def unifyBreaks : List Char → List Char
  | '\r' :: '\n' :: cs => '\n' :: unifyBreaks cs
  | '\r' :: cs => '\n' :: unifyBreaks cs
  | '\u0085' :: cs => '\n' :: unifyBreaks cs
  | c :: cs => c :: unifyBreaks cs
  | [] => []

/-- **A character in its place.** -/
structure Glyph where
  char : Char
  line : Nat
  column : Nat
  index : Nat
deriving DecidableEq, Repr, Inhabited

/-- What is left of a stream. -/
abbrev Page := List Glyph

namespace Page

/-- Puts characters in their places, the first of them in the given one. -/
def place (line column index : Nat) : List Char → Page
  | [] => []
  | c :: cs =>
    ⟨c, line, column, index⟩ ::
      if isBreak c then place (line + 1) 0 (index + 1) cs
      else place line (column + 1) (index + 1) cs

/-- **The page of a text**, unless it has a character that may not stand in
a stream. A byte order mark in front is passed over. -/
def ofText? (text : String) : Option Page :=
  let cs := text.toList
  let cs := if cs.head? = some '\uFEFF' then cs.tail else cs
  if cs.all isPrintable then some (place 0 0 0 (unifyBreaks cs)) else none

/-- The page after the next character. -/
def next (p : Page) : Page := List.tail p

/-- The text that is left. -/
def chars (p : Page) : List Char := p.map Glyph.char

/-- The next character. -/
def char? (p : Page) : Option Char := p.head?.map Glyph.char

/-- Whether a certain character comes next. -/
def starts (p : Page) (c : Char) : Bool := p.char? = some c

/-- Whether one of some characters comes next. -/
def startsWithAny (p : Page) (cs : List Char) : Bool := p.char?.any (· ∈ cs)

/-- Whether a word ends here: before a blank, a line end or the end. -/
def atGap (p : Page) : Bool := p.char?.all isGap

/-- Whether a line ends here. -/
def atLineEnd (p : Page) : Bool := p.char?.all isBreak

/-- The page after the characters of a class. -/
def dropWhile (p : Page) (ok : Char → Bool) : Page := List.dropWhile (fun g => ok g.char) p

/-- The characters of a class that come next. -/
def takeWhile (p : Page) (ok : Char → Bool) : List Char :=
  (List.takeWhile (fun g => ok g.char) p).map Glyph.char

/-- Whether a line begins here with three times the same character, as a
word of its own. -/
def startsMark (p : Page) (c : Char) : Bool :=
  match p with
  | a :: b :: d :: rest =>
    a.column = 0 && a.char = c && b.char = c && d.char = c && atGap rest
  | _ => false

/-- Whether a document begins or ends here by its mark. -/
def atDocumentMark (p : Page) : Bool := p.startsMark '-' || p.startsMark '.'

/-- The rest of a line that may hold blanks and a comment, passed over; there
must be nothing else. -/
def endLine? (p : Page) : Option Page :=
  let p := p.dropWhile isBlank
  let p := if p.starts '#' then p.dropWhile (!isBreak ·) else p
  match p with
  | [] => some []
  | g :: rest => if isBreak g.char then some rest else none

end Page

end LiveSync.Yaml
