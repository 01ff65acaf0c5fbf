import LiveSync.Text.Decimal
import LiveSync.Url.Percent
import LiveSync.Yaml.Text

/-!
# Scalars

A **scalar** is written plainly, in quotes of either kind, or as an indented
block. Whatever the style, a line end within it is a blank as a rule, and
the empty lines after it are the line ends that remain (`foldGap`); only a
literal block keeps its lines.
-/

namespace LiveSync.Yaml

/-- **How a scalar is written.** -/
inductive Style where
  | plain
  | singleQuoted
  | doubleQuoted
  | literal
  | folded
deriving DecidableEq, Repr, Inhabited

/-- What blanks and line ends between two words stand for. Blanks around a
line end are nothing. -/
def foldGap (gap : List Char) : List Char :=
  match gap.filter isBreak with
  | [] => gap
  | ['\n'] => [' ']
  | '\n' :: more => more
  | breaks => breaks

/-! ### Plain scalars -/

/-- The characters that delimit collections in brackets. -/
def flowIndicators : List Char := [',', '[', ']', '{', '}']

/-- The characters of a plain scalar up to a blank or an indicator that ends
it. In brackets a colon must not stand right before an indicator. -/
def plainRun? (flow : Bool) : Page → Option (List Char × Page)
  | [] => some ([], [])
  | g :: rest =>
    if isGap g.char then some ([], g :: rest)
    else if flow && g.char = ':' && Page.startsWithAny rest ('?' :: flowIndicators) then none
    else if (g.char = ':' && Page.atGap rest) || (flow && g.char ∈ flowIndicators) then
      some ([], g :: rest)
    else (plainRun? flow rest).map fun p => (g.char :: p.1, p.2)

/-- A tab in the indentation of a line that is not the first. -/
def tabsIndent (indent : Nat) (gap : Page) : Bool :=
  (gap.dropWhile (!isBreak ·)).any fun g => g.char = '\t' && g.column < indent

/-- **A plain scalar**, what comes after it and after the gap behind it, and
whether that gap has a line end. Lines after the first are indented, but in
brackets need not be. -/
def plainFrom? (flow : Bool) (indent : Nat) : Nat → Page → Option (List Char × Page × Bool)
  | 0, _ => none
  | fuel + 1, page => do
    let (word, page) ← plainRun? flow page
    let gap : Page := List.takeWhile (fun g => isGap g.char) page
    let rest := page.dropWhile isGap
    let broken := gap.any fun g => isBreak g.char
    if gap = [] then return (word, page, false)
    else if tabsIndent indent gap then none
    else
      match rest with
      | [] => return (word, rest, broken)
      | g :: _ =>
        if (!flow && g.column < indent) || Page.atDocumentMark rest || g.char = '#' then
          return (word, rest, broken)
        else
          let (more, after, brokenAfter) ← plainFrom? flow indent fuel rest
          if more = [] then return (word, after, broken)
          else return (word ++ foldGap gap.chars ++ more, after, brokenAfter)

/-- A plain scalar at the start of a page. -/
def plain? (flow : Bool) (indent : Nat) (page : Page) : Option (List Char × Page × Bool) :=
  plainFrom? flow indent (page.length + 1) page

/-! ### Quoted scalars -/

/-- The character of an escape of one letter. -/
def shortEscape? : Char → Option Char
  | '0' => some '\x00'
  | 'a' => some '\x07'
  | 'b' => some '\x08'
  | 't' | '\t' => some '\t'
  | 'n' => some '\n'
  | 'v' => some '\x0b'
  | 'f' => some '\x0c'
  | 'r' => some '\r'
  | 'e' => some '\x1b'
  | ' ' => some ' '
  | '"' => some '"'
  | '/' => some '/'
  | '\\' => some '\\'
  | 'N' => some '\u0085'
  | '_' => some '\u00a0'
  | 'L' => some '\u2028'
  | 'P' => some '\u2029'
  | _ => none

/-- How many digits follow the letter of an escape by code point. -/
def escapeDigits? : Char → Option Nat
  | 'x' => some 2
  | 'u' => some 4
  | 'U' => some 8
  | _ => none

/-- The character whose code point the digits are, of which there have to be
so many. -/
def codePoint? (digits : List Char) (count : Nat) : Option Char := do
  guard (digits.length = count)
  let n ← digits.foldlM (fun n c => (Percent.hexValue? c).map (n * 16 + ·)) 0
  if n.isValidChar then some (Char.ofNat n) else none

/-- What stops the characters of a quoted scalar. -/
inductive QuoteStop where
  /-- A blank, a line end, the closing quote or the end. -/
  | plain
  /-- A line end behind a backslash. -/
  | escapedBreak
deriving DecidableEq, Repr

/-- Puts a character in front of those that were read. -/
def consRead {α : Type} (c : Char) (r : Option (List Char × α)) : Option (List Char × α) :=
  r.map fun p => (c :: p.1, p.2)

/-- The characters of a scalar in single quotes, up to a gap or its end. A
quote in it is written twice. -/
def singleRun : Page → List Char × Page
  | [] => ([], [])
  | g :: rest =>
    if isGap g.char then ([], g :: rest)
    else if g.char = '\'' then
      match rest with
      | h :: rest' =>
        if h.char = '\'' then
          let (more, after) := singleRun rest'
          ('\'' :: more, after)
        else ([], g :: rest)
      | [] => ([], [g])
    else
      let (more, after) := singleRun rest
      (g.char :: more, after)

/-- The characters of a scalar in double quotes, up to a gap or its end. -/
def doubleRun? : Page → Option (List Char × Page × QuoteStop)
  | [] => some ([], [], .plain)
  | g :: rest =>
    if isGap g.char || g.char = '"' then some ([], g :: rest, .plain)
    else if g.char = '\\' then
      match rest with
      | [] => none
      | h :: rest' =>
        if isBreak h.char then some ([], rest', .escapedBreak)
        else
          match shortEscape? h.char, escapeDigits? h.char with
          | some c, _ => consRead c (doubleRun? rest')
          | none, some count =>
            match codePoint? ((rest'.take count).map Glyph.char) count with
            | some c => consRead c (doubleRun? (rest'.drop count))
            | none => none
          | none, none => none
    else consRead g.char (doubleRun? rest)
termination_by p => p.length
decreasing_by all_goals simp_all <;> omega

/-- **A quoted scalar** whose opening quote was read. No document may begin
or end within it. -/
def quotedFrom? (single : Bool) : Nat → Page → Option (List Char × Page)
  | 0, _ => none
  | fuel + 1, page => do
    guard !page.atDocumentMark
    let (word, page, stop) ←
      if single then
        let (word, page) := singleRun page
        some (word, page, QuoteStop.plain)
      else doubleRun? page
    match page with
    | [] => none
    | g :: rest =>
      if g.char = (if single then '\'' else '"') then return (word, rest)
      else
        let gap := page.takeWhile isGap
        let between := if stop = .escapedBreak then gap.filter isBreak else foldGap gap
        let (more, after) ← quotedFrom? single fuel (page.dropWhile isGap)
        return (word ++ between ++ more, after)

/-- A quoted scalar whose opening quote was read. -/
def quoted? (single : Bool) (page : Page) : Option (List Char × Page) :=
  quotedFrom? single (page.length + 1) page

/-! ### Block scalars -/

/-- What becomes of the line ends at the end of a block. -/
inductive Chomping where
  /-- No line end is kept. -/
  | strip
  /-- The end of the last line is kept. -/
  | clip
  /-- The ends of the last line and of empty lines are kept. -/
  | keep
deriving DecidableEq, Repr

/-- The chomping that a sign asks for. -/
def Chomping.ofSign? : Char → Option Chomping
  | '+' => some .keep
  | '-' => some .strip
  | _ => none

/-- **The header of a block** behind its indicator: the chomping, and the
indentation relative to what is around if it is given, in either order. -/
def blockHeader? (page : Page) : Option (Chomping × Nat × Page) := do
  let (first, page) := sign page
  let (increment, page) ←
    match page.char? with
    | some d =>
      if d = '0' then none
      else if d.isDigit then some (d.toNat - '0'.toNat, page.drop 1)
      else some (0, page)
    | none => some (0, page)
  let (second, page) :=
    if first.isNone && increment ≠ 0 then sign page else (none, page)
  return ((first <|> second).getD .clip, increment, ← page.endLine?)
where
  sign (page : Page) : Option Chomping × Page :=
    match page.char?.bind Chomping.ofSign? with
    | some c => (some c, page.drop 1)
    | none => (none, page)

/-- The empty lines at the start of a page, as their line ends, and the
indentation of the line after them, passed over as far as it goes up to
`indent`. A tab must not be part of it. -/
def emptyLines? (indent : Nat) : Page → Option (List Char × Page)
  | [] => some ([], [])
  | g :: rest =>
    if g.char = ' ' && g.column < indent then emptyLines? indent rest
    else if g.char = '\t' && g.column < indent then none
    else if isBreak g.char then consRead g.char (emptyLines? indent rest)
    else some ([], g :: rest)

/-- The largest indentation among the empty lines at the start of a page and
the line after them. -/
def deepest : Page → Nat
  | [] => 0
  | g :: rest =>
    if g.char = ' ' then max (g.column + 1) (deepest rest)
    else if isBreak g.char then max g.column (deepest rest)
    else g.column

/-- A line of a block: what is on it, its line end, and the empty lines
after it. -/
structure BlockLine where
  text : List Char
  ending : List Char
  empty : List Char

/-- The lines of a block. It ends before a line that is indented less. -/
def blockLinesFrom? (indent : Nat) : Nat → Page → Option (List BlockLine × Page)
  | 0, _ => none
  | _ + 1, [] => some ([], [])
  | fuel + 1, g :: page =>
    if g.column ≠ indent then some ([], g :: page)
    else do
      let page := g :: page
      let text := Page.takeWhile page (!isBreak ·)
      let rest := Page.dropWhile page (!isBreak ·)
      let (empty, after) ← emptyLines? indent (rest.drop 1)
      let (more, after) ← blockLinesFrom? indent fuel after
      return (⟨text, (rest.take 1).map Glyph.char, empty⟩ :: more, after)

/-- The text of the lines of a block, and the line ends that are left at its
end: that of the last line, and those of the empty lines after it. A line
end is folded unless a line next to it begins with a blank. -/
def joinLines (folded : Bool) (ending empty : List Char) (indented : Bool) :
    List BlockLine → List Char × List Char × List Char
  | [] => ([], ending, empty)
  | l :: ls =>
    let indentedNext := l.text.head?.any isBlank
    let between :=
      if folded && ending = ['\n'] && !indented && !indentedNext then
        if empty = [] then [' '] else []
      else ending
    let (more, ends) := joinLines folded l.ending l.empty indentedNext ls
    (between ++ empty ++ l.text ++ more, ends)

/-- **A block scalar** whose indicator was read, in a collection that is
indented by `around`, which is negative outside of all. -/
def block? (folded : Bool) (around : Int) (page : Page) : Option (List Char × Page) := do
  let (chomping, increment, page) ← blockHeader? page
  let indent :=
    if increment ≠ 0 then (max around 0).toNat + increment
    else max (deepest page) (max (around + 1) 1).toNat
  -- without a given indentation a tab in front of the first line is refused
  guard (increment ≠ 0 || (page.dropWhile (fun c => c = ' ' || isBreak c)).char? ≠ some '\t')
  let (empty, page) ← emptyLines? indent page
  let (lines, after) ← blockLinesFrom? indent (page.length + 1) page
  let (text, ending, empty) := joinLines folded [] empty false lines
  let tail :=
    match chomping with
    | .strip => []
    | .clip => ending
    | .keep => ending ++ empty
  return (text ++ tail, after)

end LiveSync.Yaml
