import LiveSync.Yaml.Property

/-!
# Tokens

The **tokens** of a stream say where collections begin and end, whether
brackets show that or indentation does. A mapping is begun by the first of
its keys, but that something was a key is known only when its colon is
seen; until then it is kept in mind as a **candidate**, and when the colon
comes, the tokens that begin the mapping and the key are put in front of
it.

A candidate has to be followed by its colon on the same line, within 1024
characters. One that stands where a block mapping needs a key has to be
followed by it in any case.

The end of the list is the end of the stream.
-/

namespace LiveSync.Yaml

/-- **A token.** -/
inductive Token where
  | directive (d : Directive)
  | documentStart
  | documentEnd
  /-- Indentation begins a sequence. -/
  | blockSequence
  /-- Indentation begins a mapping. -/
  | blockMapping
  /-- Indentation ends a collection. -/
  | blockEnd
  /-- The bracket that begins a sequence. -/
  | openSequence
  | closeSequence
  /-- The brace that begins a mapping. -/
  | openMapping
  | closeMapping
  /-- The dash of an item. -/
  | blockEntry
  /-- The comma between items. -/
  | flowEntry
  | key
  | value
  | alias (name : String)
  | anchor (name : String)
  | tag (t : RawTag)
  | scalar (style : Style) (text : String)
deriving DecidableEq, Repr, Inhabited

/-- **What may turn out to be a key**: where it begins, and which token it
is. -/
structure Candidate where
  start : Glyph
  token : Nat
  /-- Whether it has to be one. -/
  required : Bool
deriving Repr

/-- **The state between two tokens.** -/
structure Lexer where
  page : Page
  tokens : List Token
  /-- The indentation of the innermost block collection, -1 outside of all. -/
  indent : Int
  /-- The indentations of the collections around it, innermost first. -/
  outer : List Int
  /-- The candidate of each open bracket, innermost first, and last that
  outside of all brackets. -/
  candidates : List (Option Candidate)
  /-- Whether a key may begin here. -/
  keyAllowed : Bool
deriving Repr

namespace Lexer

/-- The beginning of a stream. -/
def start (page : Page) : Lexer := ⟨page, [], -1, [], [none], true⟩

/-- Whether a bracket is open. -/
def inFlow (l : Lexer) : Bool := 1 < l.candidates.length

/-- Adds a token and goes on from a page. -/
def emit (l : Lexer) (t : Token) (page : Page) : Lexer :=
  { l with tokens := l.tokens ++ [t], page }

/-! ### Candidates -/

/-- The candidates without those that are too far behind a place; none of
these must be required. -/
def dropStale (here : Glyph) : List (Option Candidate) → Option (List (Option Candidate))
  | [] => some []
  | none :: cs => (dropStale here cs).map (none :: ·)
  | some c :: cs =>
    if c.start.line < here.line || c.start.index + 1024 < here.index then
      if c.required then none else (dropStale here cs).map (none :: ·)
    else (dropStale here cs).map (some c :: ·)

/-- Forgets the innermost candidate, which must not be required. -/
def forget? (l : Lexer) : Option Lexer :=
  match l.candidates with
  | some c :: cs => if c.required then none else some { l with candidates := none :: cs }
  | _ => some l

/-- Keeps the next token in mind as a candidate, if a key may begin here. -/
def remember? (l : Lexer) (here : Glyph) : Option Lexer :=
  if l.keyAllowed then do
    let l ← l.forget?
    let required : Bool := !l.inFlow && l.indent = here.column
    return { l with candidates := some ⟨here, l.tokens.length, required⟩ :: l.candidates.tail }
  else some l

/-! ### Indentation -/

/-- Begins a block collection at a column, unless one is there already. Its
token is put at a position among all. -/
def roll (l : Lexer) (column position : Nat) (t : Token) : Lexer :=
  if !l.inFlow && l.indent < column then
    { l with
      indent := column, outer := l.indent :: l.outer, tokens := l.tokens.insertIdx position t }
  else l

/-- The block collections that end before a column: how many, and what is
around them. -/
def unrollFrom (column : Int) : Int → List Int → Nat × Int × List Int
  | indent, [] => (0, indent, [])
  | indent, around :: outer =>
    if column < indent then
      let (n, rest) := unrollFrom column around outer
      (n + 1, rest)
    else (0, indent, around :: outer)

/-- Ends the block collections that are indented more than a column. -/
def unroll (l : Lexer) (column : Int) : Lexer :=
  if l.inFlow then l
  else
    let (n, indent, outer) := unrollFrom column l.indent l.outer
    { l with indent, outer, tokens := l.tokens ++ List.replicate n .blockEnd }

/-! ### The next token -/

/-- Passes over blanks, comments and line ends. A tab is a blank only where
no key may begin; outside of brackets, one may begin on every new line. -/
def skipFrom (inFlow : Bool) : Bool → Bool → Page → Page × Bool
  | keyAllowed, _, [] => ([], keyAllowed)
  | keyAllowed, inComment, g :: rest =>
    if isBreak g.char then skipFrom inFlow (keyAllowed || !inFlow) false rest
    else if inComment then skipFrom inFlow keyAllowed true rest
    else if g.char = ' ' || (g.char = '\t' && (inFlow || !keyAllowed)) then
      skipFrom inFlow keyAllowed false rest
    else if g.char = '#' then skipFrom inFlow keyAllowed true rest
    else (g :: rest, keyAllowed)

/-- Passes over what stands between two tokens. -/
def skip (l : Lexer) : Lexer :=
  let (page, keyAllowed) := skipFrom l.inFlow l.keyAllowed false l.page
  { l with page, keyAllowed }

/-- Ends all blocks: a document begins or ends. -/
def leaveBlocks? (l : Lexer) : Option Lexer := do
  let l ← (l.unroll (-1)).forget?
  return { l with keyAllowed := false }

/-- A collection in brackets begins. -/
def openFlow? (l : Lexer) (here : Glyph) (t : Token) (rest : Page) : Option Lexer := do
  let l ← l.remember? here
  return { l with candidates := none :: l.candidates, keyAllowed := true }.emit t rest

/-- A collection in brackets ends. -/
def closeFlow? (l : Lexer) (t : Token) (rest : Page) : Option Lexer := do
  let l ← l.forget?
  let candidates := if l.inFlow then l.candidates.tail else l.candidates
  return { l with candidates, keyAllowed := false }.emit t rest

/-- A comma between items. -/
def flowEntry? (l : Lexer) (rest : Page) : Option Lexer := do
  let l ← l.forget?
  return { l with keyAllowed := true }.emit .flowEntry rest

/-- The dash of an item. -/
def blockEntry? (l : Lexer) (here : Glyph) (rest : Page) : Option Lexer := do
  guard (l.inFlow || l.keyAllowed)
  let l ← (l.roll here.column l.tokens.length .blockSequence).forget?
  return { l with keyAllowed := true }.emit .blockEntry rest

/-- The question mark of a key that is not simple. -/
def key? (l : Lexer) (here : Glyph) (rest : Page) : Option Lexer := do
  guard (l.inFlow || l.keyAllowed)
  let l ← (l.roll here.column l.tokens.length .blockMapping).forget?
  return { l with keyAllowed := !l.inFlow }.emit .key rest

/-- **The colon of a value.** If there is a candidate, it was a key. -/
def value? (l : Lexer) (here : Glyph) (rest : Page) : Option Lexer :=
  match l.candidates with
  | some c :: cs =>
    let l := { l with tokens := l.tokens.insertIdx c.token .key, candidates := none :: cs }
    let l := l.roll c.start.column c.token .blockMapping
    some ({ l with keyAllowed := false }.emit .value rest)
  | _ => do
    guard (l.inFlow || l.keyAllowed)
    let l := l.roll here.column l.tokens.length .blockMapping
    return { l with keyAllowed := !l.inFlow }.emit .value rest

/-- A token that may be a key or begin one. -/
def simple? (l : Lexer) (here : Glyph) (read : Option (Token × Page)) : Option Lexer := do
  let l ← l.remember? here
  let (t, page) ← read
  return { l with keyAllowed := false }.emit t page

/-- A scalar that may be a key. -/
def quotedScalar? (l : Lexer) (here : Glyph) (style : Style) (rest : Page) : Option Lexer :=
  l.simple? here <| (quoted? (style = .singleQuoted) rest).map fun p =>
    (.scalar style (String.ofList p.1), p.2)

/-- A plain scalar. When a line end is passed over in search of its end, a key
may begin after it. -/
def plainScalar? (l : Lexer) (here : Glyph) : Option Lexer := do
  let l ← l.remember? here
  let (text, page, broken) ← plain? l.inFlow (l.indent + 1).toNat l.page
  return { l with keyAllowed := broken }.emit (.scalar .plain (String.ofList text)) page

/-- A block scalar. -/
def blockScalar? (l : Lexer) (folded : Bool) (rest : Page) : Option Lexer := do
  let l ← l.forget?
  let (text, page) ← block? folded l.indent rest
  return { l with keyAllowed := true }.emit
    (.scalar (if folded then .folded else .literal) (String.ofList text)) page

/-- Whether a plain scalar begins with a character that another follows. -/
def startsPlain (inFlow : Bool) (c : Char) (rest : Page) : Bool :=
  c ∉ "-?:,[]\x7b\x7d#&*!|>'\"%@`".toList
    || (c = '-' && !rest.char?.any isBlank)
    || (!inFlow && (c = '?' || c = ':') && !rest.atGap)

/-- **Reads the token** at the start of the page, where no blank is. -/
def token? (l : Lexer) (here : Glyph) (rest : Page) : Option Lexer :=
  let page := l.page
  let c := here.char
  if here.column = 0 && c = '%' then do
    let l ← l.leaveBlocks?
    let (d, page) ← directive? rest
    return l.emit (.directive d) page
  else if page.startsMark '-' then do return (← l.leaveBlocks?).emit .documentStart (page.drop 3)
  else if page.startsMark '.' then do return (← l.leaveBlocks?).emit .documentEnd (page.drop 3)
  else if c = '[' then l.openFlow? here .openSequence rest
  else if c = '{' then l.openFlow? here .openMapping rest
  else if c = ']' then l.closeFlow? .closeSequence rest
  else if c = '}' then l.closeFlow? .closeMapping rest
  else if c = ',' then l.flowEntry? rest
  else if c = '-' && rest.atGap then l.blockEntry? here rest
  else if c = '?' && (l.inFlow || rest.atGap) then l.key? here rest
  else if c = ':' && (l.inFlow || rest.atGap) then l.value? here rest
  else if c = '*' then l.simple? here ((name? rest).map fun p => (.alias p.1, p.2))
  else if c = '&' then l.simple? here ((name? rest).map fun p => (.anchor p.1, p.2))
  else if c = '!' then l.simple? here ((tag? l.inFlow page).map fun p => (.tag p.1, p.2))
  else if c = '|' && !l.inFlow then l.blockScalar? false rest
  else if c = '>' && !l.inFlow then l.blockScalar? true rest
  else if c = '\'' then l.quotedScalar? here .singleQuoted rest
  else if c = '"' then l.quotedScalar? here .doubleQuoted rest
  else if startsPlain l.inFlow c rest then l.plainScalar? here
  else none

/-- Reads tokens to the end of the stream. -/
def run? : Nat → Lexer → Option (List Token)
  | 0, _ => none
  | fuel + 1, l =>
    let l := l.skip
    match l.page with
    | [] => do
      let l ← l.leaveBlocks?
      return l.tokens
    | here :: rest => do
      let candidates ← dropStale here l.candidates
      let l := { l with candidates }.unroll here.column
      run? fuel (← l.token? here rest)

end Lexer

/-- **The tokens of a text**, or nothing if it is no stream. -/
def Token.ofText? (text : String) : Option (List Token) := do
  let page ← Page.ofText? text
  Lexer.run? (page.length + 1) (.start page)

end LiveSync.Yaml
