import LiveSync.Yaml.Scalar

/-!
# Names, tags and directives

What may stand in front of a node – the **anchor** that names it and the
**tag** that says what it is – and, in front of a document, the
**directives** that say which YAML it is and what tag handles are short for.
-/

namespace LiveSync.Yaml

/-! ### Anchors -/

/-- **The name of an anchor or an alias** whose indicator was read. -/
def name? (page : Page) : Option (String × Page) := do
  let name := page.takeWhile isNameChar
  let rest := page.dropWhile isNameChar
  guard (name ≠ [])
  guard (rest.atGap || rest.startsWithAny ['?', ':', ',', ']', '}', '%', '@', '`'])
  return (String.ofList name, rest)

/-! ### Tags -/

/-- A character of a tag. Between angle brackets the indicators of flow
sequences are among them. -/
def isTagChar (verbatim : Bool) (c : Char) : Bool :=
  isNameChar c || c ∈ ";/?:@&=+$.!~*'()".toList || (verbatim && c ∈ [',', '[', ']'])

/-- The byte that a percent sign and two hexadecimal digits stand for. -/
def escapedByte? : Page → Option (UInt8 × Page)
  | p :: a :: b :: rest => do
    guard (p.char = '%')
    return (UInt8.ofNat ((← Percent.hexValue? a.char) * 16 + (← Percent.hexValue? b.char)), rest)
  | _ => none

/-- How many bytes a character has that begins with a certain byte. -/
def encodedSize? (b : UInt8) : Option Nat :=
  if b < 0x80 then some 1
  else if b &&& 0xE0 = 0xC0 then some 2
  else if b &&& 0xF0 = 0xE0 then some 3
  else if b &&& 0xF8 = 0xF0 then some 4
  else none

/-- So many bytes in percent encoding. -/
def escapedBytes? : Nat → Page → Option (List UInt8 × Page)
  | 0, page => some ([], page)
  | n + 1, page => do
    let (b, page) ← escapedByte? page
    let (bs, page) ← escapedBytes? n page
    return (b :: bs, page)

/-- A character in percent encoding. -/
def escapedChars? (page : Page) : Option (List Char × Page) := do
  let (b, rest) ← escapedByte? page
  let size ← encodedSize? b
  let (bs, rest) ← escapedBytes? (size - 1) rest
  guard (bs.all fun b => b &&& 0xC0 = 0x80)
  let text := (String.fromUTF8? ⟨(b :: bs).toArray⟩).getD ""
  return (text.toList, rest)

/-- The characters of a tag, of which there may be none. -/
def tagCharsFrom? (verbatim : Bool) : Nat → Page → Option (List Char × Page)
  | 0, _ => none
  | fuel + 1, page =>
    match page with
    | [] => some ([], [])
    | g :: rest =>
      if g.char = '%' then do
        let (c, page) ← escapedChars? page
        let (more, after) ← tagCharsFrom? verbatim fuel page
        return (c ++ more, after)
      else if isTagChar verbatim g.char then consRead g.char (tagCharsFrom? verbatim fuel rest)
      else some ([], page)

/-- The characters of a tag, of which there may be none. -/
def tagChars? (verbatim : Bool) (page : Page) : Option (List Char × Page) :=
  tagCharsFrom? verbatim (page.length + 1) page

/-- **A tag as it is written**: the handle of what is short for something, and
the rest. -/
structure RawTag where
  handle : String
  suffix : String
deriving DecidableEq, Repr, Inhabited

/-- The handle at the start of a page: an exclamation mark, or a name between
two of them. The second one may be missing, and then what was read is no
handle. -/
def handle? (page : Page) : Option (List Char × Page) := do
  guard (page.starts '!')
  let name := page.next.takeWhile isNameChar
  let rest := page.next.dropWhile isNameChar
  if rest.starts '!' then return ('!' :: name ++ ['!'], rest.next)
  else return ('!' :: name, rest)

/-- Whether a handle has an exclamation mark at either end. -/
def isNamedHandle (handle : List Char) : Bool :=
  2 ≤ handle.length && handle.getLast? = some '!'

/-- **A tag** at the start of a page. -/
def tag? (flow : Bool) (page : Page) : Option (RawTag × Page) := do
  let (tag, rest) ← written
  guard (rest.atGap || (flow && rest.starts ','))
  return (tag, rest)
where
  written : Option (RawTag × Page) :=
    if page.next.starts '<' then do
      let (uri, rest) ← tagChars? true (page.drop 2)
      guard (uri ≠ [] && rest.starts '>')
      return (⟨"", String.ofList uri⟩, rest.next)
    else do
      let (handle, rest) ← handle? page
      let (suffix, rest) ← tagChars? false rest
      if isNamedHandle handle then
        guard (suffix ≠ [])
        return (⟨String.ofList handle, String.ofList suffix⟩, rest)
      else
        let suffix := handle.tail ++ suffix
        -- a lone exclamation mark is a tag of its own
        if suffix = [] then return (⟨"", "!"⟩, rest)
        else return (⟨"!", String.ofList suffix⟩, rest)

/-! ### Directives -/

/-- **A directive.** -/
inductive Directive where
  | version (major minor : Nat)
  | shorthand (handle : String) (meaning : String)
deriving DecidableEq, Repr, Inhabited

/-- A number of a version, of at most nine digits. -/
def versionNumber? (page : Page) : Option (Nat × Page) := do
  let digits := page.takeWhile Char.isDigit
  guard (digits.length ≤ 9)
  return (← Decimal.toNat? digits, page.dropWhile Char.isDigit)

/-- The version that a document is written in. -/
def versionDirective? (page : Page) : Option (Directive × Page) := do
  let (major, page) ← versionNumber? (page.dropWhile isBlank)
  guard (page.starts '.')
  let (minor, page) ← versionNumber? page.next
  return (.version major minor, page)

/-- What a handle is short for. -/
def shorthandDirective? (page : Page) : Option (Directive × Page) := do
  let (handle, page) ← handle? (page.dropWhile isBlank)
  guard (handle = ['!'] || isNamedHandle handle)
  guard (page.char?.any isBlank)
  let (meaning, page) ← tagChars? true (page.dropWhile isBlank)
  guard (meaning ≠ [] && page.atGap)
  return (.shorthand (String.ofList handle) (String.ofList meaning), page)

/-- **A directive** whose percent sign was read, up to the end of its line. -/
def directive? (page : Page) : Option (Directive × Page) := do
  let name := page.takeWhile isNameChar
  let page := page.dropWhile isNameChar
  guard page.atGap
  let (d, page) ←
    if name = "YAML".toList then versionDirective? page
    else if name = "TAG".toList then shorthandDirective? page
    else none
  return (d, ← page.endLine?)

end LiveSync.Yaml
