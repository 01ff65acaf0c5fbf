import LiveSync.Url.Host

/-!
# Addresses on the web

An absolute address is a scheme, for most schemes a host, and a path and a
query in the form in which they are asked for: what may not stand in them
is percent-encoded, and segments of dots are carried out.

Reading is as generous as browsers are. Blanks and controls at both ends
and line ends anywhere do not count. After one of the schemes of the web any
number of slashes may introduce the host, and a backslash is as good as a
slash. What the standard refuses is refused: no scheme, a host that is
missing or malformed, a port that is no number or too large.
-/

namespace LiveSync

/-- **An absolute address.** Its fragment and the user it names are read but
not kept; no request shows them. -/
structure Url where
  scheme : String
  host : Option Url.Host
  port : Option Nat
  /-- The path, percent-encoded. -/
  path : List Char
  /-- The query without its question mark, percent-encoded. -/
  query : Option (List Char)
deriving DecidableEq, Repr

namespace Url

/-! ### The scheme -/

/-- The families of schemes that are read in ways of their own. -/
inductive Family where
  /-- Resources are on a host that is looked up by name. -/
  | web
  /-- Resources are files, as a rule on this machine. -/
  | file
  /-- Any other scheme. -/
  | plain
deriving DecidableEq, Repr

/-- The family of a scheme in small letters. -/
def Family.ofScheme (scheme : String) : Family :=
  if scheme ∈ ["http", "https", "ws", "wss", "ftp"] then .web
  else if scheme = "file" then .file
  else .plain

/-- A character that a scheme goes on with. -/
def isSchemeChar (c : Char) : Bool :=
  c.isAlphanum || c = '+' || c = '-' || c = '.'

/-- The scheme in small letters, and what follows its colon. -/
def splitScheme? (cs : List Char) : Option (String × List Char) :=
  let scheme := cs.takeWhile isSchemeChar
  match cs.dropWhile isSchemeChar with
  | ':' :: rest =>
    if scheme.head?.any Char.isAlpha then
      some (String.ofList (scheme.map Char.toLower), rest)
    else none
  | _ => none

/-! ### The host -/

/-- The separators of a path. A backslash is one except after a plain scheme. -/
def isSlash (family : Family) (c : Char) : Bool :=
  c = '/' || (c = '\\' && family ≠ .plain)

/-- The characters that end the host. -/
def endsHost (family : Family) (c : Char) : Bool :=
  isSlash family c || c = '?' || c = '#'

/-- What is in front of the last at sign, and what is after it. -/
def splitUser (family : Family) (cs : List Char) : Option (List Char) × List Char :=
  let before := cs.takeWhile (!endsHost family ·)
  if '@' ∈ before then
    let host := (before.reverse.takeWhile (· ≠ '@')).length
    let user := before.length - host - 1
    (some (cs.take user), cs.drop (user + 1))
  else (none, cs)

/-- Splits off the text of the host. A colon in square brackets is part of
it. -/
def spanHost (family : Family) (inside : Bool) : List Char → List Char × List Char
  | [] => ([], [])
  | c :: cs =>
    if endsHost family c || (c = ':' && !inside) then ([], c :: cs)
    else
      let inside := if c = '[' then true else if c = ']' then false else inside
      let (host, rest) := spanHost family inside cs
      (c :: host, rest)

/-- The port at the start of a text, and what follows it. A colon without a
number is no port. -/
def readPort : List Char → Except Flaw (Option Nat × List Char)
  | ':' :: cs =>
    let digits := cs.takeWhile Char.isDigit
    let rest := cs.dropWhile Char.isDigit
    let n := Decimal.toNat? digits
    if n.all (· ≤ 65535) && rest.head?.all (· ∈ ['/', '\\', '?', '#']) then .ok (n, rest)
    else .error .invalidPort
  | cs => .ok (none, cs)

/-- Whether a user or a password is named. -/
def namesUser (user : Option (List Char)) : Bool :=
  user.any fun u => u ≠ [] && u ≠ [':']

/-- Refuses what has a flaw. -/
def refuseIf (flawed : Bool) (flaw : Flaw) : Except Flaw Unit :=
  if flawed then .error flaw else .ok ()

/-- **The host and the port** that follow the slashes, and the rest. -/
def readAuthority (family : Family) (cs : List Char) :
    Except Flaw (Host × Option Nat × List Char) := do
  let (user, cs) := splitUser family cs
  refuseIf (user = some [] && cs.head?.any (endsHost family)) .emptyHost
  let (text, rest) := spanHost family false cs
  refuseIf (text = [] && family ≠ .plain) .emptyHost
  let host ← if family = .plain then Host.plain text else Host.named text
  refuseIf (host.isEmpty && rest.head? = some ':') .emptyHost
  let (port, rest) ← readPort rest
  refuseIf (host.isEmpty && namesUser user) .emptyHost
  return (host, port, rest)

/-- The host of a file: none if the text is empty, names this machine, or is
the letter of a drive, which begins the path. -/
def readFileHost (cs : List Char) : Except Flaw (Option Host × List Char) :=
  let text := cs.takeWhile (!endsHost .file ·)
  let rest := cs.dropWhile (!endsHost .file ·)
  match text with
  | [] => .ok (none, rest)
  | [drive, mark] =>
    if drive.isAlpha && (mark = ':' || mark = '|') then .ok (none, cs) else named text rest
  | text => named text rest
where
  named (text rest : List Char) : Except Flaw (Option Host × List Char) := do
    let host ← Host.named text
    return (if host = .domain "localhost".toList then none else some host, rest)

/-! ### Path and query -/

/-- The characters that are encoded in a path. -/
def refusedInPath (c : Char) : Bool :=
  Percent.isControl c || c ∈ " \"<>`#?\x7b\x7d".toList

/-- The characters that are encoded in a query. -/
def refusedInQuery (family : Family) (c : Char) : Bool :=
  Percent.isControl c || c ∈ " \"#<>".toList || (c = '\'' && family ≠ .plain)

/-- A text in which dots are not encoded. -/
def plainDots : List Char → List Char
  | '%' :: '2' :: 'e' :: cs => '.' :: plainDots cs
  | '%' :: '2' :: 'E' :: cs => '.' :: plainDots cs
  | c :: cs => c :: plainDots cs
  | [] => []

/-- The segments of a path once those of dots are carried out: one dot is
nothing, two take the segment before away, and at the end of the path
either leaves an empty segment. -/
def resolve (done : List (List Char)) : List (List Char) → List (List Char)
  | [] => done
  | s :: rest =>
    let last := if rest = [] then [[]] else []
    if plainDots s = ['.', '.'] then resolve (done.dropLast ++ last) rest
    else if plainDots s = ['.'] then resolve (done ++ last) rest
    else resolve (done ++ [s]) rest

/-- Segments after one another, each behind a slash. -/
def joinSegments (segments : List (List Char)) : List Char := segments.flatMap ('/' :: ·)

/-- The path that a text with a host in front of it denotes. -/
def pathOf (family : Family) (cs : List Char) : List Char :=
  if cs = [] && family = .plain then []
  else
    let cs := if cs.head?.any (isSlash family) then cs.tail else cs
    joinSegments (resolve [] ((splitWhere (isSlash family) cs).map (Percent.encode refusedInPath)))

/-- What is in front of the fragment. -/
def withoutFragment (cs : List Char) : List Char := cs.takeWhile (· ≠ '#')

/-- The text of the path, and that of the query if there is one. -/
def splitQuery (cs : List Char) : List Char × Option (List Char) :=
  match cs.dropWhile (· ≠ '?') with
  | [] => (cs, none)
  | _ :: query => (cs.takeWhile (· ≠ '?'), some query)

/-! ### Reading -/

/-- What counts of a text: neither the blanks and controls at its ends nor
the line ends and tabs in it. -/
def significant (cs : List Char) : List Char :=
  let isEdge (c : Char) : Bool := c.toNat ≤ 0x20
  let inner := ((cs.dropWhile isEdge).reverse.dropWhile isEdge).reverse
  inner.filter fun c => c ∉ ['\t', '\n', '\r']

/-- An address with the path and the query that a text denotes. -/
def withRest (scheme : String) (family : Family) (host : Option Host) (port : Option Nat)
    (rest : List Char) : Url :=
  let (path, query) := splitQuery (withoutFragment rest)
  { scheme, host, port
    path := pathOf family path
    query := query.map (Percent.encode (refusedInQuery family)) }

/-- An address whose scheme is followed by neither host nor slash. -/
def hostless (scheme : String) (rest : List Char) : Url :=
  let (path, query) := splitQuery (withoutFragment rest)
  { scheme, host := none, port := none
    path := Percent.encode Percent.isControl path
    query := query.map (Percent.encode (refusedInQuery .plain)) }

/-- **The address that a text denotes** on its own. -/
def parse (text : String) : Except Flaw Url :=
  match splitScheme? (significant text.toList) with
  | none => .error .noScheme
  | some (scheme, cs) =>
    let family := Family.ofScheme scheme
    match family, cs with
    | .web, cs => do
      let (host, port, rest) ← readAuthority family (cs.dropWhile (isSlash family))
      return withRest scheme family (some host) port rest
    | .file, a :: b :: rest =>
      if isSlash family a && isSlash family b then do
        let (host, rest) ← readFileHost rest
        return withRest scheme family host none rest
      else .ok (withRest scheme family none none cs)
    | .file, cs => .ok (withRest scheme family none none cs)
    | .plain, '/' :: '/' :: rest => do
      let (host, port, rest) ← readAuthority family rest
      return withRest scheme family (some host) port rest
    | .plain, '/' :: _ => .ok (withRest scheme family none none cs)
    | .plain, cs => .ok (hostless scheme cs)

/-- Whether a text denotes an address on its own. -/
def isValid (text : String) : Bool := (parse text).isOk

/-! ### Asking -/

/-- **What a request for an address asks for**: its path and its query. -/
def target (u : Url) : String :=
  String.ofList (u.path ++ (u.query.map ('?' :: ·)).getD [])

/-- A byte of a form field. -/
def formByte (b : UInt8) : List Char :=
  let c := Char.ofNat b.toNat
  if b = 0x20 then ['+']
  else if c.toNat < 0x80 && (c.isAlphanum || c ∈ ['*', '-', '.', '_']) then [c]
  else Percent.encodeByte b

/-- A text as it stands in a form field. -/
def formText (text : String) : List Char :=
  (text.toList.flatMap String.utf8EncodeChar).flatMap formByte

/-- The address with one more field in its query. -/
def appendField (u : Url) (name value : String) : Url :=
  let field := formText name ++ '=' :: formText value
  let query :=
    match u.query with
    | none => field
    | some [] => field
    | some query => query ++ '&' :: field
  { u with query := some query }

end Url

end LiveSync
