import LiveSync.Table
import LiveSync.Yaml.Token

/-!
# Nodes

A **document** is one node: a scalar, a sequence, or a mapping. An anchor
names a node, and an alias stands for the node that was named last; where
that is a scalar the alias is that scalar, and where it is a collection the
alias refers to it and does not repeat it.

A node that is left out is a plain scalar without text.
-/

namespace LiveSync.Yaml

/-- **A scalar.** -/
structure Scalar where
  style : Style
  /-- The tag, with its handle replaced by what it is short for. -/
  tag : Option String
  text : String
deriving DecidableEq, Repr, Inhabited

/-- The scalar of a node that is left out. -/
def Scalar.empty (tag : Option String) : Scalar := ⟨.plain, tag, ""⟩

/-- **A node of a document.** -/
inductive Node where
  | scalar (s : Scalar)
  | sequence (items : List Node)
  | mapping (entries : List (Node × Node))
  /-- An alias of a collection. -/
  | reference (anchor : String)
deriving Repr, Inhabited

namespace Node

/-- The node that is left out. -/
def absent : Node := .scalar (.empty none)

/-- What is known while a document is read. -/
structure Reading where
  tokens : List Token
  /-- The anchors, with the scalar where they name one. -/
  anchors : Table String (Option Scalar)
  /-- What handles are short for. -/
  handles : Table String String

/-- Reads a part of a document. -/
abbrev Parse (α : Type) := StateT Reading Option α

/-- The next token. -/
def peek : Parse (Option Token) := do return (← get).tokens.head?

/-- Passes over the next token. -/
def skip : Parse Unit := modify fun r => { r with tokens := r.tokens.tail }

/-- Passes over a token that has to come next. -/
def expect (t : Token) : Parse Unit := do
  guard ((← peek) = some t)
  skip

/-- Whether the next token is one of some. -/
def nextIn (ts : List Token) : Parse Bool := do return (← peek).any (· ∈ ts)

/-- The tag that is written so. -/
def resolveTag (t : RawTag) : Parse String := do
  if t.handle = "" then return t.suffix
  else
    match (← get).handles.get? t.handle with
    | some meaning => return meaning ++ t.suffix
    | none => failure

/-- An anchor, if there is one. -/
def anchor? : Parse (Option String) := do
  match ← peek with
  | some (.anchor name) => skip; return some name
  | _ => return none

/-- A tag, if there is one. -/
def tag? : Parse (Option String) := do
  match ← peek with
  | some (.tag t) => skip; return some (← resolveTag t)
  | _ => return none

/-- The anchor and the tag in front of a node, in either order. -/
def properties : Parse (Option String × Option String) := do
  match ← anchor? with
  | some name => return (some name, ← tag?)
  | none =>
    match ← tag? with
    | some tag => return (← anchor?, some tag)
    | none => return (none, none)

/-- Notes what an anchor names. -/
def name (anchor : Option String) (s : Option Scalar) : Parse Unit :=
  match anchor with
  | none => pure ()
  | some a => modify fun r => { r with anchors := r.anchors.insert a s }

/-- What an alias stands for. -/
def deref (a : String) : Parse Node := do
  match (← get).anchors.get? a with
  | none => failure
  | some (some s) => return .scalar s
  | some none => return .reference a

/-- Where a node may stand. -/
structure Place where
  /-- Whether indentation may begin a collection. -/
  block : Bool
  /-- Whether dashes without indentation may begin a sequence. -/
  dashes : Bool

/-- Outside of brackets, as an item. -/
def Place.item : Place := ⟨true, false⟩

/-- Outside of brackets, as a key or a value. -/
def Place.field : Place := ⟨true, true⟩

/-- In brackets. -/
def Place.flow : Place := ⟨false, false⟩

/-- The tokens that end a key or a value outside of brackets. -/
def fieldEnds : List Token := [.key, .value, .blockEnd]

mutual

/-- **Reads a node.** -/
def node : Nat → Place → Parse Node
  | 0, _ => failure
  | fuel + 1, place => do
    if let some (.alias a) ← peek then
      skip
      return ← deref a
    let (anchor, tag) ← properties
    match ← peek with
    | some (.scalar style text) =>
      skip
      let s : Scalar := ⟨style, tag, text⟩
      name anchor s
      return .scalar s
    | some .openSequence =>
      skip
      name anchor none
      return .sequence (← flowItems fuel true)
    | some .openMapping =>
      skip
      name anchor none
      return .mapping (← flowEntries fuel true)
    | some .blockEntry =>
      if place.dashes then
        name anchor none
        return .sequence (← dashItems fuel)
      else empty anchor tag
    | some .blockSequence =>
      if place.block then
        skip
        name anchor none
        return .sequence (← blockItems fuel)
      else empty anchor tag
    | some .blockMapping =>
      if place.block then
        skip
        name anchor none
        return .mapping (← blockEntries fuel)
      else empty anchor tag
    | _ => empty anchor tag
where
  /-- A node of which there is only an anchor or a tag. -/
  empty (anchor tag : Option String) : Parse Node := do
    guard (anchor.isSome || tag.isSome)
    name anchor (some (.empty tag))
    return .scalar (.empty tag)

/-- A node, unless one of some tokens comes at once. -/
def nodeUnless : Nat → List Token → Place → Parse Node
  | 0, _, _ => failure
  | fuel + 1, ends, place => do
    if ← nextIn ends then return absent
    node fuel place

/-- The items of an indented sequence, up to its end. -/
def blockItems : Nat → Parse (List Node)
  | 0 => failure
  | fuel + 1 => do
    match ← peek with
    | some .blockEntry =>
      skip
      let item ← nodeUnless fuel [.blockEntry, .blockEnd] .item
      return item :: (← blockItems fuel)
    | some .blockEnd => skip; return []
    | _ => failure

/-- The items of a sequence that is not indented. It has no end of its own. -/
def dashItems : Nat → Parse (List Node)
  | 0 => failure
  | fuel + 1 => do
    match ← peek with
    | some .blockEntry =>
      skip
      let item ← nodeUnless fuel (.blockEntry :: fieldEnds) .item
      return item :: (← dashItems fuel)
    | _ => return []

/-- The entries of an indented mapping, up to its end. -/
def blockEntries : Nat → Parse (List (Node × Node))
  | 0 => failure
  | fuel + 1 => do
    match ← peek with
    | some .key =>
      skip
      let key ← nodeUnless fuel fieldEnds .field
      let value ←
        if ← nextIn [.value] then
          skip
          nodeUnless fuel fieldEnds .field
        else pure absent
      return (key, value) :: (← blockEntries fuel)
    | some .blockEnd => skip; return []
    | _ => failure

/-- The items of a sequence in brackets, up to its end. A key makes an item a
mapping of one entry. -/
def flowItems : Nat → Bool → Parse (List Node)
  | 0, _ => failure
  | fuel + 1, first => do
    if (← peek) ≠ some .closeSequence && !first then expect .flowEntry
    match ← peek with
    | some .closeSequence => skip; return []
    | some .key =>
      skip
      let entry ← flowPair fuel
      return .mapping [entry] :: (← flowItems fuel false)
    | _ =>
      let item ← node fuel .flow
      return item :: (← flowItems fuel false)

/-- The entry of an item that is a mapping. Without a key, what ends the key
is passed over. -/
def flowPair : Nat → Parse (Node × Node)
  | 0 => failure
  | fuel + 1 => do
    let key ←
      if ← nextIn [.value, .flowEntry, .closeSequence] then
        skip
        pure absent
      else node fuel .flow
    if ← nextIn [.value] then
      skip
      return (key, ← nodeUnless fuel [.flowEntry, .closeSequence] .flow)
    else return (key, absent)

/-- The entries of a mapping in braces, up to its end. What is no key is a
key without a value. -/
def flowEntries : Nat → Bool → Parse (List (Node × Node))
  | 0, _ => failure
  | fuel + 1, first => do
    if (← peek) ≠ some .closeMapping && !first then expect .flowEntry
    match ← peek with
    | some .closeMapping => skip; return []
    | some .key =>
      skip
      let key ← nodeUnless fuel [.value, .flowEntry, .closeMapping] .flow
      let value ←
        if ← nextIn [.value] then
          skip
          nodeUnless fuel [.flowEntry, .closeMapping] .flow
        else pure absent
      return (key, value) :: (← flowEntries fuel false)
    | _ =>
      let key ← node fuel .flow
      return (key, absent) :: (← flowEntries fuel false)

end

/-! ### Documents -/

/-- The handles that are known without a directive. -/
def standardHandles : Table String String :=
  (Table.empty.insert "!" "!").insert "!!" "tag:yaml.org,2002:"

/-- Reads the directives of a document: at most one version, which has to be
1.1 or 1.2, and no handle twice. -/
def directives : List Token → Bool → Table String String →
    Option (List Token × Bool × Table String String)
  | .directive (.version major minor) :: ts, versioned, handles =>
    if versioned || major ≠ 1 || (minor ≠ 1 && minor ≠ 2) then none
    else directives ts true handles
  | .directive (.shorthand handle meaning) :: ts, versioned, handles =>
    if (handles.get? handle).isSome then none
    else directives ts versioned (handles.insert handle meaning)
  | ts, versioned, handles => some (ts, versioned, handles)

/-- The handles of a document with the standard ones. -/
def withStandard (handles : Table String String) : Table String String :=
  handles.keys.foldl
    (fun all h => match handles.get? h with
      | some m => all.insert h m
      | none => all)
    standardHandles

/-- The root of a document, for which there are so many tokens. -/
def root (size : Nat) (marked : Bool) : Parse Node := do
  if marked && ((← peek).all isDocumentToken) then return absent
  else node (3 * size + 3) .item
where
  isDocumentToken : Token → Bool
    | .directive _ | .documentStart | .documentEnd => true
    | _ => false

/-- **The node of a stream that is one document.** A stream without one is
nothing, and so is one with several. -/
def ofTokens? (tokens : List Token) : Option Node := do
  let (ts, _, handles) ← directives tokens false .empty
  let marked := ts.head? = some .documentStart
  guard (marked || ts.length = tokens.length)
  guard (ts ≠ [])
  let ts := if marked then ts.tail else ts
  let (n, after) ← (root ts.length marked).run ⟨ts, .empty, withStandard handles⟩
  guard (after.tokens.all (· = .documentEnd))
  return n

/-- **The node of a text that is one document.** -/
def ofText? (text : String) : Option Node := (Token.ofText? text).bind ofTokens?

end Node

end LiveSync.Yaml
