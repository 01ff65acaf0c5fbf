import LiveSync.Entity.Topic
import LiveSync.Text.Blank

/-!
# Validators

A **validator** is the token by which a client asks for a state only if it
has changed. To the client it is any text. The tokens of this server have
a shape, `"game-42-v7"` with its quotes, which names the entity and the
version; a token of that shape can be made for a state that came without
one, and the version can be read off it.

Reading allows for more than is written: blanks around the token, the mark
`W/` of a weak one, a missing quote on either side, and superfluous zeros.
-/

namespace LiveSync

/-- **A validator token.** -/
structure Validator where
  text : String
deriving DecidableEq, Repr, Inhabited

namespace Validator

/-- **The server's token** for a state. -/
def derive (id : EntityId) (version : Version) : Validator :=
  ⟨"\"game-" ++ Decimal.intText id.toInt ++ "-v" ++ Decimal.intText version.toInt ++ "\""⟩

/-- The rest of a text behind a word it starts with. -/
def after? (word : List Char) (cs : List Char) : Option (List Char) :=
  if word.isPrefixOf cs then some (cs.drop word.length) else none

/-- The rest of a text behind a word, if it starts with that word, and
otherwise the text. -/
def afterMaybe (word : List Char) (cs : List Char) : List Char :=
  (after? word cs).getD cs

/-- The number at the start of a text, as a signed 64-bit word. -/
def number? (cs : List Char) : Option (Int64 × List Char) := do
  let n ← Decimal.toNat? (cs.takeWhile Char.isDigit)
  let w ← Word.int64? n
  return (w, cs.dropWhile Char.isDigit)

/-- The entity and the version of a token without blanks around it. -/
def parseTrimmed? (cs : List Char) : Option (EntityId × Version) := do
  let cs := afterMaybe ['"'] (afterMaybe ['W', '/'] cs)
  let cs ← after? ['g', 'a', 'm', 'e', '-'] cs
  let (id, cs) ← number? cs
  let cs ← after? ['-', 'v'] cs
  let (version, cs) ← number? cs
  if cs = [] ∨ cs = ['"'] then some (id, version) else none

/-- **The entity and the version a token names**, if it has the server's
shape. -/
def parse? (token : Validator) : Option (EntityId × Version) :=
  parseTrimmed? (Text.trim token.text.toList)

/-- The version a token names. -/
def version? (token : Validator) : Option Version := token.parse?.map Prod.snd

end Validator

end LiveSync
