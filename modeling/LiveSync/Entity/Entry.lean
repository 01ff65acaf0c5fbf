import LiveSync.Entity.Validator
import LiveSync.Json.Reader
import LiveSync.Time.Instant

/-!
# Entries

An **entry** is one state of an entity: its version, its payload, and
where it comes from. The server's states are pushed over the live
connection or fetched; a third kind is made here, as a guess at what a
command will do. A guess keeps the version and the validator of the state
it is based on, and names that state's version as its base.

An authoritative entry that was made by `Entry.push` or `Entry.http`
always has a validator, and one that does not contradict its version.
-/

namespace LiveSync

/-- **Where an entry comes from.** -/
inductive Provenance where
  /-- It was pushed by the server. -/
  | push
  /-- It was fetched from the server. -/
  | http
  /-- It is a guess, based on the server's state of version `base`. -/
  | optimistic (base : Version)
deriving DecidableEq, Repr, Inhabited

namespace Provenance

/-- Whether an entry comes from the server. -/
def isAuthoritative : Provenance → Bool
  | .push | .http => true
  | .optimistic _ => false

/-- The name of a provenance. -/
def label : Provenance → String
  | .push => "push"
  | .http => "http"
  | .optimistic _ => "optimistic"

/-- The names of the provenances. -/
def sources : List String := ["push", "http", "optimistic"]

/-- Reads a provenance. -/
def ofJson? (depth : Json.Depth) (v : Json) : Option Provenance :=
  match Json.tagged? depth "source" sources v with
  | some ("push", fields) => fields.finish? .push
  | some ("http", fields) => fields.finish? .http
  | some ("optimistic", fields) => do
    let (base, fields) ← fields.required ["base"] Json.int64?
    fields.finish? (.optimistic base)
  | _ => none

/-- The JSON form of a provenance. -/
def toJson (p : Provenance) : Json :=
  match p with
  | .push | .http => .obj [("source", .str p.label)]
  | .optimistic base => .obj [("source", .str p.label), ("base", Json.ofInt64 base)]

end Provenance

/-- **One state of an entity.** -/
structure Entry where
  entityId : EntityId
  version : Version
  payload : Json
  provenance : Provenance
  validator : Option Validator
  /-- When the entry was made. -/
  receivedAt : Instant
deriving DecidableEq, Repr, Inhabited

namespace Entry

/-- A pushed state; its validator is the server's token for it. -/
def push (id : EntityId) (version : Version) (payload : Json) (now : Instant) : Entry :=
  ⟨id, version, payload, .push, some (Validator.derive id version), now⟩

/-- The validator for a fetched state: the one that came with it, unless it
names another version. -/
def fetchedValidator (id : EntityId) (version : Version) :
    Option Validator → Validator
  | none => Validator.derive id version
  | some token =>
    match token.version? with
    | none => token
    | some v => if v = version then token else Validator.derive id version

/-- A fetched state. -/
def http (id : EntityId) (version : Version) (payload : Json) (validator : Option Validator)
    (now : Instant) : Entry :=
  ⟨id, version, payload, .http, some (fetchedValidator id version validator), now⟩

/-- The version of the server's state that an entry rests on. -/
def baseVersion (e : Entry) : Version :=
  match e.provenance with
  | .optimistic base => base
  | .push | .http => e.version

/-- Whether an entry is a guess. -/
def isOptimistic (e : Entry) : Bool := !e.provenance.isAuthoritative

/-- A guess based on an entry. -/
def optimistic (e : Entry) (payload : Json) (now : Instant) : Entry :=
  { e with
    payload := payload
    provenance := .optimistic e.baseVersion
    receivedAt := now }

/-- **Entries that differ at most in their time.** -/
def Same (a b : Entry) : Prop := { a with receivedAt := b.receivedAt } = b

/-- The fields of an entry. -/
def fieldNames : List String :=
  ["entity_id", "version", "payload", "provenance", "validator", "received_at"]

/-- Reads an entry off its fields. -/
def ofJson? (v : Json) : Option Entry := do
  let fields ← v.record?
  let (id, fields) ← fields.required ["entity_id"] Json.int64?
  let (version, fields) ← fields.required ["version"] Json.int64?
  let (payload, fields) ← fields.required ["payload"] Json.any?
  let (provenance, fields) ← fields.required ["provenance"] (Provenance.ofJson? .outermost)
  let (validator, fields) ← fields.optional ["validator"] Json.str?
  let (at', fields) ← fields.required ["received_at"] fun v => v.str?.bind Instant.parse?
  fields.finish? ⟨id, version, payload, provenance, validator.map Validator.mk, at'⟩

/-- **Reads an entry's text.** -/
def parse? (text : String) : Option Entry := (Json.parseRecord? fieldNames text).bind ofJson?

/-- The JSON form of an entry. -/
def toJson (e : Entry) : Json :=
  .obj [("entity_id", Json.ofInt64 e.entityId), ("version", Json.ofInt64 e.version),
    ("payload", e.payload), ("provenance", e.provenance.toJson),
    ("validator", Json.ofOption (fun t => .str t.text) e.validator),
    ("received_at", .str e.receivedAt.text)]

/-! ### The base of a guess -/

@[simp] theorem baseVersion_push (id : EntityId) (v : Version) (p : Json) (now : Instant) :
    (push id v p now).baseVersion = v := rfl

@[simp] theorem baseVersion_http (id : EntityId) (v : Version) (p : Json)
    (t : Option Validator) (now : Instant) : (http id v p t now).baseVersion = v := rfl

/-- **A guess on a guess** has the same base. -/
@[simp] theorem baseVersion_optimistic (e : Entry) (p : Json) (now : Instant) :
    (e.optimistic p now).baseVersion = e.baseVersion := rfl

@[simp] theorem isOptimistic_optimistic (e : Entry) (p : Json) (now : Instant) :
    (e.optimistic p now).isOptimistic = true := rfl

end Entry

end LiveSync
