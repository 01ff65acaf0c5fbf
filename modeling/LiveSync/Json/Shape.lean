import LiveSync.Json.Basic
import LiveSync.Number.Word

/-!
# Typed values in JSON

A **record** is written with its fields by name, `{"id": 3}`, or by
position, `[3]`; both are `Fields`. A **tagged** value is a record that
also names its variant: by a member, `{"kind": "game", "id": 3}`, or by
the first item, `["game", 3]`.

Fields that are not asked for are ignored when they have names, and
refused when they have not: a list of fields has to be used up
(`Fields.finish?`). A field that is written twice is refused, and so is a
field together with its other name.

A field is *required*, *optional* or *defaulted*. An optional one may be
`null`, and may be left out where fields have names; a defaulted one may
be left out anywhere, which in a list means at its end.

The readers only look at the members they ask for. `Fields.take?_named`
says so in the form in which it is used: two objects that agree on the
names of a field agree on the field.
-/

namespace LiveSync.Json

/-- **The fields of a record**, by name or by position. -/
inductive Fields where
  | named (members : List (String × Json))
  | listed (items : List Json)
deriving Repr, DecidableEq

/-- Where a tagged value stands. Inside another tagged value a variant may
also be given by its number. -/
inductive Depth where
  | outermost
  | inner
deriving Repr, DecidableEq

namespace Fields

/-- The members of any of the given names. -/
def called (names : List String) (members : List (String × Json)) : List (String × Json) :=
  members.filter fun m => m.1 ∈ names

/-- **Takes the next field**, whose names are given: its value, if it is
there, and the fields that are left. -/
def take? (names : List String) : Fields → Option (Option Json × Fields)
  | .named members =>
    match called names members with
    | [] => some (none, .named members)
    | [m] => some (some m.2, .named members)
    | _ :: _ :: _ => none
  | .listed [] => some (none, .listed [])
  | .listed (v :: rest) => some (some v, .listed rest)

/-- A field that has to be there. -/
def required {α : Type} (names : List String) (read : Json → Option α) (fields : Fields) :
    Option (α × Fields) :=
  match take? names fields with
  | some (some v, rest) => (read v).map fun x => (x, rest)
  | _ => none

/-- A value or `null`. -/
def orNull {α : Type} (read : Json → Option α) : Json → Option (Option α)
  | .null => some none
  | v => (read v).map some

/-- A field that may be `null`, and may be left out if fields have names. -/
def optional {α : Type} (names : List String) (read : Json → Option α) (fields : Fields) :
    Option (Option α × Fields) :=
  match take? names fields with
  | some (some v, rest) => (orNull read v).map fun x => (x, rest)
  | some (none, .named members) => some (none, .named members)
  | _ => none

/-- A field that may be left out, and then is `value`. -/
def defaulted {α : Type} (value : α) (names : List String) (read : Json → Option α)
    (fields : Fields) : Option (α × Fields) :=
  match take? names fields with
  | some (some v, rest) => (read v).map fun x => (x, rest)
  | some (none, rest) => some (value, rest)
  | none => none

/-- Gives back what was read if no listed field is left over. -/
def finish? {α : Type} (x : α) : Fields → Option α
  | .named _ => some x
  | .listed [] => some x
  | .listed (_ :: _) => none

/-- **Objects that agree on a field's names agree on the field.** -/
theorem take?_named {names : List String} {ms ns : List (String × Json)}
    (h : called names ms = called names ns) :
    (take? names (.named ms)).map Prod.fst = (take? names (.named ns)).map Prod.fst := by
  simp only [take?, h]
  rcases called names ns with _ | ⟨m, _ | ⟨n, rest⟩⟩ <;> rfl

end Fields

/-! ### Records and tagged values -/

/-- The fields of a record. -/
def record? : Json → Option Fields
  | .obj members => some (.named members)
  | .arr items => some (.listed items)
  | _ => none

/-- The variant that a tag names: one of `variants`, or inside another
tagged value the place of one. -/
def variant? (depth : Depth) (variants : List String) : Json → Option String
  | .str s => some s
  | .int n => if depth = .inner ∧ 0 ≤ n then variants[n.toNat]? else none
  | _ => none

/-- **The variant and the fields of a tagged value.** -/
def tagged? (depth : Depth) (tag : String) (variants : List String) :
    Json → Option (String × Fields)
  | .obj members =>
    match Fields.called [tag] members with
    | [m] => (variant? depth variants m.2).map fun s => (s, .named members)
    | _ => none
  | .arr (v :: rest) => (variant? depth variants v).map fun s => (s, .listed rest)
  | _ => none

/-- The name of a variant without fields: a string, or an object whose one
member has it as its name and holds `null`. Inside a tagged value that
member may also be the empty object. -/
def plainVariant? (depth : Depth) : Json → Option String
  | .str s => some s
  | .obj [(s, .null)] => some s
  | .obj [(s, .obj [])] => if depth = .inner then some s else none
  | _ => none

/-! ### Leaves -/

/-- A signed 64-bit number. -/
def int64? (v : Json) : Option Int64 := v.int?.bind Word.int64?

/-- An unsigned 8-bit number. -/
def uint8? (v : Json) : Option UInt8 := v.int?.bind Word.uint8?

/-- An unsigned 16-bit number. -/
def uint16? (v : Json) : Option UInt16 := v.int?.bind Word.uint16?

/-- An unsigned 32-bit number. -/
def uint32? (v : Json) : Option UInt32 := v.int?.bind Word.uint32?

/-- An unsigned 64-bit number. -/
def uint64? (v : Json) : Option UInt64 := v.int?.bind Word.uint64?

/-- A truth value. -/
def bool? : Json → Option Bool
  | .bool b => some b
  | _ => none

/-- Any value, settled. -/
def any? (v : Json) : Option Json := some v.settle

/-! ### Writing -/

/-- A signed 64-bit number. -/
def ofInt64 (n : Int64) : Json := .int n.toInt

/-- An unsigned 8-bit number. -/
def ofUInt8 (n : UInt8) : Json := .int n.toNat

/-- An unsigned 32-bit number. -/
def ofUInt32 (n : UInt32) : Json := .int n.toNat

/-- A value, or `null` for none. -/
def ofOption {α : Type} (write : α → Json) : Option α → Json
  | none => .null
  | some x => write x

@[simp] theorem int64?_ofInt64 (n : Int64) : int64? (ofInt64 n) = some n := by
  rw [int64?, ofInt64, int?, Option.bind_some, Word.int64?_eq_some_iff]

@[simp] theorem uint8?_ofUInt8 (n : UInt8) : uint8? (ofUInt8 n) = some n := by
  rw [uint8?, ofUInt8, int?, Option.bind_some, Word.uint8?_eq_some_iff]

@[simp] theorem uint32?_ofUInt32 (n : UInt32) : uint32? (ofUInt32 n) = some n := by
  rw [uint32?, ofUInt32, int?, Option.bind_some, Word.uint32?_eq_some_iff]

end LiveSync.Json
