import LiveSync.Number.Binary64

/-!
# JSON values

Payloads are opaque to the client: whatever the server sends is kept and
handed on. A **value** is therefore all of JSON, with two choices made.

A number is an integer when it was written without fraction and exponent
and lies between `-2^63` and `2^64 - 1`; any other is a double. The two
never mix: an integer field refuses `8.0`.

An object is a list of members. As it was read it may repeat a name; a
**settled** value (`Json.settle`) repeats none and lists its members by
name, and of repeated members the last one counts. Everything that is
stored or sent is settled.
-/

namespace LiveSync

/-- **A JSON value.** -/
inductive Json where
  | null
  | bool (b : Bool)
  /-- A number written as an integer. -/
  | int (n : Int)
  /-- Any other number. -/
  | float (x : Binary64)
  | str (s : String)
  | arr (items : List Json)
  /-- The members, in the order in which they were written. -/
  | obj (members : List (String × Json))
deriving Repr, Inhabited

namespace Json

/-! ### Equality -/

mutual

/-- Equality of values is decidable. -/
def decEq : (a b : Json) → Decidable (a = b)
  | .null, b => match b with
    | .null => isTrue rfl
    | .bool _ | .int _ | .float _ | .str _ | .arr _ | .obj _ => isFalse (by simp)
  | .bool x, b => match b with
    | .bool y => decidable_of_iff (x = y) (by simp)
    | .null | .int _ | .float _ | .str _ | .arr _ | .obj _ => isFalse (by simp)
  | .int x, b => match b with
    | .int y => decidable_of_iff (x = y) (by simp)
    | .null | .bool _ | .float _ | .str _ | .arr _ | .obj _ => isFalse (by simp)
  | .float x, b => match b with
    | .float y => decidable_of_iff (x = y) (by simp)
    | .null | .bool _ | .int _ | .str _ | .arr _ | .obj _ => isFalse (by simp)
  | .str x, b => match b with
    | .str y => decidable_of_iff (x = y) (by simp)
    | .null | .bool _ | .int _ | .float _ | .arr _ | .obj _ => isFalse (by simp)
  | .arr xs, b => match b with
    | .arr ys => @decidable_of_iff _ (xs = ys) (by simp) (decEqItems xs ys)
    | .null | .bool _ | .int _ | .float _ | .str _ | .obj _ => isFalse (by simp)
  | .obj xs, b => match b with
    | .obj ys => @decidable_of_iff _ (xs = ys) (by simp) (decEqMembers xs ys)
    | .null | .bool _ | .int _ | .float _ | .str _ | .arr _ => isFalse (by simp)

/-- Equality of lists of values. -/
def decEqItems : (a b : List Json) → Decidable (a = b)
  | [], [] => isTrue rfl
  | [], _ :: _ | _ :: _, [] => isFalse (by simp)
  | x :: xs, y :: ys =>
    @decidable_of_iff _ (x = y ∧ xs = ys) (by simp)
      (@instDecidableAnd _ _ (decEq x y) (decEqItems xs ys))

/-- Equality of lists of members. -/
def decEqMembers : (a b : List (String × Json)) → Decidable (a = b)
  | [], [] => isTrue rfl
  | [], _ :: _ | _ :: _, [] => isFalse (by simp)
  | (j, x) :: xs, (k, y) :: ys =>
    @decidable_of_iff _ ((j = k ∧ x = y) ∧ xs = ys) (by simp)
      (@instDecidableAnd _ _ (@instDecidableAnd _ _ inferInstance (decEq x y))
        (decEqMembers xs ys))

end

instance : DecidableEq Json := decEq

/-! ### Members -/

/-- The value of the first member called `key`. -/
def member? (key : String) : List (String × Json) → Option Json
  | [] => none
  | (k, v) :: rest => if k = key then some v else member? key rest

/-- Writes a member into a list that is ordered by name, replacing one of
the same name. -/
def insertMember (key : String) (v : Json) : List (String × Json) → List (String × Json)
  | [] => [(key, v)]
  | (k, w) :: rest =>
    if key < k then (key, v) :: (k, w) :: rest
    else if key = k then (key, v) :: rest
    else (k, w) :: insertMember key v rest

/-- A list of members ordered by name, the last of each name. -/
def orderMembers (members : List (String × Json)) : List (String × Json) :=
  members.foldl (fun done m => insertMember m.1 m.2 done) []

mutual

/-- **The settled value**: in every object the members are ordered by name
and of equal names the last one is kept. -/
def settle : Json → Json
  | .null => .null
  | .bool b => .bool b
  | .int n => .int n
  | .float x => .float x
  | .str s => .str s
  | .arr items => .arr (settleItems items)
  | .obj members => .obj (orderMembers (settleMembers members))

/-- Settles every item. -/
def settleItems : List Json → List Json
  | [] => []
  | v :: rest => settle v :: settleItems rest

/-- Settles the value of every member. -/
def settleMembers : List (String × Json) → List (String × Json)
  | [] => []
  | (k, v) :: rest => (k, settle v) :: settleMembers rest

end

/-- A settled object with the given members. -/
def object (members : List (String × Json)) : Json := .obj (orderMembers members)

/-- The value of an object's member. -/
def get? (key : String) : Json → Option Json
  | .obj members => member? key members
  | _ => none

/-- The text of a string value. -/
def str? : Json → Option String
  | .str s => some s
  | _ => none

/-- The number of an integer value. -/
def int? : Json → Option Int
  | .int n => some n
  | _ => none

/-- The items of an array. -/
def items? : Json → Option (List Json)
  | .arr items => some items
  | _ => none

end Json

end LiveSync
