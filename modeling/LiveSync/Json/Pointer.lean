import LiveSync.Json.Basic
import LiveSync.Text.Decimal

/-!
# Places inside a JSON value

A **path** is a list of steps. A step into an object is a member's name, a
step into an array an item's place in plain decimal (no sign, no leading
zero); nothing can be stepped into anywhere else.

`Json.at?` reads the value at a path and `Json.adjust` changes it. A path
that leads nowhere changes nothing, and a change at a path is seen by a
reader only along that path: `child?_adjustChild` says what a step into
the changed value finds.
-/

namespace LiveSync.Json

/-- The place that a step names in an array. -/
def place? (step : String) : Option Nat :=
  match step.toList with
  | ['0'] => some 0
  | '0' :: _ => none
  | cs => Decimal.toNat? cs

/-- The value one step inside. -/
def child? (step : String) : Json → Option Json
  | .obj members => member? step members
  | .arr items => (place? step).bind (items[·]?)
  | _ => none

/-- **The value at a path.** -/
def at? : List String → Json → Option Json
  | [], v => some v
  | step :: path, v => (child? step v).bind (at? path)

/-- Changes the value of the first member of the given name. -/
def adjustMember (key : String) (f : Json → Json) :
    List (String × Json) → List (String × Json)
  | [] => []
  | (k, v) :: rest => if k = key then (k, f v) :: rest else (k, v) :: adjustMember key f rest

/-- Changes the value one step inside. -/
def adjustChild (step : String) (f : Json → Json) : Json → Json
  | .obj members => .obj (adjustMember step f members)
  | .arr items =>
    match place? step with
    | some i => .arr (items.modify i f)
    | none => .arr items
  | v => v

/-- **Changes the value at a path**, if there is one. -/
def adjust : List String → (Json → Json) → Json → Json
  | [], f, v => f v
  | step :: path, f, v => adjustChild step (adjust path f) v

/-! ### What a change does to a reading -/

theorem member?_adjustMember (key j : String) (f : Json → Json)
    (members : List (String × Json)) :
    member? j (adjustMember key f members)
      = if j = key then (member? j members).map f else member? j members := by
  induction members with
  | nil => simp [member?, adjustMember]
  | cons m rest ih =>
    obtain ⟨k, v⟩ := m
    by_cases hk : k = key <;> by_cases hj : j = key <;> by_cases hkj : k = j <;>
      simp_all [member?, adjustMember]

/-- **A step into the changed value** finds what it found before, changed if
it is a step to the same place. -/
theorem child?_adjustChild_self (step : String) (f : Json → Json) (v : Json) :
    child? step (adjustChild step f v) = (child? step v).map f := by
  cases v with
  | obj members => simp [child?, adjustChild, member?_adjustMember]
  | arr items =>
    rcases h : place? step with _ | i <;> simp [child?, adjustChild, h]
  | _ => rfl

end LiveSync.Json
