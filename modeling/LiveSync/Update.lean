import LiveSync.Event

/-!
# Updates

An operation on a part of the client yields an **update**: the new state,
an answer for the caller, and the events to be published. Publishing is
not part of the operation; the events are handed out in their order.
-/

namespace LiveSync

/-- **What an operation leads to.** -/
structure Update (σ α : Type) where
  state : σ
  result : α
  events : List Event
deriving Repr

namespace Update

variable {σ τ α β : Type}

/-- An update that publishes nothing. -/
def silent (s : σ) (a : α) : Update σ α := ⟨s, a, []⟩

/-- An update of a part, as one of the whole. -/
def within (u : Update σ α) (whole : σ → τ) : Update τ α := ⟨whole u.state, u.result, u.events⟩

/-- An update with another answer. -/
def answer (u : Update σ α) (f : α → β) : Update σ β := ⟨u.state, f u.result, u.events⟩

/-- One update after another. -/
def andThen (u : Update σ α) (f : σ → α → Update σ β) : Update σ β :=
  let v := f u.state u.result
  ⟨v.state, v.result, u.events ++ v.events⟩

end Update

end LiveSync
