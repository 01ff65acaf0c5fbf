import LiveSync.Config.Basic

/-!
# Retries

A connection that fails is tried again after a delay. Each retry doubles
the delay of the next one, up to a bound, and there is a limited number of
them. `Backoff.reset` starts over.

The delay before the retry number `k` (from zero on) is the initial delay
times `2 ^ k`, or the bound if that is less: `Backoff.delayAt`.
-/

namespace LiveSync

/-- **The retries of a connection.** -/
structure Backoff where
  initial : Duration
  bound : Duration
  maxAttempts : UInt32
  /-- How many retries have been used. -/
  attempts : UInt32
  /-- The delay before the next one. -/
  delay : Duration
deriving DecidableEq, Repr, Inhabited

namespace Backoff

/-- No retry has been used. -/
def start (initial bound : Duration) (maxAttempts : UInt32) : Backoff :=
  ⟨initial, bound, maxAttempts, 0, initial.shorter bound⟩

/-- The retries of a client with the given settings. -/
def ofConfig (c : Config) : Backoff := start c.backoffInitial c.backoffMax c.maxAttempts

/-- Whether all retries have been used. -/
def isExhausted (b : Backoff) : Bool := b.maxAttempts ≤ b.attempts

/-- **Uses a retry**: the delay before it, if there is one left. -/
def next? (b : Backoff) : Option (Duration × Backoff) :=
  if b.isExhausted then none
  else some (b.delay,
    { b with attempts := b.attempts + 1, delay := b.delay.double.shorter b.bound })

/-- Gives all retries back. -/
def reset (b : Backoff) : Backoff :=
  { b with attempts := 0, delay := b.initial.shorter b.bound }

/-- **The delay before retry number `k`** in nanoseconds. -/
def delayAt (b : Backoff) (k : Nat) : Nat := min (b.initial.nanos * Nat.pow 2 k) b.bound.nanos

end Backoff

end LiveSync
