import LiveSync.Text.Decimal

/-!
# Spans of time

A **duration** is a whole number of nanoseconds, at most a 64-bit word of
seconds and 999 999 999 nanoseconds. Doubling stops at that bound
(`Duration.double`), so a delay that is doubled again and again settles
at the bound instead of starting over.
-/

namespace LiveSync

/-- **A span of time**, bounded. -/
structure Duration where
  nanos : Nat
  /-- The seconds fit a 64-bit word. -/
  bounded : nanos < 0x10000000000000000 * 1_000_000_000
deriving DecidableEq, Repr

namespace Duration

@[ext] theorem ext {a b : Duration} (h : a.nanos = b.nanos) : a = b := by
  cases a; cases b; simp_all

/-- The number of nanoseconds above every duration. -/
def limit : Nat := 0x10000000000000000 * 1_000_000_000

/-- The duration of `n` nanoseconds, or the longest one if that is too long. -/
def ofNanos (n : Nat) : Duration :=
  ⟨min n (limit - 1), by simp only [limit]; omega⟩

/-- No time at all. -/
def zero : Duration := ofNanos 0

instance : Inhabited Duration := ⟨zero⟩

/-- A number of milliseconds. -/
def ofMillis (ms : UInt64) : Duration := ofNanos (ms.toNat * 1_000_000)

/-- A number of seconds and nanoseconds. -/
def ofSeconds (seconds : UInt64) (nanos : Nat) : Duration :=
  ofNanos (seconds.toNat * 1_000_000_000 + nanos)

/-- The shorter of two durations. -/
def shorter (a b : Duration) : Duration := if a.nanos ≤ b.nanos then a else b

/-- Twice the duration, or the longest one if that is too long. -/
def double (d : Duration) : Duration := ofNanos (2 * d.nanos)

/-- The whole milliseconds, or the greatest 64-bit word if they do not fit. -/
def millis (d : Duration) : UInt64 := UInt64.ofNat (min (d.nanos / 1_000_000) 0xFFFFFFFFFFFFFFFF)

/-- Seconds and nine digits of nanoseconds. -/
def text (d : Duration) : String :=
  String.ofList <| Decimal.ofNat (d.nanos / 1_000_000_000)
    ++ '.' :: Decimal.padded 9 (d.nanos % 1_000_000_000)

@[simp] theorem nanos_ofNanos (n : Nat) : (ofNanos n).nanos = min n (limit - 1) := rfl

@[simp] theorem nanos_shorter (a b : Duration) :
    (shorter a b).nanos = min a.nanos b.nanos := by
  unfold shorter; split <;> omega

@[simp] theorem nanos_double (d : Duration) :
    d.double.nanos = min (2 * d.nanos) (limit - 1) := rfl

/-- A number of milliseconds is no number that is too long. -/
theorem nanos_ofMillis (ms : UInt64) : (ofMillis ms).nanos = ms.toNat * 1_000_000 := by
  have h := ms.toNat_lt
  simp only [ofMillis, nanos_ofNanos, limit]
  omega

end Duration

/-- A point on a client's own clock, in nanoseconds. Deadlines are such
points. -/
abbrev Clock := Nat

end LiveSync
