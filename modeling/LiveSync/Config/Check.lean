import LiveSync.Config.Basic
import LiveSync.Url.Basic

/-!
# Checking settings

The two addresses have to be absolute addresses and the numbers must not be
zero. Only when every setting is right on its own is it asked whether they
fit together: the first delay between retries must not exceed the largest.
-/

namespace LiveSync

/-- **What is wrong with settings.** -/
inductive Violation where
  /-- The setting is no absolute address. -/
  | notAddress (field : String)
  /-- The setting is zero. -/
  | outOfRange (field : String)
  /-- The first delay is larger than the largest. -/
  | initialDelayExceedsMax
deriving DecidableEq, Repr

namespace Violation

/-- The setting that is wrong; a violation of all of them together has a
name of its own. -/
def field : Violation → String
  | notAddress f => f
  | outOfRange f => f
  | initialDelayExceedsMax => "__all__"

/-- The name of the rule that is violated. -/
def code : Violation → String
  | notAddress _ => "url"
  | outOfRange _ => "range"
  | initialDelayExceedsMax => "backoff_initial_exceeds_max"

end Violation

namespace Config

/-- The settings that are addresses. -/
def addresses (c : Config) : List (String × String) :=
  [("api_base_url", c.apiBaseUrl), ("ws_url", c.wsUrl)]

/-- The settings that are numbers. -/
def amounts (c : Config) : List (String × Nat) :=
  [("backoff_initial_ms", c.backoffInitialMs.toNat),
    ("backoff_max_ms", c.backoffMaxMs.toNat),
    ("command_timeout_ms", c.commandTimeoutMs.toNat),
    ("confirm_timeout_ms", c.confirmTimeoutMs.toNat),
    ("event_capacity", c.eventCapacity.toNat),
    ("fetch_timeout_ms", c.fetchTimeoutMs.toNat),
    ("handshake_timeout_ms", c.handshakeTimeoutMs.toNat),
    ("liveness_timeout_ms", c.livenessTimeoutMs.toNat),
    ("max_attempts", c.maxAttempts.toNat),
    ("protocol_version", c.protocolVersion.toNat)]

/-- What is wrong with single settings, in the order of their names. -/
def fieldViolations (c : Config) : List Violation :=
  let urls := c.addresses.filterMap fun (name, url) =>
    if Url.isValid url then none else some (.notAddress name)
  let ranges := c.amounts.filterMap fun (name, n) =>
    if n = 0 then some (.outOfRange name) else none
  (urls ++ ranges).mergeSort fun a b => a.field ≤ b.field

/-- **What is wrong with settings.** -/
def violations (c : Config) : List Violation :=
  match c.fieldViolations with
  | [] => if c.backoffMaxMs < c.backoffInitialMs then [.initialDelayExceedsMax] else []
  | vs => vs

/-- Whether a client can be built from settings. -/
def isValid (c : Config) : Bool := c.violations.isEmpty

end Config

end LiveSync
