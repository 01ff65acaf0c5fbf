import LiveSync.Config.Check
import LiveSync.Failure
import LiveSync.Yaml.Number

/-!
# Reading settings

Settings are written as a YAML mapping from their names. The two addresses
have to be there; whatever else is missing has its default. Names that are
no setting are passed over, a setting that is there twice is refused.

A text that is read but holds settings that are not right is refused for
their violations. Whatever is wrong with a file is told with its path.
-/

namespace LiveSync.Config

open Yaml (Node)

/-- The names of the settings. -/
def fieldNames : List String :=
  ["api_base_url", "ws_url", "token_path", "protocol_version", "handshake_timeout_ms",
    "fetch_timeout_ms", "command_timeout_ms", "backoff_initial_ms", "backoff_max_ms",
    "max_attempts", "liveness_timeout_ms", "confirm_timeout_ms", "event_capacity"]

/-- The entries of a mapping whose keys are all texts. -/
def entriesOf? : Node → Option (List (String × Node))
  | .mapping entries => entries.mapM fun (key, value) => key.text?.map (·, value)
  | _ => none

/-- Whether no setting is there twice. -/
def noneTwice (entries : List (String × Node)) : Bool :=
  fieldNames.all fun name => (entries.filter (·.1 = name)).length ≤ 1

/-- A setting that is there, or else its default. -/
def setting {α : Type} (entries : List (String × Node)) (name : String) (default : α)
    (read : Node → Option α) : Option α :=
  match entries.lookup name with
  | some n => read n
  | none => some default

/-- **The settings that a node holds.** -/
def ofNode? (n : Node) : Option Config := do
  let entries ← entriesOf? n
  guard (noneTwice entries)
  let api ← (← entries.lookup "api_base_url").text?
  let ws ← (← entries.lookup "ws_url").text?
  let d := Config.forEndpoints api ws
  return {
    apiBaseUrl := api
    wsUrl := ws
    tokenPath := ← setting entries "token_path" d.tokenPath Node.text?
    protocolVersion := ← setting entries "protocol_version" d.protocolVersion Node.uint32?
    handshakeTimeoutMs :=
      ← setting entries "handshake_timeout_ms" d.handshakeTimeoutMs Node.uint64?
    fetchTimeoutMs := ← setting entries "fetch_timeout_ms" d.fetchTimeoutMs Node.uint64?
    commandTimeoutMs := ← setting entries "command_timeout_ms" d.commandTimeoutMs Node.uint64?
    backoffInitialMs := ← setting entries "backoff_initial_ms" d.backoffInitialMs Node.uint64?
    backoffMaxMs := ← setting entries "backoff_max_ms" d.backoffMaxMs Node.uint64?
    maxAttempts := ← setting entries "max_attempts" d.maxAttempts Node.uint32?
    livenessTimeoutMs := ← setting entries "liveness_timeout_ms" d.livenessTimeoutMs Node.uint64?
    confirmTimeoutMs := ← setting entries "confirm_timeout_ms" d.confirmTimeoutMs Node.uint64?
    eventCapacity := ← setting entries "event_capacity" d.eventCapacity Node.uint64? }

/-- **Why a text gives no settings.** -/
inductive Refusal where
  /-- It does not hold settings. -/
  | malformed
  /-- It holds settings that are not right. -/
  | invalid (violations : List Violation)
deriving DecidableEq, Repr

/-- **The settings that a text holds.** -/
def ofYaml (text : String) : Except Refusal Config :=
  match (Node.ofText? text).bind ofNode? with
  | none => .error .malformed
  | some c =>
    match c.violations with
    | [] => .ok c
    | vs => .error (.invalid vs)

/-- What is told with whatever is wrong with a file. -/
def fileContext (path : String) : String := "in config file '" ++ path ++ "'"

/-- There is no file at a path. -/
def missingFile (path : String) : Failure :=
  .config (.io path "No such file or directory (os error 2)")

theorem isValid_of_ofYaml {text : String} {c : Config} (h : ofYaml text = .ok c) :
    c.isValid = true := by
  unfold ofYaml at h
  unfold isValid
  split at h
  · simp at h
  · split at h
    · simp_all
    · simp at h

end LiveSync.Config
