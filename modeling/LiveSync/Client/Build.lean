import LiveSync.Client.Basic
import LiveSync.Config.Check

/-!
# Building a client

A client needs somewhere to run its parts, which is looked at first, and
settings without a violation. It begins disconnected and knows of no
entity.
-/

namespace LiveSync

/-- **Why no client was built.** -/
inductive BuildFailure where
  /-- There is nothing that would run the parts of the client. -/
  | noRuntime
  /-- The settings are not right. -/
  | invalidConfig (violations : List Violation)
deriving DecidableEq, Repr

/-- The message that there is nothing to run the client. -/
def BuildFailure.noRuntimeMessage : String :=
  "SyncClient must be built inside a Tokio runtime"

/-- **Builds a client** with the given settings, on a host in the given
condition. -/
def Client.build (hasRuntime : Bool) (config : Config) (host : Host.Condition) :
    Except BuildFailure Client :=
  if !hasRuntime then .error .noRuntime
  else
    match config.violations with
    | [] => .ok (Client.start config host)
    | vs => .error (.invalidConfig vs)

theorem Client.build_eq_ok_iff {hasRuntime : Bool} {config : Config} {host : Host.Condition}
    {c : Client} :
    Client.build hasRuntime config host = .ok c
      ↔ hasRuntime = true ∧ config.isValid = true ∧ c = Client.start config host := by
  unfold Client.build Config.isValid
  cases hasRuntime <;> cases config.violations <;> simp [eq_comm]

end LiveSync
