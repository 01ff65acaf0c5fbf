import LiveSync.Entity.Topic

/-!
# Receipts

Whichever way a command goes, the server acknowledges it in the same way.
-/

namespace LiveSync

/-- **What the server says of a command it accepted.** -/
structure Receipt where
  /-- The version that the command led to, if the server tells. -/
  version : Option Version
deriving DecidableEq, Repr, Inhabited

end LiveSync
