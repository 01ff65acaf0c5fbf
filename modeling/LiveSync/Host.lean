import LiveSync.Broadcast
import LiveSync.Json.Shape

/-!
# The host

The program that embeds the client reports what happens to it: it is
hidden or shown, frozen or resumed, it loses or gains the network or the
focus. Three flags sum this up, and the host is **active** while it is
visible, not frozen and online.

Every signal is announced to whoever listens, together with the activity
it led to. A listener keeps up with the last 64 announcements.
-/

namespace LiveSync

namespace Host

/-- **What the host reports.** -/
inductive Signal where
  | visibilityChanged (visible : Bool)
  | frozen
  | resumed
  | online
  | offline
  | focusGained
deriving DecidableEq, Repr, Inhabited

namespace Signal

/-- The name of a signal. -/
def name : Signal → String
  | .visibilityChanged _ => "visibility_changed"
  | .frozen => "frozen"
  | .resumed => "resumed"
  | .online => "online"
  | .offline => "offline"
  | .focusGained => "focus_gained"

/-- Reads a signal. -/
def ofJson? (v : Json) : Option Signal :=
  match Json.tagged? .outermost "signal" [] v with
  | some ("visibility_changed", fields) => do
    let (visible, fields) ← fields.required ["visible"] Json.bool?
    fields.finish? (.visibilityChanged visible)
  | some ("frozen", fields) => fields.finish? .frozen
  | some ("resumed", fields) => fields.finish? .resumed
  | some ("online", fields) => fields.finish? .online
  | some ("offline", fields) => fields.finish? .offline
  | some ("focus_gained", fields) => fields.finish? .focusGained
  | _ => none

/-- The JSON form of a signal. -/
def toJson (s : Signal) : Json :=
  match s with
  | .visibilityChanged visible =>
    .obj [("signal", .str s.name), ("visible", .bool visible)]
  | _ => .obj [("signal", .str s.name)]

end Signal

/-- **The condition of the host.** -/
structure Condition where
  visible : Bool
  frozen : Bool
  online : Bool
deriving DecidableEq, Repr

namespace Condition

/-- A host starts active. -/
def initial : Condition := ⟨true, false, true⟩

instance : Inhabited Condition := ⟨initial⟩

/-- Whether the host is active. -/
def isActive (c : Condition) : Bool := c.visible && !c.frozen && c.online

/-- The condition after a signal. The focus goes to something that is seen. -/
def after (c : Condition) : Signal → Condition
  | .visibilityChanged visible => { c with visible := visible }
  | .frozen => { c with frozen := true }
  | .resumed => { c with frozen := false }
  | .online => { c with online := true }
  | .offline => { c with online := false }
  | .focusGained => { c with visible := true }

end Condition

/-- A signal and the activity it led to. -/
structure Announcement where
  signal : Signal
  active : Bool
deriving DecidableEq, Repr, Inhabited

end Host

/-- **A host with its listeners.** -/
structure Host where
  condition : Host.Condition
  channel : Channel Host.Announcement
deriving Repr

namespace Host

/-- How many announcements a listener can be behind. -/
def capacity : Nat := 64

/-- A host that is active and that nobody listens to. -/
def initial : Host := ⟨.initial, .withCapacity capacity⟩

instance : Inhabited Host := ⟨initial⟩

/-- Whether the host is active. -/
def isActive (h : Host) : Bool := h.condition.isActive

/-- What a signal is announced as. -/
def announcement (h : Host) (s : Signal) : Announcement := ⟨s, (h.condition.after s).isActive⟩

/-- **The host after a signal.** -/
def emit (h : Host) (s : Signal) : Host :=
  ⟨h.condition.after s, h.channel.publish (h.announcement s)⟩

end Host

end LiveSync
